import SimpleRest.Spec.System
import SimpleRest.Spec.Throwing

/-!
# SimpleREST — a program whose callbacks throw (`server.cpp`)

`Spec/System.lean` has callbacks that return. Here the call of a callback may end in an exception,
in one of the threads of a system. An `InvalidRequest` goes to the error handler of this thread. Every
other exception is no business of the thread: it ends the program in `std::terminate`, and with it
all the threads there are.

`ended` is for this end alone. Where the behaviour of the program is undefined there is no end, and
no step either: an accept thread that has followed the null acceptor stays where it is, and what
`Spec/System.lean` does not follow is not followed here.
-/

namespace Rest

open Cpp

variable {κ : Type}

/-- What a statement leads to. -/
inductive Statement (κ : Type) where
  /-- the thread goes on -/
  | goes (j : Job κ)
  /-- the program ends, and this is how the thread is left -/
  | ends (j : Job κ)

/-- The next statement of a thread whose callbacks may throw. -/
def Job.proceed (order : IterationOrder Str Str) (run : Throwing κ) (requests_ : Requests κ)
    (j : Job κ) : Option (Statement κ) :=
  match j.stage with
  | .acting (.callback i) =>
    let events := j.events ++ [.invoke i]
    some <|
      match run i.callback i.request i.response j.connection with
      | (c, .ok ()) => .goes { j with connection := c, events, stage := .lock }
      | (c, .error (.invalidRequest message)) =>
        .goes { j with connection := c, events, stage := .callError (.invalidRequest message) }
      | (c, .error fault) =>
        .ends { j with
          connection := c
          events := events ++ [if fault.isException then .terminate fault else .crash fault] }
  | _ => (j.next order run.returning requests_).map .goes

/-- A system, and whether the program it is in has ended. -/
structure Program (κ : Type) extends System κ where
  ended : Bool := false

namespace Program

def handlerStep (order : IterationOrder Str Str) (run : Throwing κ) (p : Program κ) (n : Nat) :
    Option (Program κ) :=
  match p.jobs[n]? with
  | none => none
  | some j =>
    if (j.stage.pc.usesServer → p.server.control.hasServer) ∧
        (j.usesTable → p.server.control.hasTable) then
      match j.proceed order run p.requests_ with
      | none => none
      | some (.goes j') =>
        (p.server.handlerStep n j'.stage.pc).map fun t =>
          { p with server := t, jobs := p.jobs.set n j' }
      | some (.ends j') => some { p with jobs := p.jobs.set n j', ended := true }
    else none

/-- Nothing is done behind the end of the program. -/
def step (order : IterationOrder Str Str) (run : Throwing κ) (client : Nat → Str) (p : Program κ)
    (a : SystemAction κ) : Option (Program κ) :=
  if p.ended then none
  else
    match a with
    | .register r => (p.registerStep r).map fun s => { p with toSystem := s }
    | .server a => (p.serverStep client a).map fun s => { p with toSystem := s }
    | .handler n => p.handlerStep order run n

/-- Any number of steps, of whichever threads. -/
abbrev Runs (order : IterationOrder Str Str) (run : Throwing κ) (client : Nat → Str)
    (p q : Program κ) : Prop := Transition.Run (step order run client) (fun _ _ => True) p q

/-- The states of a program whose provider has been constructed. -/
def Reachable (order : IterationOrder Str Str) (run : Throwing κ) (client : Nat → Str)
    (p : Program κ) : Prop := Runs order run client {} p

end Program

end Rest
