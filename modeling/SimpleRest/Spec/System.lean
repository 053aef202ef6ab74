import SimpleRest.Routing
import SimpleRest.Spec.HandlerThread
import SimpleRest.Spec.Server

/-!
# SimpleREST — an interface provider that serves (`restful.cpp`, `server.cpp`)

`Spec/Server.lean` has the threads without what they work on, and `Spec/HandlerThread.lean` one
handler thread from its start to its end. Here they are put together. A state of the `System` is
the server, the route table, and for every handler thread the connection it has and the statement
it is at. The steps of all threads may come in any order. The one table is read by all handler
threads, and the user's thread goes on registering requests, so two threads can see different
tables.

What a callback does is a step of its own, on its own connection. So is the look at the table, from
`requests_.find` to `extractParameters`: nothing comes between its statements, although `requests_`
has no lock. Three kinds of steps have undefined behaviour in the program and are not followed: what
uses the server or the table behind their destruction, a registration that moves the vector whose
callback is being called, and a registration during a look at the table.
-/

namespace Rest

open Cpp Transition InterfaceProvider

variable {κ : Type}

/-! ## A handler thread, statement by statement -/

/-- What is left to do for the handler when it has looked at the table. -/
inductive Task (κ : Type) where
  /-- `response.sendStatus(code)` -/
  | sendStatus (code : Int)
  /-- `response.status(404).send()` -/
  | sendEmpty
  /-- `request->callback(…)` -/
  | callback (invocation : Invocation κ)

/-- The statement a handler thread does next, with the variables it needs. -/
inductive Stage (κ : Type) where
  | reading
  | callHandler
  /-- `url = ReducedUrlParser::parse(…)` -/
  | parsing
  /-- from `requests_.find(type)` to `extractParameters` -/
  | routing (url : Url)
  | acting (task : Task κ)
  | callError (fault : Fault)
  | answering (fault : Fault)
  | lock
  | erase
  | unlock
  | done

/-- Where the server sees such a thread. -/
def Stage.pc : Stage κ → HandlerPc
  | reading => .reading
  | callHandler => .callHandler
  | parsing | acting _ => .handling
  | routing _ => .routing
  | callError _ => .callError
  | answering _ => .answering
  | lock => .lock
  | erase => .erase
  | unlock => .unlock
  | done => .done

namespace Task

def run (order : IterationOrder Str Str) (run : Run κ) : Task κ → RestConnection → RestConnection
  | sendStatus code, c => (({} : Response).sendStatus order code c).2
  | sendEmpty, c => (({} : Response).status 404).send order [] c
  | callback i, c => run i.callback i.request i.response c

def invoked : Task κ → List (Invocation κ)
  | callback i => [i]
  | _ => []

end Task

/-- A handler thread: what the server knows of its connection, the connection, and what has
happened in it so far. -/
structure Job (κ : Type) where
  peer : Connection
  connection : RestConnection
  stage : Stage κ := .reading
  events : List (Event κ) := []
  /-- the registrations that had been made when the thread was made; no step looks at them -/
  known : List (Registration κ) := []

namespace Job

/-- A thread that has just been made, for a connection whose peer sends `s`. -/
def accepted (peer : Connection) (s : Str) (known : List (Registration κ)) : Job κ where
  peer := peer
  connection := .accepted peer.id_ s
  known := known

/-- What `RestServer` keeps of it. -/
def handler (j : Job κ) : Handler := ⟨j.peer, j.stage.pc⟩

/-- The part of `connectionHandler` that looks at the table. There is no task where the program
ends in the middle of it. -/
def lookUp (requests_ : Requests κ) (c : RestConnection) (url : Url) : Option (Task κ) :=
  let type := c.request_.requestType
  match requests_.lookup type with
  | none =>
    if type ≠ "GET".toList ∧ type ≠ "POST".toList ∧ type ≠ "PUT".toList ∧
        type ≠ "DELETE".toList ∧ type ≠ "PATCH".toList then some (.sendStatus 501)
    else if type ≠ "HEAD".toList then some (.sendStatus 404)
    else some .sendEmpty
  | some requestList =>
    match findIf (fun request => matching url request.url) requestList with
    | .error _ => none
    | .ok none => some (.sendStatus 404)
    | .ok (some request) =>
      match extractParameters url request.url with
      | .error _ => none
      | .ok params => some (.callback ⟨request.callback, ⟨c, params, url⟩, {}⟩)

/-- The next statement of a thread that does not have to wait. There is none at its end, and none
where the program ends. -/
def next (order : IterationOrder Str Str) (run : Run κ) (requests_ : Requests κ) (j : Job κ) :
    Option (Job κ) :=
  match j.stage with
  | .reading =>
    match j.connection.readHead with
    | (c, .ok ()) => some { j with connection := c, stage := .callHandler }
    | (c, .error (.invalidRequest message)) =>
      some { j with connection := c, stage := .callError (.invalidRequest message) }
    | (_, .error _) => none
  | .callHandler => some { j with stage := .parsing }
  | .parsing =>
    match ReducedUrlParser.parse j.connection.request_.url with
    | .error fault =>
      if fault.isException then some { j with stage := .acting (.sendStatus 400) } else none
    | .ok url => some { j with stage := .routing url }
  | .routing url =>
    (lookUp requests_ j.connection url).map fun task => { j with stage := .acting task }
  | .acting task =>
    some { j with
      connection := task.run order run j.connection
      events := j.events ++ task.invoked.map .invoke
      stage := .lock }
  | .callError fault => some { j with stage := .answering fault }
  | .answering fault =>
    some { j with connection := errorHandler order j.connection fault, stage := .lock }
  | .lock => some { j with stage := .erase }
  | .erase => some { j with events := j.events ++ [.deregister j.peer.id_], stage := .unlock }
  | .unlock => some { j with stage := .done }
  | .done => none

/-- The next statement needs the route table. A callback lives in its vector while it is called. -/
def usesTable (j : Job κ) : Bool :=
  match j.stage with
  | .routing _ | .acting (.callback _) => true
  | _ => false

/-- A callback of this method is about to be called. -/
def calling (j : Job κ) (method : Str) : Bool :=
  match j.stage with
  | .acting (.callback _) => j.connection.request_.requestType = method
  | _ => false

end Job

/-! ## The system -/

/-- The table is a member of the `InterfaceProvider`, and goes before the server does. -/
def Control.hasTable : Control → Bool
  | .destructor .testJoinable | .destructor .members | .stop .destructor _ | .destroyed => false
  | _ => true

def Control.hasServer : Control → Bool
  | .destroyed => false
  | _ => true

def Control.isIdle : Control → Bool
  | .idle => true
  | _ => false

structure System (κ : Type) where
  server : RestServer := {}
  requests_ : Requests κ := ∅
  jobs : List (Job κ) := []
  /-- the registrations that have been made; no step looks at them -/
  log : List (Registration κ) := []

inductive SystemAction (κ : Type) where
  | register (r : Registration κ)
  /-- a step of the user's thread inside the server, or of the accept thread -/
  | server (a : Action)
  /-- a step of a handler thread -/
  | handler (n : Nat)

namespace System

/-- The user's thread registers while it is not inside another call. -/
def registerStep (s : System κ) (r : Registration κ) : Option (System κ) :=
  if s.server.control.isIdle && s.jobs.all (!·.calling r.verb.method) then
    some { s with requests_ := (r.run s.requests_).1, log := s.log ++ [r] }
  else none

/-- The server behind a step of its own, and the thread it has made, if it has made one. -/
def after (client : Nat → Str) (s : System κ) (t : RestServer) : System κ :=
  let made := t.handlers.drop s.jobs.length
  { s with
    server := t
    jobs := s.jobs ++ made.map fun h => .accepted h.connection (client h.connection.serial) s.log }

def serverStep (client : Nat → Str) (s : System κ) : Action → Option (System κ)
  | .handler _ _ => none
  | a => (s.server.step a).map (s.after client)

/-- A job goes on as its own program says, and the server does its part of the statement. -/
def handlerStep (order : IterationOrder Str Str) (run : Run κ) (s : System κ) (n : Nat) :
    Option (System κ) :=
  match s.jobs[n]? with
  | none => none
  | some j =>
    if (j.stage.pc.usesServer → s.server.control.hasServer) ∧
        (j.usesTable → s.server.control.hasTable) then
      match j.next order run s.requests_ with
      | none => none
      | some j' =>
        (s.server.handlerStep n j'.stage.pc).map fun t =>
          { s with server := t, jobs := s.jobs.set n j' }
    else none

/-- `client` is what the peer of the connection with this serial number sends until it is done. -/
def step (order : IterationOrder Str Str) (run : Run κ) (client : Nat → Str) (s : System κ) :
    SystemAction κ → Option (System κ)
  | .register r => s.registerStep r
  | .server a => s.serverStep client a
  | .handler n => s.handlerStep order run n

/-- Any number of steps, of whichever threads. -/
abbrev Runs (order : IterationOrder Str Str) (run : Run κ) (client : Nat → Str)
    (s t : System κ) : Prop := Transition.Run (step order run client) (fun _ _ => True) s t

/-- The states of a provider that has been constructed. -/
def Reachable (order : IterationOrder Str Str) (run : Run κ) (client : Nat → Str)
    (s : System κ) : Prop := Runs order run client {} s

end System

end Rest
