import SimpleRest.Cpp.UnorderedMap
import SimpleRest.Lib.Transition
import SimpleRest.Spec.Connection

/-!
# SimpleREST — the server and its threads (`server.cpp`)

One thread calls `start`, `stop` and in the end the destructor. `start` makes the accept thread,
and the accept thread makes a detached thread for every connection it accepts. A state of the
`RestServer` is its members, and for every thread the statement it is at. `step` lets one thread do
its next statement, and is undefined while that thread has to wait: in `lock_guard` for
`memberLock_`, in `join` for the end of the accept thread. Which thread comes next is the choice
of the action, and so is everything the program does not decide itself: whether the port can be
bound, how an `accept` ends, which way a handler goes.
-/

namespace Rest

open Cpp Transition

/-! ## The threads -/

/-- What a server has to know of a connection. `serial` tells one object from another one. -/
structure Connection where
  id_ : UserId
  serial : Nat
deriving DecidableEq

/-- Who is inside a `LOCK_SCOPE`. -/
inductive Holder where
  | accept
  | handler (n : Nat)
deriving DecidableEq

/-- The statement a handler thread does next. -/
inductive HandlerPc where
  /-- inside `readHead` -/
  | reading
  /-- `handler_(connection)` -/
  | callHandler
  /-- inside the handler, where it has no need of the route table: it parses the target, sends a
  status, or is in a callback -/
  | handling
  /-- inside the handler, at the next look at the route table -/
  | routing
  /-- `errorHandler_(connection, exc)` -/
  | callError
  /-- inside the error handler -/
  | answering
  /-- `connection->free()`: `deregisterClient` up to the lock -/
  | lock
  /-- `connections_.erase(connection->getId())` -/
  | erase
  /-- the end of `deregisterClient` -/
  | unlock
  | done
deriving DecidableEq

namespace HandlerPc

/-- Where a handler thread can be next. Reading a head, handling and answering take any number of
steps. What is thrown as `InvalidRequest` leads to the error handler, and behind either handler
comes `free`. Other exceptions are not followed, they end the program in `std::terminate`. -/
def successors : HandlerPc → List HandlerPc
  | reading => [reading, callHandler, callError]
  | callHandler => [handling]
  | handling => [handling, routing, callError, lock]
  | routing => [handling]
  | callError => [answering]
  | answering => [answering, lock]
  | lock => [erase]
  | erase => [unlock]
  | unlock => [done]
  | done => []

/-- The next step needs the server: it calls `handler_` or `errorHandler_`, reads the route
table, or is one of `deregisterClient`. -/
def usesServer : HandlerPc → Bool
  | callHandler | routing | callError | lock | erase | unlock => true
  | reading | handling | answering | done => false

end HandlerPc

structure Handler where
  connection : Connection
  pc : HandlerPc := .reading

/-- The statement the accept thread does next. -/
inductive AcceptPc where
  /-- the test of the loop -/
  | testListening
  /-- `idIncrement_.store(idIncrement_.load() + 1)`: no other thread stores to it -/
  | increment
  | construct
  /-- the dereference in `acceptor_->accept(…)` -/
  | accept (c : Connection)
  /-- inside `accept` -/
  | accepting (c : Connection)
  | lock (c : Connection)
  | insert (c : Connection)
  | unlock (c : Connection)
  /-- `std::thread(…).detach()` -/
  | spawn (c : Connection)
  | finished
  /-- a null pointer has been dereferenced -/
  | crashed

inductive StopPc where
  | resetAcceptor
  | storeListening
  /-- `if (acceptingThread_.joinable()) acceptingThread_.join()` -/
  | join

inductive StartPc where
  | resetAcceptor
  | testJoinable
  | storeListening
  | startThread

inductive DestructorPc where
  /-- an `InterfaceProvider` loses its route table before its server -/
  | requests
  | testJoinable
  /-- the members of the server -/
  | members

/-- Who has called `stop`. -/
inductive StopCaller where
  | user
  | start
  | destructor

/-- The statement the controlling thread does next. -/
inductive Control where
  | idle
  | start (pc : StartPc)
  | stop (caller : StopCaller) (pc : StopPc)
  | destructor (pc : DestructorPc)
  | destroyed

/-! ## The server -/

structure RestServer where
  control : Control := .idle
  /-- `acceptor_` is not null -/
  acceptor_ : Bool := false
  /-- `none` is a thread that is not joinable -/
  acceptingThread_ : Option AcceptPc := none
  listening_ : Bool := false
  idIncrement_ : UInt64 := 0
  memberLock_ : Option Holder := none
  connections_ : UnorderedMap UserId Connection := ∅
  /-- the detached threads, in the order in which they were made -/
  handlers : List Handler := []
  /-- the number of connections that have been constructed -/
  constructed : Nat := 0

inductive Action where
  | callStart
  | callStop
  | callDestructor
  /-- the constructor of the acceptor throws -/
  | bindFails
  | control
  | accept (ok : Bool)
  | handler (n : Nat) (next : HandlerPc)

namespace RestServer

/-- The statement behind a call of `stop`. -/
def afterStop : StopCaller → Control
  | .user => .idle
  | .start => .start .storeListening
  | .destructor => .destructor .members

def startStep (s : RestServer) : StartPc → Option RestServer
  | .resetAcceptor => some { s with acceptor_ := true, control := .start .testJoinable }
  | .testJoinable =>
    -- a running server is stopped first, which takes the new acceptor away again
    if s.acceptingThread_.isSome then some { s with control := .stop .start .resetAcceptor }
    else some { s with control := .start .storeListening }
  | .storeListening => some { s with listening_ := true, control := .start .startThread }
  | .startThread => some { s with acceptingThread_ := some .testListening, control := .idle }

def stopStep (s : RestServer) (caller : StopCaller) : StopPc → Option RestServer
  | .resetAcceptor => some { s with acceptor_ := false, control := .stop caller .storeListening }
  | .storeListening => some { s with listening_ := false, control := .stop caller .join }
  | .join =>
    match s.acceptingThread_ with
    | none => some { s with control := afterStop caller }
    -- `join` returns when the loop has come to its end, and not before
    | some .finished => some { s with acceptingThread_ := none, control := afterStop caller }
    | some _ => none

def destructorStep (s : RestServer) : DestructorPc → Option RestServer
  | .requests => some { s with control := .destructor .testJoinable }
  | .testJoinable =>
    if s.acceptingThread_.isSome then some { s with control := .stop .destructor .resetAcceptor }
    else some { s with control := .destructor .members }
  -- the handler threads are no members: nothing is done about them
  | .members => some { s with acceptor_ := false, connections_ := ∅, control := .destroyed }

def controlStep (s : RestServer) : Option RestServer :=
  match s.control with
  | .idle | .destroyed => none
  | .start pc => s.startStep pc
  | .stop caller pc => s.stopStep caller pc
  | .destructor pc => s.destructorStep pc

/-- A call by the user of the server. -/
def call (s : RestServer) (first : Control) : Option RestServer :=
  match s.control with
  | .idle => some { s with control := first }
  | _ => none

/-- `start` is left by the exception, and nothing has changed. -/
def bindFails (s : RestServer) : Option RestServer :=
  match s.control with
  | .start .resetAcceptor => some { s with control := .idle }
  | _ => none

/-- The accept thread is at `pc`. -/
def acceptAt (s : RestServer) (pc : AcceptPc) : RestServer := { s with acceptingThread_ := some pc }

/-- `ok` is how a call of `accept` ends. -/
def acceptStep (s : RestServer) (ok : Bool) : Option RestServer :=
  match s.acceptingThread_ with
  | none | some .finished | some .crashed => none
  | some .testListening => some (s.acceptAt (if s.listening_ then .increment else .finished))
  | some .increment =>
    some { s with idIncrement_ := s.idIncrement_ + 1, acceptingThread_ := some .construct }
  | some .construct =>
    let connection : Connection := ⟨s.idIncrement_, s.constructed⟩
    some { s with constructed := s.constructed + 1, acceptingThread_ := some (.accept connection) }
  -- the pointer is followed without a test
  | some (.accept c) => some (s.acceptAt (if s.acceptor_ then .accepting c else .crashed))
  -- an `accept` that fails leaves its id unused
  | some (.accepting c) => some (s.acceptAt (if ok then .lock c else .testListening))
  | some (.lock c) =>
    if s.memberLock_ = none then
      some { s with memberLock_ := some .accept, acceptingThread_ := some (.insert c) }
    else none
  | some (.insert c) =>
    -- a key that is there already keeps its entry
    let entries := if c.id_ ∈ s.connections_ then s.connections_ else s.connections_.insert c.id_ c
    some { s with connections_ := entries, acceptingThread_ := some (.unlock c) }
  | some (.unlock c) => some { s with memberLock_ := none, acceptingThread_ := some (.spawn c) }
  | some (.spawn c) =>
    some { s with handlers := s.handlers ++ [⟨c, .reading⟩], acceptingThread_ := some .testListening }

/-- What a statement of a handler thread does to the members, if it does not have to wait. -/
def handlerEffect (s : RestServer) (n : Nat) (h : Handler) : Option RestServer :=
  match h.pc with
  | .lock => if s.memberLock_ = none then some { s with memberLock_ := some (.handler n) } else none
  | .erase => some { s with connections_ := s.connections_.erase h.connection.id_ }
  | .unlock => some { s with memberLock_ := none }
  | _ => some s

def handlerStep (s : RestServer) (n : Nat) (next : HandlerPc) : Option RestServer :=
  match s.handlers[n]? with
  | none => none
  | some h =>
    if next ∈ h.pc.successors then
      (s.handlerEffect n h).map fun t => { t with handlers := s.handlers.set n { h with pc := next } }
    else none

def step (s : RestServer) : Action → Option RestServer
  | .callStart => s.call (.start .resetAcceptor)
  | .callStop => s.call (.stop .user .resetAcceptor)
  | .callDestructor => s.call (.destructor .requests)
  | .bindFails => s.bindFails
  | .control => s.controlStep
  | .accept ok => s.acceptStep ok
  | .handler n next => s.handlerStep n next

/-- Any number of steps, of whichever threads. -/
abbrev Runs (s t : RestServer) : Prop := Run step (fun _ _ => True) s t

/-- The states a server that has been constructed can be in. -/
def Reachable (s : RestServer) : Prop := Runs {} s

end RestServer

end Rest
