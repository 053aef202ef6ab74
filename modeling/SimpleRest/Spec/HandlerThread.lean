import SimpleRest.Spec.Restful

/-!
# SimpleREST — the body of a handler thread (`server.cpp`)

What one of the detached threads that `RestServer::start` makes does from its first statement
to its last, as a sequence of the things the rest of the program can notice. The threads
beside it are the business of `Spec/Server.lean`.
-/

namespace Rest

open Cpp

variable {κ : Type}

inductive Event (κ : Type) where
  | invoke (invocation : Invocation κ)
  | deregister (id : UserId)
  /-- `std::terminate` in the handler of `std::exception` -/
  | terminate (fault : Fault)
  /-- the program ends in something that is not an exception -/
  | crash (fault : Fault)

/-- The connection when the thread ends, and what has happened. -/
structure Finished (κ : Type) where
  connection : RestConnection
  events : List (Event κ)

/-- The `try` block: the head is read, and the handler is called behind it. -/
def tryHandle (handler_ : RestConnection → Handled κ) (c : RestConnection) : Handled κ :=
  match c.readHead with
  | (c, .error fault) => ⟨c, [], .error fault⟩
  | (c, .ok ()) => handler_ c

def handlerThread (handler_ : RestConnection → Handled κ)
    (errorHandler_ : RestConnection → Fault → RestConnection) (c : RestConnection) : Finished κ :=
  let handled := tryHandle handler_ c
  let invoked := handled.invoked.map Event.invoke
  match handled.result with
  | .ok () => ⟨handled.connection, invoked ++ [.deregister c.id_]⟩
  -- thrown by `readHead` or by the handler: both are inside the `try`
  | .error (.invalidRequest message) =>
    ⟨errorHandler_ handled.connection (.invalidRequest message), invoked ++ [.deregister c.id_]⟩
  | .error fault =>
    if fault.isException then ⟨handled.connection, invoked ++ [.terminate fault]⟩
    else ⟨handled.connection, invoked ++ [.crash fault]⟩

/-- The handler thread of an interface provider's server. -/
def InterfaceProvider.handlerThread (order : IterationOrder Str Str) (run : Run κ)
    (requests_ : Requests κ) (c : RestConnection) : Finished κ :=
  Rest.handlerThread (connectionHandler order run requests_) (errorHandler order) c

end Rest
