import SimpleRest.Spec.HandlerThread

/-!
# SimpleREST — callbacks that throw (`restful.cpp`, `server.cpp`)

`Spec/Restful.lean` has callbacks that return. What a callback throws passes through the handler,
where nothing stands behind the call, and comes to the `catch` clauses of the handler thread.
-/

namespace Rest

open Cpp

variable {κ : Type}

/-- What a callback does to the connection, and how it ends. -/
abbrev Throwing (κ : Type) :=
  κ → Request → Response → RestConnection → RestConnection × Except Fault Unit

/-- The same callbacks, when nobody looks at how they end. -/
def Throwing.returning (run : Throwing κ) : Run κ := fun callback request response c =>
  (run callback request response c).1

namespace InterfaceProvider

/-- The handler ends as the callback does that it has called. -/
def throwingHandler (order : IterationOrder Str Str) (run : Throwing κ) (requests_ : Requests κ)
    (c : RestConnection) : Handled κ :=
  let handled := connectionHandler order run.returning requests_ c
  match handled.invoked with
  | [] => handled
  | i :: _ => { handled with result := (run i.callback i.request i.response c).2 }

def throwingThread (order : IterationOrder Str Str) (run : Throwing κ) (requests_ : Requests κ)
    (c : RestConnection) : Finished κ :=
  Rest.handlerThread (throwingHandler order run requests_) (errorHandler order) c

end InterfaceProvider

end Rest
