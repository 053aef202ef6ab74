import SimpleRest.Spec.BodyRead
import SimpleRest.Spec.Connection

/-!
# SimpleREST — the body of a request (`connection.cpp`, `request.cpp`)

`Spec/BodyRead.lean` has a body by itself. Here the body is what the head has left on the stream of
a connection. A stream that is not good any more has nothing left, so nothing is read from it.
-/

namespace Rest

open Cpp

/-- For every connection how the rest of its stream comes in, and when it begins to be read. -/
structure Network where
  arrivals : RestConnection → BodyRead.Arrivals
  begins : RestConnection → Nat
  body : ∀ c, (arrivals c).body = c.stream_.rest

/-- What has been read is not there any more. -/
def RestConnection.readString (network : Network) (c : RestConnection) (timeout : Int) :
    RestConnection × Str :=
  let (reader, result) := BodyRead.readString (network.arrivals c) timeout ⟨network.begins c, 0, 0⟩
  ({ c with stream_ := { c.stream_ with rest := c.stream_.rest.drop reader.consumed } }, result)

/-- The timeout is the default one. -/
def Request.getString (network : Network) (r : Request) : RestConnection × Str :=
  r.connection_.readString network 3

end Rest
