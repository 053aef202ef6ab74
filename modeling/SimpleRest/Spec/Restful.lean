import SimpleRest.Spec.Response
import SimpleRest.Spec.UrlParser

/-!
# SimpleREST — the interface provider (`restful.cpp`)

Registered requests are kept in one vector for each request type. A callback is a value of a
type `κ`, and `run` says what it does to the connection while it runs, so that a call can be
told from another one by the callback that is called.
-/

namespace Rest

open Cpp

variable {κ : Type}

structure BuiltRequest (κ : Type) where
  url : Url
  callback : κ

abbrev Requests (κ : Type) := UnorderedMap Str (List (BuiltRequest κ))

/-- A call of a callback. -/
structure Invocation (κ : Type) where
  callback : κ
  request : Request
  response : Response

/-- What a callback does to the connection. It returns. -/
abbrev Run (κ : Type) := κ → Request → Response → RestConnection → RestConnection

/-- What has happened when a handler ends: the connection as it is then, the callbacks that have
been called, and what the handler ends in. -/
structure Handled (κ : Type) where
  connection : RestConnection
  invoked : List (Invocation κ)
  result : Except Fault Unit

namespace InterfaceProvider

/-! ## Registration -/

/-- The request is built before the table is touched. -/
def registerRequest (requests_ : Requests κ) (type url : Str) (callback : κ) :
    Requests κ × Except Fault Unit :=
  match ReducedUrlParser.parse url with
  | .error fault => (requests_, .error fault)
  | .ok url =>
    let req : BuiltRequest κ := { url, callback }
    (requests_.insert type (UnorderedMap.index requests_ type [] ++ [req]), .ok ())

def get (requests_ : Requests κ) (url : Str) (callback : κ) : Requests κ × Except Fault Unit :=
  registerRequest requests_ "GET".toList url callback

def put (requests_ : Requests κ) (url : Str) (callback : κ) : Requests κ × Except Fault Unit :=
  registerRequest requests_ "PUT".toList url callback

def post (requests_ : Requests κ) (url : Str) (callback : κ) : Requests κ × Except Fault Unit :=
  registerRequest requests_ "POST".toList url callback

def remove (requests_ : Requests κ) (url : Str) (callback : κ) : Requests κ × Except Fault Unit :=
  registerRequest requests_ "DELETE".toList url callback

def head (requests_ : Requests κ) (url : Str) (callback : κ) : Requests κ × Except Fault Unit :=
  registerRequest requests_ "HEAD".toList url callback

def patch (requests_ : Requests κ) (url : Str) (callback : κ) : Requests κ × Except Fault Unit :=
  registerRequest requests_ "PATCH".toList url callback

/-! ## Matching -/

/-- The loop of `matching`: both vectors are read at the index that counts through the first. -/
def matchParts : List PathPart → List PathPart → Except Fault Bool
  | [], _ => return true
  | _ :: _, [] => throw .undefinedBehaviour
  | registered :: registeredParts, received :: receivedParts =>
    if registered.getType = .string then
      if registered.getValue ≠ received.getValue then return false
      else matchParts registeredParts receivedParts
    else matchParts registeredParts receivedParts

def matching (received registered : Url) : Except Fault Bool := do
  let registeredParts ← registered.parsePath false
  let receivedParts ← received.parsePath true
  if registeredParts.length ≠ receivedParts.length then return false
  else matchParts registeredParts receivedParts

/-- The loop of `extractParameters`. -/
def extractParts : List PathPart → List PathPart → UnorderedMap Str Str →
    Except Fault (UnorderedMap Str Str)
  | [], _, map => return map
  | _ :: _, [], _ => throw .undefinedBehaviour
  | registered :: registeredParts, received :: receivedParts, map =>
    if registered.getType = .parameter then do
      let id ← registered.getId
      extractParts registeredParts receivedParts (map.insert id received.getValue)
    else extractParts registeredParts receivedParts map

def extractParameters (received registered : Url) : Except Fault (UnorderedMap Str Str) := do
  let registeredParts ← registered.parsePath false
  let receivedParts ← received.parsePath true
  if registeredParts.length = receivedParts.length then
    extractParts registeredParts receivedParts ∅
  else throw .assertion

/-- `std::find_if` with a predicate that may throw. -/
def findIf {α : Type} (p : α → Except Fault Bool) : List α → Except Fault (Option α)
  | [] => return none
  | x :: xs => do
    if ← p x then return some x else findIf p xs

/-! ## Handling a connection -/

/-- A response that consists of a status alone. -/
def reply (order : IterationOrder Str Str) (c : RestConnection) (code : Int) : Handled κ where
  connection := (({} : Response).sendStatus order code c).2
  invoked := []
  result := .ok ()

/-- A handler that does not come to its end. -/
def stopped (c : RestConnection) (fault : Fault) : Handled κ := ⟨c, [], .error fault⟩

def connectionHandler (order : IterationOrder Str Str) (run : Run κ) (requests_ : Requests κ)
    (c : RestConnection) : Handled κ :=
  match ReducedUrlParser.parse c.request_.url with
  -- `catch (...)` catches every exception, and nothing that is not one
  | .error fault => if fault.isException then reply order c 400 else stopped c fault
  | .ok url =>
    let type := c.request_.requestType
    match requests_.lookup type with
    | none =>
      if type ≠ "GET".toList ∧ type ≠ "POST".toList ∧ type ≠ "PUT".toList ∧
          type ≠ "DELETE".toList ∧ type ≠ "PATCH".toList then reply order c 501
      else if type ≠ "HEAD".toList then reply order c 404
      else ⟨(({} : Response).status 404).send order [] c, [], .ok ()⟩
    | some requestList =>
      -- the first one that matches, in the order of registration
      match findIf (fun request => matching url request.url) requestList with
      | .error fault => stopped c fault
      | .ok none => reply order c 404
      | .ok (some request) =>
        match extractParameters url request.url with
        | .error fault => stopped c fault
        | .ok params =>
          let invocation : Invocation κ := ⟨request.callback, ⟨c, params, url⟩, {}⟩
          { connection := run invocation.callback invocation.request invocation.response c
            invoked := [invocation]
            result := .ok () }

def errorHandler (order : IterationOrder Str Str) (c : RestConnection) (_ : Fault) :
    RestConnection :=
  (({} : Response).sendStatus order 400 c).2

end InterfaceProvider

end Rest
