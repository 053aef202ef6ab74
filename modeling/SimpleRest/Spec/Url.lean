import SimpleRest.Cpp.Text
import SimpleRest.Cpp.UnorderedMap

/-!
# SimpleREST — faults, URLs and path parts (`exceptions.hpp`, `url.hpp`, `url.cpp`)

`Fault` is everything a modelled function can end in besides returning. Its exceptions are
the ones the code throws or lets through; `assertion` and `undefinedBehaviour` stand for the
places where `matching` and `extractParameters` rely on a fact they do not check.
-/

namespace Rest

open Cpp

inductive Fault where
  /-- `Rest::InvalidRequest` -/
  | invalidRequest (message : Str)
  /-- `std::invalid_argument` -/
  | invalidArgument (message : Str)
  /-- `std::out_of_range` of `std::string::substr` -/
  | outOfRange
  /-- `std::runtime_error` -/
  | runtimeError (message : Str)
  /-- a failed `assert` -/
  | assertion
  /-- a `static_cast` to a class the object is not of, or a vector index past the end -/
  | undefinedBehaviour
  deriving DecidableEq, Repr

/-- Only an exception can be caught. -/
def Fault.isException : Fault → Bool
  | invalidRequest _ => true
  | invalidArgument _ => true
  | outOfRange => true
  | runtimeError _ => true
  | assertion => false
  | undefinedBehaviour => false

/-- `s.substr(pos, n)` as a step that may throw. -/
def substr (s : Str) (pos : Nat) (n : Pos) : Except Fault Str :=
  match substr? s pos n with
  | some t => .ok t
  | none => .error .outOfRange

/-- `struct Url`, the members the reduced parser fills. -/
structure Url where
  url : Str := []
  fragment : Str := []
  path : Str := []
  query : UnorderedMap Str Str := ∅

inductive PathType where
  | parameter
  | string
  deriving DecidableEq, Repr

/-- `PathPart` with its two derived classes and their members. -/
inductive PathPart where
  | parameter (value_ id_ : Str)
  | string (value_ : Str)
  deriving DecidableEq, Repr

namespace PathPart

def getValue : PathPart → Str
  | parameter value_ _ => value_
  | string value_ => value_

def getType : PathPart → PathType
  | parameter _ _ => .parameter
  | string _ => .string

/-- `static_cast <PathParameter*> (part)->getId()`: only a `PathParameter` has the member. -/
def getId : PathPart → Except Fault Str
  | parameter _ id_ => .ok id_
  | string _ => .error .undefinedBehaviour

end PathPart

/-- `boost::algorithm::split` on `'/'` without token compression, and `pop_front`. -/
def splitPath (path : Str) : List Str := (path.splitOnP (· == '/')).tail

/-- The body of the loop of `Url::parsePath`. -/
def pathPart (disableIds : Bool) (i : Str) : Except Fault PathPart :=
  if !disableIds && front i == ':' then do
    -- the segment of the target is not known here: the value stays empty
    let id ← substr i 1 (some (i.length - 1))
    return .parameter [] id
  else
    return .string i

def Url.parsePath (url : Url) (disableIds : Bool) : Except Fault (List PathPart) :=
  (splitPath url.path).mapM (pathPart disableIds)

end Rest
