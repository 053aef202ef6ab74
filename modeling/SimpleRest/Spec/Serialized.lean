import SimpleRest.Spec.Response

/-!
# SimpleREST — sending an object (`connection.hpp`, `response.hpp`)

The templates that send an object as JSON or as XML. The libraries that make a text of an object are
not in the repository, so what they write is a parameter, for objects of any type `α`.
-/

namespace Rest

open Cpp

variable {α : Type}

/-- What `JSON::try_stringify` and `SXML::xmlify` write for an object of this name. -/
structure Serializers (α : Type) where
  try_stringify : Str → α → Str
  xmlify : Str → α → Str

namespace RestConnection

/-- The header either function makes of the one it is given. -/
def objectHeader (type body : Str) (response : ResponseHeader) : ResponseHeader :=
  let response := response.set "Content-Type".toList type
  let response := response.set "Content-Length".toList (toDecimal body.length)
  response.set "Connection".toList "close".toList

/-- The text of an object is put between braces, whatever it is. -/
def jsonBody (serializers : Serializers α) (object : α) : Str :=
  "\x7b".toList ++ serializers.try_stringify [] object ++ "\x7d".toList

def xmlBody (serializers : Serializers α) (object : α) (name : Str) : Str :=
  "<?xml version=\"1.0\" encoding=\"UTF-8\" standalone=\"yes\"?>".toList ++
    serializers.xmlify name object

/-- Other than `sendString` it does not look at the code. -/
def sendJson (order : IterationOrder Str Str) (serializers : Serializers α) (c : RestConnection)
    (object : α) (response : ResponseHeader) : RestConnection :=
  let body := jsonBody serializers object
  let response := objectHeader "text/json; charset=UTF-8".toList body response
  (c.put (response.toString order)).put body

def sendXml (order : IterationOrder Str Str) (serializers : Serializers α) (c : RestConnection)
    (object : α) (name : Str) (response : ResponseHeader) : RestConnection :=
  let body := xmlBody serializers object name
  let response := objectHeader "text/xml; charset=UTF-8".toList body response
  (c.put (response.toString order)).put body

end RestConnection

namespace Response

def json (order : IterationOrder Str Str) (serializers : Serializers α) (r : Response) (obj : α)
    (c : RestConnection) : RestConnection :=
  c.sendJson order serializers obj r.header_

def xml (order : IterationOrder Str Str) (serializers : Serializers α) (r : Response) (obj : α)
    (rootName : Str) (c : RestConnection) : RestConnection :=
  c.sendXml order serializers obj rootName r.header_

end Response

end Rest
