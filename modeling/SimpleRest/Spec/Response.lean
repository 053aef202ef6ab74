import SimpleRest.Spec.Connection
import SimpleRest.Spec.Mime

/-!
# SimpleREST — responses (`response_header`, `response_code.hpp`, `response.cpp`, `connection.cpp`)

A `Response` gathers a header, and its sending functions hand the header and a body to the
connection, which writes both to its stream. The header entries are in a hash map; the order
in which it is walked is the parameter `order`.
-/

namespace Rest

open Cpp

/-! ## Status codes -/

/-- The cases of `translateResponseCode`. -/
def responseStrings : List (Int × String) := [
  (100, "Continue"), (101, "Switching Protocols"), (102, "Processing"), (200, "Ok"),
  (201, "Created"), (202, "Accepted"), (203, "Non-Authorative Information"), (204, "No Content"),
  (205, "Reset Content"), (206, "Partial Content"), (207, "Multi-Status"),
  (208, "Already Reported"), (226, "Im Used"), (300, "Multiple Choices"),
  (301, "Moved Permanently"), (302, "Found"), (303, "See Other"), (304, "Not Modified"),
  (305, "Use Proxy"), (306, "Switch Proxy"), (307, "Temporary Redirect"),
  (308, "Permanent Redirect"), (400, "Bad Request"), (401, "Unauthorized"),
  (402, "Payment Required"), (403, "Forbidden"), (404, "Not Found"), (405, "Method Not Allowed"),
  (406, "Not Acceptable"), (407, "Proxy Authentication Required"), (408, "Request Timeout"),
  (409, "Conflict"), (410, "Gone"), (411, "Length Required"), (412, "Precondition Failed"),
  (413, "Payload Too Large"), (414, "Request-URI Too Long"), (415, "Unsupported Media Type"),
  (416, "Requst Range Not Satisfiable"), (417, "Exception Failed"), (418, "I'm a teapot"),
  (419, "Authentication Timeout"), (421, "Misdirect Request"), (422, "Unprocessable Entity"),
  (423, "Locked"), (424, "Failed Dependency"), (426, "Upgrade Required"),
  (428, "Precondition Required"), (429, "Too Many Requests"),
  (431, "Request Header Field Too Large"), (440, "Login Timeout"), (444, "No Response"),
  (449, "Retry With"), (450, "Blocked by Window Parental Controls"),
  (451, "Unavailable For Legal Reasons"), (494, "Request Header Too Large"), (495, "Cert Error"),
  (496, "No Cert"), (497, "HTTP to HTTPS"), (498, "Token expired/invalid"),
  (499, "Client Closed Request"), (500, "Internal Server Error"), (501, "Not Implemented"),
  (502, "Bad Gateway"), (503, "Service Unavailable"), (504, "Gateway Timeout"),
  (505, "HTTP Version Not Supported"), (507, "Insufficient Storage"), (508, "Loop Detected"),
  (509, "Bandwith Limit Exceeded"), (510, "Not Extended"),
  (511, "Network Authentiation Required"), (520, "Unknown Error")]

def translateResponseCode (statusCode : Int) : Str :=
  match responseStrings.find? (·.1 == statusCode) with
  | none => []
  | some entry => entry.2.toList

/-! ## The header -/

structure ResponseHeader where
  httpVersion : Str := "HTTP/1.1".toList
  responseCode : UInt16 := 200
  responseString : Str := "OK".toList
  responseHeaderPairs : UnorderedMap Str Str := ∅

/-- `std::to_string`, and `<<` of an unsigned number. -/
def toDecimal (n : Nat) : Str := Nat.toDigits 10 n

namespace ResponseHeader

/-- `key ": " value CRLF` -/
def entryLine (entry : Str × Str) : Str :=
  entry.1 ++ ": ".toList ++ entry.2 ++ "\r\n".toList

def toString (order : IterationOrder Str Str) (h : ResponseHeader) : Str :=
  h.httpVersion ++ " ".toList ++ toDecimal h.responseCode.toNat ++ " ".toList ++
    h.responseString ++ "\r\n".toList ++
    (order.list h.responseHeaderPairs).flatMap entryLine ++ "\r\n".toList

def isSet (h : ResponseHeader) (key : Str) : Bool := (h.responseHeaderPairs.lookup key).isSome

/-- `h[key] = value` -/
def set (h : ResponseHeader) (key value : Str) : ResponseHeader :=
  { h with responseHeaderPairs := h.responseHeaderPairs.insert key value }

end ResponseHeader

/-! ## Sending -/

namespace RestConnection

/-- `stream_ << text` -/
def put (c : RestConnection) (text : Str) : RestConnection :=
  { c with stream_ := c.stream_.put text }

/-- The header `sendString` makes of the one it is given. -/
def stringHeader (text : Str) (response : ResponseHeader) : ResponseHeader :=
  let response := response.set "Content-Length".toList (toDecimal text.length)
  if response.isSet "Content-Type".toList then response
  else response.set "Content-Type".toList "text/plain; charset=UTF-8".toList

def sendString (order : IterationOrder Str Str) (c : RestConnection) (text : Str)
    (response : ResponseHeader) : RestConnection :=
  let response := stringHeader text response
  let c := c.put (response.toString order)
  -- the length line above was not asked
  if response.responseCode ≠ 204 then c.put text else c

end RestConnection

/-- A `Response` without its pointer to the connection, which is passed on beside it. -/
structure Response where
  header_ : ResponseHeader := {}
  statusSet_ : Bool := false

namespace Response

/-- The MIME type is looked up, but what is entered is the argument. -/
def type (r : Response) (type : Str) : Response :=
  let mime := extensionToMimeType ('.' :: type)
  let _mime := if mime.isEmpty then type else mime
  { r with header_ := r.header_.set "Content-Type".toList type }

def setHeaderEntry (r : Response) (key value : Str) : Response :=
  { r with header_ := r.header_.set key value }

/-- The code is an `int`; the header keeps its lowest sixteen bits. -/
def status (r : Response) (code : Int) : Response :=
  { header_ :=
      { r.header_ with
        responseString := translateResponseCode code
        responseCode := UInt16.ofInt code }
    statusSet_ := true }

def redirect (r : Response) (path : Str) : Response :=
  let r := r.setHeaderEntry "Location".toList path
  if !r.statusSet_ then r.status 302 else r

def send (order : IterationOrder Str Str) (r : Response) (message : Str) (c : RestConnection) :
    RestConnection :=
  c.sendString order message r.header_

/-- The text is the reason phrase that `status` has just set. -/
def sendStatus (order : IterationOrder Str Str) (r : Response) (code : Int) (c : RestConnection) :
    Response × RestConnection :=
  let r := r.status code
  (r, r.send order r.header_.responseString c)

def «end» (order : IterationOrder Str Str) (r : Response) (c : RestConnection) : RestConnection :=
  r.send order [] c

end Response

end Rest
