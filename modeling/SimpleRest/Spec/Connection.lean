import SimpleRest.Cpp.Stream
import SimpleRest.Spec.Url

/-!
# SimpleREST — the request head (`connection.cpp`, `request_header.hpp`, `request.cpp`)

A `RestConnection` is its id, its stream and the request header read so far. `readHead`
extracts the three words of the request line, checks the version, throws the rest of that
line away and reads header lines up to one that is a lone CR, or up to the end of the stream.
It changes the connection also when it throws: what was read is gone from the stream, and the
state of the stream decides later what can still be written to it.
-/

namespace Rest

open Cpp

/-- `UserId`: nothing but a number. -/
abbrev UserId := UInt64

structure RequestHeader where
  requestType : Str := []
  httpVersion : Str := []
  url : Str := []
  entries : UnorderedMap Str Str := ∅

structure RestConnection where
  id_ : UserId
  stream_ : IOStream
  request_ : RequestHeader := {}

namespace RestConnection

/-- A connection that has just been accepted, whose peer sends `s` and then closes or fails. -/
def accepted (id : UserId) (s : Str) : RestConnection :=
  { id_ := id, stream_ := { toIStream := .of s } }

/-- The two checks on the request line; `failed` is `!stream_`. -/
def checkVersion (failed : Bool) (httpVersion : Str) : Except Fault Unit :=
  if failed then
    .error (.invalidRequest "Request does not contain a valid HTTP request header.".toList)
  else do
    -- a shorter word gives a shorter piece: `substr` cuts its count, and throws for its position
    let protocol ← substr httpVersion 0 (some 5)
    if protocol ≠ "HTTP/".toList then
      .error (.invalidRequest "Request does not contain a valid HTTP request header.".toList)
    else do
      let version ← substr httpVersion 5 (some (httpVersion.length - 5))
      if version ≠ "1.0".toList ∧ version ≠ "1.1".toList then
        .error (.invalidRequest "HTTP version is not supported".toList)
      else .ok ()

/-- The loop over the header lines. Every pass takes at least one character off the stream, so
one unit of fuel more than there are characters is never used up. -/
def readEntries : Nat → IStream → Str → UnorderedMap Str Str →
    IStream × UnorderedMap Str Str × Except Fault Unit
  | 0, stream, _, entries => (stream, entries, .ok ())
  | fuel + 1, stream, headerLine, entries =>
    let (stream, headerLine) := stream.getline headerLine
    -- no line came: the loop ends as it does behind a complete head
    if stream.fail then (stream, entries, .ok ())
    else if headerLine = "\r".toList then (stream, entries, .ok ())
    else
      match find headerLine ':' with
      | none =>
        (stream, entries, .error (.invalidRequest "HTTP header entry does not contain colon".toList))
      | some pos =>
        match substr headerLine 0 (some pos),
            substr headerLine (pos + 1) (some (headerLine.length - pos)) with
        -- a name that comes again gets the new text
        | .ok lhs, .ok rhs => readEntries fuel stream headerLine (entries.insert lhs rhs)
        | .error fault, _ => (stream, entries, .error fault)
        | _, .error fault => (stream, entries, .error fault)

/-- The rest of the request line is read and dropped, then come the header lines. -/
def readHeaderLines (stream : IStream) (entries : UnorderedMap Str Str) :
    IStream × UnorderedMap Str Str × Except Fault Unit :=
  let (stream, headerLine) := stream.getline []
  readEntries (stream.rest.length + 1) stream headerLine entries

/-- The connection behind some reading. -/
def afterReading (c : RestConnection) (stream : IStream) (request : RequestHeader) : RestConnection :=
  { c with stream_ := { c.stream_ with toIStream := stream }, request_ := request }

/-- The connection as `readHead` leaves it, and how it ends. -/
def readHead (c : RestConnection) : RestConnection × Except Fault Unit :=
  let (stream, requestType) := c.stream_.toIStream.extract c.request_.requestType
  let (stream, url) := stream.extract c.request_.url
  let (stream, httpVersion) := stream.extract c.request_.httpVersion
  match checkVersion stream.fail httpVersion with
  | .error fault =>
    (c.afterReading stream { requestType, url, httpVersion, entries := c.request_.entries }, .error fault)
  | .ok () =>
    let (stream, entries, result) := readHeaderLines stream c.request_.entries
    (c.afterReading stream { requestType, url, httpVersion, entries }, result)

end RestConnection

/-- What a callback gets to know of its request. -/
structure Request where
  connection_ : RestConnection
  parameters_ : UnorderedMap Str Str
  url_ : Url

namespace Request

/-- `getParameter` (and its shorthand `param`). -/
def getParameter (r : Request) (id : Str) : Str := r.parameters_.index id []

/-- `getHeaderField`: reads a copy of the header, where a missing key reads as empty. -/
def getHeaderField (r : Request) (key : Str) : Str :=
  r.connection_.request_.entries.index key []

def getQuery (r : Request) : UnorderedMap Str Str := r.url_.query

def getPath (r : Request) : Str := r.url_.path

/-- The target as it has been sent. -/
def getUrl (r : Request) : Str := r.connection_.request_.url

def getType (r : Request) : Str := r.connection_.request_.requestType

end Request

end Rest
