import SimpleRest.Cpp.File
import SimpleRest.Spec.Response
import SimpleRest.Spec.Url

/-!
# SimpleREST — sending a file (`connection.cpp`, `response.cpp`)

The files are a parameter: for every name the content of the file, if it can be opened for
reading. A file does not change while it is sent.
-/

namespace Rest

open Cpp

/-- The files that can be opened, by their names. -/
abbrev Files := Str → Option Str

/-- The count in the first `substr` is taken from the length of `extension`, which is still empty:
it is `-slpos` on `size_type`, nothing for a separator in front and more than the rest otherwise. -/
def extractFileExtension (fileName : Str) : Except Fault Str :=
  let extension : Str := []
  let slpos := rfind fileName '/'
  let slpos := if slpos = none then rfind fileName '\\' else slpos
  match slpos with
  | none => .ok []
  | some slpos =>
    match substr fileName slpos (some (sizeSub extension.length slpos)) with
    | .error fault => .error fault
    | .ok extension =>
      match find extension '.' with
      | none => .ok []
      | some dotpos => substr extension dotpos (some (sizeSub extension.length dotpos))

/-- `std::to_string` of a position in a file -/
def toDecimalInt : Int → Str
  | .ofNat n => toDecimal n
  | .negSucc n => '-' :: toDecimal (n + 1)

namespace RestConnection

/-- The size of the buffer. -/
def blockSize : Nat := 65536

/-- The header `sendFile` makes of the one it is given, when the file has this extension (if it is
to be looked at) and this size. -/
def fileHeader (extension : Option Str) (size : Int) (response : ResponseHeader) :
    ResponseHeader :=
  let response := match extension with
    | none => response
    | some extension =>
      let type := extensionToMimeType extension
      if !type.isEmpty then response.set "Content-Type".toList type else response
  let response := response.set "Content-Length".toList (toDecimalInt size)
  if size = 0 then
    { response with responseCode := 204, responseString := "No Content".toList }
  else response

/-- The loop. A pass that is followed by another one has copied a whole block, so there are fewer
passes than whole blocks, and one. -/
def copyLoop : Nat → IFStream → RestConnection → RestConnection
  | 0, _, c => c
  | fuel + 1, reader, c =>
    let (reader, buffer) := reader.read blockSize
    let c := c.put (buffer.take reader.gcount)
    if reader.gcount = blockSize then copyLoop fuel reader c else c

/-- What is thrown is thrown in front of the first output. -/
def sendFile (order : IterationOrder Str Str) (files : Files) (c : RestConnection) (fileName : Str)
    (autoDetectContentType : Bool) (response : ResponseHeader) :
    RestConnection × Except Fault Unit :=
  let reader := IFStream.open (files fileName)
  if !reader.good then (c, .error (.runtimeError "Could not open file.".toList))
  else
    let reader := reader.seekgEnd
    let size := reader.tellg
    let reader := reader.seekgBeg
    let extension : Except Fault (Option Str) :=
      if autoDetectContentType then (extractFileExtension fileName).map some else .ok none
    match extension with
    | .error fault => (c, .error fault)
    | .ok extension =>
      let response := fileHeader extension size response
      let c := c.put (response.toString order)
      if size = 0 then (c, .ok ())
      else (copyLoop (reader.content.length / blockSize + 1) reader c, .ok ())

end RestConnection

namespace Response

def sendFile (order : IterationOrder Str Str) (files : Files) (r : Response) (fileName : Str)
    (autoDetectContentType : Bool) (c : RestConnection) : RestConnection × Except Fault Unit :=
  c.sendFile order files fileName autoDetectContentType r.header_

end Response

end Rest
