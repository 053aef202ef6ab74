import SimpleRest.Cpp.Regex
import SimpleRest.Spec.Url

/-!
# SimpleREST — the target parser (`url_parser.cpp`)

The two regular expressions are written out group by group as they stand in the source.
`regex_match` gives the sub-matches of groups `1 .. n`, the empty string for a group that
took no part. What an implementation of `std::regex` has in stack and time is left out: a target
so long that it exhausts the one or is given up for the other is parsed here like any other.
-/

namespace Rest.ReducedUrlParser

open Cpp

/-! ## The expressions -/

def chr (c : Char) : Regex Char := .set (· == c)

/-- A bracket expression that lists its characters. -/
def oneOf (cs : String) : Regex Char := .set (cs.toList.contains ·)

/-- `\w` in the "C" locale. -/
def wordChar (c : Char) : Bool := c.isAlphanum || c == '_'

/-- `[\w-]` -/
def valueChar (c : Char) : Bool := wordChar c || c == '-'

/-- `[a-zA-Z0-9]|[-_~!$&']|[()]|[*+,;=:@]` -/
def pathChar : Regex Char :=
  .alt (.set Char.isAlphanum) (.alt (oneOf "-_~!$&'") (.alt (oneOf "()") (oneOf "*+,;=:@")))

/-- `\w|\d|=|\(|\)|\\|\/|:|,|&|\?` -/
def fragmentChar : Regex Char :=
  .alt (.set wordChar) (.alt (.set Char.isDigit) (.alt (chr '=') (.alt (chr '(') (.alt (chr ')')
    (.alt (chr '\\') (.alt (chr '/') (.alt (chr ':') (.alt (chr ',') (.alt (chr '&')
      (chr '?'))))))))))

/-- `\w+=(?:[\w-])+` -/
def pair : Regex Char :=
  .seq (.plus (.set wordChar)) (.seq (chr '=') (.plus (.set valueChar)))

/-- `(?:&|;)` -/
def separator : Regex Char := .alt (chr '&') (chr ';')

/-- `\/(?:(?:pathChar)+(?:\/(?:pathChar)+)*)?`, group 1 -/
def pathGroup : Regex Char :=
  .seq (chr '/') (.opt (.seq (.plus pathChar) (.star (.seq (chr '/') (.plus pathChar)))))

/-- `\?pair((?:&|;)pair)*`, group 2 -/
def queryGroup : Regex Char :=
  .seq (chr '?') (.seq pair (.star (.seq separator pair)))

/-- `#(?:fragmentChar)+`, group 3 -/
def fragmentGroup : Regex Char := .seq (chr '#') (.plus fragmentChar)

/-- The expression of `parse`: `(?:(group 1)|\/)?(?:(group 2))?(?:(group 3))?` -/
def urlRegex : Regex Char :=
  .seq (.opt (.alt (.group 1 pathGroup) (chr '/')))
    (.seq (.opt (.group 2 queryGroup)) (.opt (.group 3 fragmentGroup)))

/-- The expression of `parseQuery`: `(pair)(?:(?:&|;)(pair))*` -/
def queryRegex : Regex Char :=
  .seq (.group 1 pair) (.star (.seq separator (.group 2 pair)))

/-- `std::regex_match` with an expression of `groups` groups: the sub-matches after the
whole match. -/
def regexMatch (groups : Nat) (r : Regex Char) (s : Str) : Option (List Str) :=
  (r.fullMatch s fun _ => none).map fun c =>
    (List.range groups).map fun i => (c (i + 1)).getD []

/-! ## The parser -/

/-- The body of the loop of `parseQuery`. -/
def addQuery (url : Url) (i : Str) : Except Fault Url := do
  let pos := find i '='
  -- what stands behind the `=` is used as the key; `npos + 1` is `0`
  let key ← substr i pos.succ none
  let value ← substr i 0 pos
  return { url with query := url.query.insert key value }

def parseQuery (query : Str) (url : Url) : Except Fault Url :=
  match regexMatch 2 queryRegex query with
  | some subMatches => subMatches.foldlM addQuery url
  | none => return url

/-- What the loop of `parse` does with a sub-match: the branch that its first character
selects, and the string the branch works on. -/
inductive SubMatch where
  | path (str : Str)
  | query (str : Str)
  | fragment (str : Str)
  | unused
  deriving DecidableEq, Repr

def classify (str : Str) : Except Fault SubMatch :=
  if front str == '/' then return .path str
  else if front str == '?' then return .query (← substr str 1 (some (str.length - 1)))
  else if front str == '#' then return .fragment (← substr str 1 (some (str.length - 1)))
  else return .unused

def SubMatch.store (url : Url) : SubMatch → Except Fault Url
  | path str => return { url with path := str }
  | query str => parseQuery str url
  | fragment str => return { url with fragment := str }
  | unused => return url

/-- `ReducedUrlParser::parse` -/
def parse (urlString : Str) : Except Fault Url :=
  match regexMatch 3 urlRegex urlString with
  | some subMatches =>
    subMatches.foldlM (fun url str => do (← classify str).store url) { url := urlString }
  | none => throw (.invalidArgument "Not a valid sub url".toList)

/-- The strings on which `parse` runs `parseQuery`, in order. -/
def parseQueryRuns (urlString : Str) : List Str :=
  ((regexMatch 3 urlRegex urlString).getD []).filterMap fun str =>
    match classify str with
    | .ok (.query q) => some q
    | _ => none

end Rest.ReducedUrlParser
