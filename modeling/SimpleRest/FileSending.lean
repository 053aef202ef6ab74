import SimpleRest.ResponseFraming
import SimpleRest.Spec.SendFile

/-!
# SimpleREST — what `sendFile` transmits

The size of a file is measured in front of the head, and its content is copied behind it by a loop
that knows nothing of the size: it goes on as long as a block is whole. So a file whose length is a
multiple of the block size takes one more pass, which reads nothing.

- `copyLoop_sent`: the loop copies what has not been read, from any position, by induction on the
  passes;
- `sendFile_eq`: what a call on a file that can be opened comes to;
- `sendFile_transmits`: the head, the content, and nothing at all when the file cannot be opened.
-/

namespace Rest

open Cpp

namespace RestConnection

/-! ## The loop -/

/-- A stream that is not good takes nothing. -/
theorem copyLoop_not_good : ∀ (fuel : Nat) (reader : IFStream) (c : RestConnection),
    c.stream_.good = false → (copyLoop fuel reader c).stream_.sent = c.stream_.sent ∧
      (copyLoop fuel reader c).stream_.good = false := by
  intro fuel
  induction fuel with
  | zero =>
    intro reader c hgood
    exact ⟨rfl, hgood⟩
  | succ fuel ih =>
    intro reader c hgood
    have hput := IOStream.put_not_good
      ((reader.read blockSize).2.take (reader.read blockSize).1.gcount) hgood
    simp only [copyLoop]
    split
    · obtain ⟨hsent, hbad⟩ := ih (reader.read blockSize).1
        (c.put ((reader.read blockSize).2.take (reader.read blockSize).1.gcount)) hput.2
      exact ⟨hsent.trans hput.1, hbad⟩
    · exact hput

theorem copyLoop_good : ∀ (fuel : Nat) (reader : IFStream) (c : RestConnection),
    c.stream_.good = true → (copyLoop fuel reader c).stream_.good = true := by
  intro fuel
  induction fuel with
  | zero =>
    intro reader c hgood
    exact hgood
  | succ fuel ih =>
    intro reader c hgood
    have hput := IOStream.put_good
      ((reader.read blockSize).2.take (reader.read blockSize).1.gcount) hgood
    simp only [copyLoop]
    split
    · exact ih _ _ hput.2
    · exact hput.2

/-- **What the loop copies.** Induction on the passes: a whole block leaves a reader that is good,
in front of the rest, and one pass less to make. -/
theorem copyLoop_sent : ∀ (fuel : Nat) (reader : IFStream) (c : RestConnection),
    reader.good = true → c.stream_.good = true → reader.rest.length < fuel * blockSize →
    (copyLoop fuel reader c).stream_.sent = c.stream_.sent ++ reader.rest := by
  intro fuel
  induction fuel with
  | zero =>
    intro reader c _ _ hfuel
    rw [Nat.zero_mul] at hfuel
    exact absurd hfuel (Nat.not_lt_zero _)
  | succ fuel ih =>
    intro reader c hreader hc hfuel
    simp only [copyLoop]
    by_cases hfull : blockSize ≤ reader.rest.length
    · obtain ⟨hgood, hrest, hgcount, hblock⟩ := IFStream.read_full hreader hfull
      have hput := IOStream.put_good (reader.rest.take blockSize) hc
      have hless : (reader.read blockSize).1.rest.length < fuel * blockSize := by
        rw [hrest, List.length_drop]
        rw [Nat.add_mul, Nat.one_mul] at hfuel
        omega
      rw [hgcount, if_pos rfl, hblock, List.take_take, Nat.min_self, ih _ _ hgood hput.2 hless]
      show (c.stream_.put (reader.rest.take blockSize)).sent ++ _ = _
      rw [hput.1, hrest, List.append_assoc, List.take_append_drop]
    · -- the last pass
      have hshort : reader.rest.length < blockSize := Nat.lt_of_not_le hfull
      obtain ⟨hgcount, hblock⟩ := IFStream.read_short hreader hshort
      rw [hgcount, if_neg (Nat.ne_of_lt hshort), hblock, List.take_length]
      exact (IOStream.put_good reader.rest hc).1

/-! ## The call -/

theorem substr_ok {s : Str} {pos : Nat} (h : pos ≤ s.length) (n : Pos) :
    ∃ t, substr s pos n = .ok t := by
  unfold substr substr?
  rw [if_pos h]
  cases n with
  | none => exact ⟨_, rfl⟩
  | some n => exact ⟨_, rfl⟩

/-- Both positions have been found, so neither `substr` throws. -/
theorem extractFileExtension_ok (fileName : Str) : ∃ e, extractFileExtension fileName = .ok e := by
  unfold extractFileExtension
  simp only
  split
  · exact ⟨_, rfl⟩
  · next slpos hslpos =>
    have hlt : slpos < fileName.length := by
      split at hslpos
      · exact rfind_lt hslpos
      · exact rfind_lt hslpos
    obtain ⟨extension, hextension⟩ :=
      substr_ok (Nat.le_of_lt hlt) (some (sizeSub ([] : Str).length slpos))
    rw [hextension]
    simp only
    split
    · exact ⟨_, rfl⟩
    · next dotpos hdotpos => exact substr_ok (Nat.le_of_lt (find_lt hdotpos)) _

/-- What `sendFile` looks for in the name. -/
def detected (autoDetectContentType : Bool) (fileName : Str) : Option Str :=
  if autoDetectContentType then (extractFileExtension fileName).toOption else none

/-- The header in front of a file that can be opened. -/
def headerOfFile (fileName content : Str) (autoDetectContentType : Bool)
    (response : ResponseHeader) : ResponseHeader :=
  fileHeader (detected autoDetectContentType fileName) content.length response

theorem sendFile_eq (order : IterationOrder Str Str) {files : Files} (c : RestConnection)
    {fileName content : Str} (hfile : files fileName = some content)
    (autoDetectContentType : Bool) (response : ResponseHeader) :
    c.sendFile order files fileName autoDetectContentType response =
      (if content = [] then
        c.put ((headerOfFile fileName content autoDetectContentType response).toString order)
      else copyLoop (content.length / blockSize + 1) { content }
        (c.put ((headerOfFile fileName content autoDetectContentType response).toString order)),
      .ok ()) := by
  have hextension : (if autoDetectContentType then (extractFileExtension fileName).map some
      else .ok none) = Except.ok (detected autoDetectContentType fileName) := by
    unfold detected
    cases autoDetectContentType with
    | false => rfl
    | true =>
      obtain ⟨e, he⟩ := extractFileExtension_ok fileName
      rw [he]
      rfl
  have hsize : ((content.length : Int) = 0) ↔ content = [] := by
    rw [Int.natCast_eq_zero, List.length_eq_zero_iff]
  unfold sendFile
  rw [hfile]
  simp only [hextension]
  show (if ((content.length : Int) = 0) then (_, Except.ok ()) else (_, Except.ok ())) = _
  simp only [hsize]
  split
  · rfl
  · rfl

theorem sendFile_none (order : IterationOrder Str Str) {files : Files} (c : RestConnection)
    {fileName : Str} (hfile : files fileName = none) (autoDetectContentType : Bool)
    (response : ResponseHeader) :
    c.sendFile order files fileName autoDetectContentType response =
      (c, .error (.runtimeError "Could not open file.".toList)) := by
  unfold sendFile
  rw [hfile]
  rfl

theorem blocks_suffice (n : Nat) : n < (n / blockSize + 1) * blockSize := by
  rw [Nat.add_mul, Nat.one_mul]
  exact Nat.lt_div_mul_add (by decide)

/-- What a call on a file that can be opened does to a stream that is good. -/
theorem sendFile_good (order : IterationOrder Str Str) {files : Files} {c : RestConnection}
    (hgood : c.stream_.good = true) {fileName content : Str}
    (hfile : files fileName = some content) (autoDetectContentType : Bool)
    (response : ResponseHeader) :
    (c.sendFile order files fileName autoDetectContentType response).1.stream_.sent =
        c.stream_.sent ++
          ((headerOfFile fileName content autoDetectContentType response).toString order ++
            content) ∧
      (c.sendFile order files fileName autoDetectContentType response).1.stream_.good = true := by
  have hput := IOStream.put_good
    ((headerOfFile fileName content autoDetectContentType response).toString order) hgood
  rw [sendFile_eq order c hfile]
  simp only
  split
  · next hempty =>
    rw [hempty, List.append_nil]
    rw [hempty] at hput
    exact hput
  · refine ⟨?_, copyLoop_good _ _ _ hput.2⟩
    rw [copyLoop_sent _ _ _ rfl hput.2 (blocks_suffice content.length)]
    show (c.stream_.put _).sent ++ content = _
    rw [hput.1, List.append_assoc]

theorem sendFile_not_good (order : IterationOrder Str Str) {files : Files} {c : RestConnection}
    (hgood : c.stream_.good = false) (fileName : Str) (autoDetectContentType : Bool)
    (response : ResponseHeader) :
    (c.sendFile order files fileName autoDetectContentType response).1.stream_.sent =
        c.stream_.sent ∧
      (c.sendFile order files fileName autoDetectContentType response).1.stream_.good = false := by
  cases hfile : files fileName with
  | none =>
    rw [sendFile_none order c hfile]
    exact ⟨rfl, hgood⟩
  | some content =>
    have hput := IOStream.put_not_good
      ((headerOfFile fileName content autoDetectContentType response).toString order) hgood
    rw [sendFile_eq order c hfile]
    simp only
    split
    · exact hput
    · obtain ⟨hsent, hbad⟩ := copyLoop_not_good (content.length / blockSize + 1) { content }
        (c.put ((headerOfFile fileName content autoDetectContentType response).toString order))
        hput.2
      exact ⟨hsent.trans hput.1, hbad⟩

/-! ## The head -/

/-- What a client finds in the head of a file of this content. -/
structure IsFileHeader (content : Str) (response h : ResponseHeader) : Prop where
  version : h.httpVersion = response.httpVersion
  length : h.responseHeaderPairs.lookup "Content-Length".toList = some (toDecimal content.length)
  empty : content = [] → h.responseCode = 204 ∧ h.responseString = "No Content".toList
  nonempty : content ≠ [] →
    h.responseCode = response.responseCode ∧ h.responseString = response.responseString
  others : ∀ k, k ≠ "Content-Length".toList → k ≠ "Content-Type".toList →
    h.responseHeaderPairs.lookup k = response.responseHeaderPairs.lookup k

/-- The header behind the detection of the type. -/
def typedHeader (extension : Option Str) (response : ResponseHeader) : ResponseHeader :=
  match extension with
  | none => response
  | some extension =>
    let type := extensionToMimeType extension
    if !type.isEmpty then response.set "Content-Type".toList type else response

theorem typedHeader_frame (extension : Option Str) (response : ResponseHeader) :
    (typedHeader extension response).httpVersion = response.httpVersion ∧
      (typedHeader extension response).responseCode = response.responseCode ∧
      (typedHeader extension response).responseString = response.responseString ∧
      ∀ k, k ≠ "Content-Type".toList →
        (typedHeader extension response).responseHeaderPairs.lookup k =
          response.responseHeaderPairs.lookup k := by
  unfold typedHeader
  split
  · exact ⟨rfl, rfl, rfl, fun _ _ => rfl⟩
  · simp only
    split
    · exact ⟨rfl, rfl, rfl, fun k hk => by rw [set_lookup, if_neg hk]⟩
    · exact ⟨rfl, rfl, rfl, fun _ _ => rfl⟩

theorem fileHeader_eq (extension : Option Str) (content : Str) (response : ResponseHeader) :
    fileHeader extension content.length response =
      if content = [] then
        { (typedHeader extension response).set "Content-Length".toList (toDecimal content.length)
            with responseCode := 204, responseString := "No Content".toList }
      else (typedHeader extension response).set "Content-Length".toList
        (toDecimal content.length) := by
  have hsize : ((content.length : Int) = 0) ↔ content = [] := by
    rw [Int.natCast_eq_zero, List.length_eq_zero_iff]
  unfold fileHeader
  simp only [hsize]
  rfl

theorem fileHeader_isFileHeader (extension : Option Str) (content : Str)
    (response : ResponseHeader) :
    IsFileHeader content response (fileHeader extension content.length response) := by
  obtain ⟨hversion, hcode, hstring, hothers⟩ := typedHeader_frame extension response
  have hlookup : ∀ k, ((typedHeader extension response).set "Content-Length".toList
      (toDecimal content.length)).responseHeaderPairs.lookup k =
        if k = "Content-Length".toList then some (toDecimal content.length)
        else (typedHeader extension response).responseHeaderPairs.lookup k :=
    fun k => set_lookup _ _ _ k
  rw [fileHeader_eq]
  split
  · next hempty =>
    refine ⟨hversion, ?_, fun _ => ⟨rfl, rfl⟩, fun h => absurd hempty h, fun k hk hk' => ?_⟩
    · exact (hlookup _).trans (if_pos rfl)
    · exact ((hlookup k).trans (if_neg hk)).trans (hothers k hk')
  · next hempty =>
    refine ⟨hversion, ?_, fun h => absurd h hempty, fun _ => ⟨hcode, hstring⟩, fun k hk hk' => ?_⟩
    · exact (hlookup _).trans (if_pos rfl)
    · exact ((hlookup k).trans (if_neg hk)).trans (hothers k hk')

/-- **`sendFile` transmits the file.** For a file that can be opened, of whatever length, the head
and behind it the content go to the stream, where the head has the length of the content, is a 204
for an empty one, and keeps what the caller has set but for the length and the type; a stream that
is not good takes nothing. For a file that cannot be opened the call throws, and the connection is
what it was. -/
theorem sendFile_transmits (order : IterationOrder Str Str) (files : Files) (c : RestConnection)
    (fileName : Str) (autoDetectContentType : Bool) (response : ResponseHeader) :
    (∀ content, files fileName = some content →
      ∃ h, IsFileHeader content response h ∧
        (c.sendFile order files fileName autoDetectContentType response).2 = .ok () ∧
        (c.sendFile order files fileName autoDetectContentType response).1.stream_.sent =
          c.stream_.sent ++ if c.stream_.good then h.toString order ++ content else []) ∧
    (files fileName = none →
      c.sendFile order files fileName autoDetectContentType response =
        (c, .error (.runtimeError "Could not open file.".toList))) := by
  refine ⟨fun content hfile => ?_, fun hfile => sendFile_none order c hfile _ _⟩
  refine ⟨headerOfFile fileName content autoDetectContentType response,
    fileHeader_isFileHeader _ _ _, by rw [sendFile_eq order c hfile], ?_⟩
  cases hgood : c.stream_.good with
  | true => exact (sendFile_good order hgood hfile _ _).1
  | false =>
    rw [(sendFile_not_good order hgood fileName _ _).1]
    exact (List.append_nil _).symm

/-! ## The two senders -/

/-- A response, as a client takes it apart. -/
structure Answer where
  header : ResponseHeader
  body : Str

/-- What is put on a stream. -/
def Answer.bytes (order : IterationOrder Str Str) (a : Answer) : Str :=
  a.header.toString order ++ a.body

/-- What `sendFile` answers with, without a look at the extension. -/
def fileAnswer (content : Str) (h : ResponseHeader) : Answer where
  header := fileHeader none content.length h
  body := content

/-- What `sendString` answers with. -/
def stringAnswer (text : Str) (h : ResponseHeader) : Answer where
  header := stringHeader text h
  body := if h.responseCode ≠ 204 then text else []

theorem written_sendFile (order : IterationOrder Str Str) {files : Files} {c : RestConnection}
    (hgood : c.stream_.good = true) {fileName content : Str}
    (hfile : files fileName = some content) (h : ResponseHeader) :
    written c (c.sendFile order files fileName false h).1 = (fileAnswer content h).bytes order := by
  unfold written
  rw [(sendFile_good order hgood hfile _ _).1, List.drop_left]
  rfl

/-- The two answer alike: the status lines and the bodies are the same, an empty content is a 204
without a body, and so is one for which the caller has set 204. -/
structure Agree (content : Str) (h : ResponseHeader) (file string : Answer) : Prop where
  statusLine : statusLine file.header = statusLine string.header
  body : file.body = string.body
  empty : content = [] → (file.header.responseCode = 204 ∧ file.body = []) ∧
    string.header.responseCode = 204 ∧ string.body = []
  withheld : h.responseCode = 204 → file.body = [] ∧ string.body = []

/-- Where the type is set, only one entry is made by either function, and it is the same. -/
theorem headerPairs_agree {content : Str} {h : ResponseHeader}
    (htype : h.isSet "Content-Type".toList = true) :
    (fileAnswer content h).header.responseHeaderPairs =
      (stringAnswer content h).header.responseHeaderPairs := by
  have hset : (h.set "Content-Length".toList (toDecimal content.length)).isSet
      "Content-Type".toList = true := by
    unfold ResponseHeader.isSet at htype ⊢
    rw [set_lookup, if_neg (by decide)]
    exact htype
  have hstring : stringHeader content h =
      h.set "Content-Length".toList (toDecimal content.length) := by
    unfold stringHeader
    simp only
    rw [if_pos hset]
  show (fileHeader none content.length h).responseHeaderPairs =
    (stringHeader content h).responseHeaderPairs
  rw [fileHeader_eq, hstring]
  split
  · rfl
  · rfl

/-- Where the two answer alike, by the content and the header of the caller. -/
theorem agree_iff (content : Str) (h : ResponseHeader) :
    Agree content h (fileAnswer content h) (stringAnswer content h) ↔
      (content = [] ∧ h.responseCode = 204 ∧ h.responseString = "No Content".toList) ∨
        (content ≠ [] ∧ h.responseCode ≠ 204) := by
  have hfile := fileHeader_isFileHeader none content h
  have hcode := stringHeader_responseCode content h
  obtain ⟨hversion, hstring⟩ := stringHeader_frame content h
  refine ⟨fun hagree => ?_, fun hcases => ?_⟩
  · have hline := statusLine_inj (hfile.version.trans hversion.symm) hagree.statusLine
    by_cases hempty : content = []
    · -- the file is a 204 whatever the caller has set
      obtain ⟨hcode204, hphrase⟩ := hfile.empty hempty
      refine Or.inl ⟨hempty, ?_, ?_⟩
      · rw [← hcode, ← hline.1]
        exact hcode204
      · rw [← hstring, ← hline.2]
        exact hphrase
    · -- the content of the file is not withheld
      exact Or.inr ⟨hempty, fun hcode204 => hempty (hagree.withheld hcode204).1⟩
  · rcases hcases with ⟨hempty, hcode204, hphrase⟩ | ⟨hcontent, hne⟩
    · obtain ⟨hfile204, hfilePhrase⟩ := hfile.empty hempty
      have hbody : (stringAnswer content h).body = [] := if_neg (not_not.mpr hcode204)
      refine ⟨?_, hempty.trans hbody.symm, fun _ => ?_, fun _ => ⟨hempty, hbody⟩⟩
      · show statusLine (fileHeader none content.length h) = statusLine (stringHeader content h)
        unfold statusLine
        rw [hfile.version, hfile204, hfilePhrase, hversion, hcode, hstring, hcode204, hphrase]
      · exact ⟨⟨hfile204, hempty⟩, hcode.trans hcode204, hbody⟩
    · obtain ⟨hfileCode, hfilePhrase⟩ := hfile.nonempty hcontent
      have hbody : (stringAnswer content h).body = content := if_pos hne
      refine ⟨?_, hbody.symm, fun h => absurd h hcontent, fun h => absurd h hne⟩
      show statusLine (fileHeader none content.length h) = statusLine (stringHeader content h)
      unfold statusLine
      rw [hfile.version, hfileCode, hfilePhrase, hversion, hcode, hstring]

/-- **When the two senders answer alike.** On a stream that is good, each puts its answer, and the
two have the same entries when the caller has set the type. The status lines and the bodies are the
same, and 204 is what it is said to be, if and only if the content is empty and the caller has set
204 with its phrase, or the content is not empty and the caller has not set 204. -/
theorem senders_agree_iff (order : IterationOrder Str Str) {files : Files} {c : RestConnection}
    (hgood : c.stream_.good = true) {fileName content : Str}
    (hfile : files fileName = some content) {h : ResponseHeader}
    (htype : h.isSet "Content-Type".toList = true) :
    written c (c.sendFile order files fileName false h).1 = (fileAnswer content h).bytes order ∧
      written c (c.sendString order content h) = (stringAnswer content h).bytes order ∧
      (fileAnswer content h).header.responseHeaderPairs =
        (stringAnswer content h).header.responseHeaderPairs ∧
      (Agree content h (fileAnswer content h) (stringAnswer content h) ↔
        (content = [] ∧ h.responseCode = 204 ∧ h.responseString = "No Content".toList) ∨
          (content ≠ [] ∧ h.responseCode ≠ 204)) := by
  exact ⟨written_sendFile order hgood hfile h, written_sendString order hgood content h,
    headerPairs_agree htype, agree_iff content h⟩

/-- A header of the caller that has a type. -/
def plainHeader : ResponseHeader :=
  ({} : ResponseHeader).set "Content-Type".toList "text/plain".toList

theorem isSet_plainHeader : plainHeader.isSet "Content-Type".toList = true := by
  unfold ResponseHeader.isSet plainHeader
  rw [set_lookup, if_pos rfl]
  rfl

/-- Every name opens a file of this content. -/
def sameFile (content : Str) : Files := fun _ => some content

theorem sameFile_opens (content fileName : Str) : sameFile content fileName = some content := rfl

/-- A text that is not empty, sent with 200. -/
theorem senders_agree_hello : Agree "hello".toList plainHeader
    (fileAnswer "hello".toList plainHeader) (stringAnswer "hello".toList plainHeader) := by
  have hopens := sameFile_opens "hello".toList "/hello.txt".toList
  refine ((senders_agree_iff IterationOrder.arbitrary (c := accepted 1 []) rfl hopens
    isSet_plainHeader).2.2.2).mpr ?_
  exact Or.inr ⟨by decide, by decide⟩

/-- The bytes of an answer begin with its status line. -/
theorem take_bytes {order : IterationOrder Str Str} {a : Answer} {n : Nat}
    (hn : n ≤ (statusLine a.header).length) :
    (a.bytes order).take n = (statusLine a.header).take n := by
  unfold Answer.bytes
  rw [toString_eq, List.append_assoc, List.take_append_of_le_length hn]

/-- The empty text is sent with the code of the caller, and the empty file with 204. -/
theorem senders_empty :
    (written (accepted 1 []) ((accepted 1 []).sendFile IterationOrder.arbitrary
      (sameFile []) "/empty".toList false plainHeader).1).take 12 = "HTTP/1.1 204".toList ∧
    (written (accepted 1 []) ((accepted 1 []).sendString IterationOrder.arbitrary []
      plainHeader)).take 12 = "HTTP/1.1 200".toList ∧
    ¬ ∀ (content : Str) (h : ResponseHeader), h.isSet "Content-Type".toList = true →
      Agree content h (fileAnswer content h) (stringAnswer content h) := by
  have hfile := fileHeader_isFileHeader none [] plainHeader
  have hfileLine : statusLine (fileAnswer [] plainHeader).header =
      "HTTP/1.1 204 No Content".toList := by
    show statusLine (fileHeader none ([] : Str).length plainHeader) = _
    unfold statusLine
    rw [hfile.version, (hfile.empty rfl).1, (hfile.empty rfl).2]
    decide
  have hstringLine : statusLine (stringAnswer [] plainHeader).header =
      "HTTP/1.1 200 OK".toList := by
    show statusLine (stringHeader [] plainHeader) = _
    unfold statusLine
    rw [stringHeader_responseCode, (stringHeader_frame [] plainHeader).1,
      (stringHeader_frame [] plainHeader).2]
    decide
  refine ⟨?_, ?_, fun hall => ?_⟩
  · rw [written_sendFile (c := accepted 1 []) _ rfl (sameFile_opens [] _)]
    rw [take_bytes (by rw [hfileLine]; decide), hfileLine]
    decide
  · rw [written_sendString (c := accepted 1 []) _ rfl]
    show ((stringAnswer [] plainHeader).bytes _).take 12 = _
    rw [take_bytes (by rw [hstringLine]; decide), hstringLine]
    decide
  · have hline := (hall [] plainHeader isSet_plainHeader).statusLine
    rw [hfileLine, hstringLine] at hline
    exact absurd hline (by decide)

end RestConnection

end Rest
