import SimpleRest.HeadParsing

/-!
# SimpleREST — the head of a well-formed request

A head a client sends, written out, and what `readHead` makes of it in front of any body:

- `readHead_render`: the connection `readHead` returns, for every head and every body;
- `readHead_frames`: read field by field, the request line as sent, one entry for every name
  with the text of its last line, and exactly the body left on the stream;
- `header_fields_survive_iff`: the text of a line still has the blank behind the colon and the
  CR in front of the newline, so `getHeaderField` gives back no value as it was sent.
-/

namespace Rest.RestConnection

open Cpp IStream

/-! ## Sending a head -/

/-- A field whose line splits at the right places: the name has no colon, and neither part
breaks the line. -/
def IsField (f : Str × Str) : Prop :=
  (':' ∉ f.1 ∧ '\r' ∉ f.1 ∧ '\n' ∉ f.1) ∧ ('\r' ∉ f.2 ∧ '\n' ∉ f.2)

/-- The line of a field up to its newline: `name ": " value CR`. -/
def fieldLine (f : Str × Str) : Str := f.1 ++ ": ".toList ++ f.2 ++ "\r".toList

/-- A head that a client can send. -/
structure SentHead where
  method : Str
  target : Str
  version : Str
  fields : List (Str × Str)
  method_word : IsWord method
  target_word : IsWord target
  version_known : IsVersion version
  isField : ∀ f ∈ fields, IsField f

/-- `method SP target SP version CRLF (name ": " value CRLF)* CRLF` -/
def SentHead.render (h : SentHead) : Str :=
  h.method ++ " ".toList ++ h.target ++ " ".toList ++ h.version ++ "\r\n".toList ++
    h.fields.flatMap (fun f => fieldLine f ++ "\n".toList) ++ "\r\n".toList

/-- What is bound to a name whose last line carried `value`. -/
def sentText (value : Str) : Str := ' ' :: value ++ ['\r']

theorem fieldLine_eq (f : Str × Str) : fieldLine f = f.1 ++ ':' :: sentText f.2 := by
  simp [fieldLine, sentText]

theorem fieldName_fieldLine {f : Str × Str} (h : IsField f) : fieldName (fieldLine f) = f.1 := by
  rw [fieldLine_eq, fieldName_append h.1.1]

theorem fieldText_fieldLine {f : Str × Str} (h : IsField f) :
    fieldText (fieldLine f) = sentText f.2 := by
  rw [fieldLine_eq, fieldText_append h.1.1]

theorem isHeaderLine_fieldLine {f : Str × Str} (h : IsField f) : IsHeaderLine (fieldLine f) := by
  obtain ⟨⟨_, _, hname⟩, _, hvalue⟩ := h
  rw [fieldLine_eq]
  refine ⟨?_, ?_⟩
  · simp [sentText, hname, hvalue]
  · simp

/-- The entries the lines of some fields make, as one assignment a field. -/
theorem entries_fieldLines {fields : List (Str × Str)} (h : ∀ f ∈ fields, IsField f) :
    (fields.map fieldLine).foldl enter ∅ =
      UnorderedMap.insertAll ∅ (fields.map fun f => (f.1, sentText f.2)) := by
  rw [UnorderedMap.insertAll, List.foldl_map, List.foldl_map]
  apply List.foldl_ext
  intro m f hf
  rw [enter, fieldName_fieldLine (h f hf), fieldText_fieldLine (h f hf)]

/-! ## Reading it -/

theorem atGap_of_cons {c : Char} (hc : isspace c = true) (s : Str) : AtGap (c :: s) := by
  intro x hx
  have hx : x = c := by simpa [eq_comm] using hx
  rw [hx]
  exact hc

theorem isBlank_space : IsBlank [' '] ∧ [' '] ≠ [] := by decide

theorem isWord_version {v : Str} (h : IsVersion v) : IsWord v := by
  rcases h with h | h
  · rw [h]; decide
  · rw [h]; decide

/-- The words of a sent head, and what stands behind its version in front of `body`. -/
def SentHead.words (h : SentHead) (body : Str) : Words where
  lead := []
  method := h.method
  gap₁ := [' ']
  target := h.target
  gap₂ := [' ']
  version := h.version
  after := '\r' :: '\n' :: (joinLines (h.fields.map fieldLine) ++ '\r' :: '\n' :: body)

theorem SentHead.startsWith (h : SentHead) (body : Str) :
    StartsWith (h.render ++ body) (h.words body) where
  eq := by simp [SentHead.render, SentHead.words, joinLines, List.flatMap_map]
  lead := by simp [SentHead.words, IsBlank]
  method := h.method_word
  gap₁ := isBlank_space
  target := h.target_word
  gap₂ := isBlank_space
  version := isWord_version h.version_known
  after := atGap_of_cons (by decide) _

theorem SentHead.completeAfter (h : SentHead) (body : Str) :
    CompleteAfter (h.words body).after (h.fields.map fieldLine) body := by
  refine ⟨_, ⟨['\r'], rfl, by decide⟩, ?_, rfl⟩
  intro l hl
  obtain ⟨f, hf, hfl⟩ := List.mem_map.mp hl
  rw [← hfl]
  exact isHeaderLine_fieldLine (h.isField f hf)

/-- The entries `readHead` makes of a sent head. -/
def SentHead.entries (h : SentHead) : UnorderedMap Str Str :=
  UnorderedMap.insertAll ∅ (h.fields.map fun f => (f.1, sentText f.2))

/-- **`readHead` on a sent head.** -/
theorem readHead_render (id : UserId) (h : SentHead) (body : Str) :
    (accepted id (h.render ++ body)).readHead =
      (⟨id, { toIStream := of body }, ⟨h.method, h.version, h.target, h.entries⟩⟩, .ok ()) := by
  rw [readHead_complete (h.startsWith body) h.version_known (h.completeAfter body),
    entries_fieldLines h.isField]
  rfl

theorem SentHead.mem_entries (h : SentHead) (name : Str) :
    name ∈ h.entries ↔ name ∈ h.fields.map Prod.fst := by
  rw [SentHead.entries, UnorderedMap.mem_insertAll, List.map_map]
  have hempty : name ∉ (∅ : UnorderedMap Str Str) := Finmap.notMem_empty
  simp [Function.comp_def, hempty]

/-- The last line that carries a name decides. -/
theorem SentHead.lookup_entries (h : SentHead) {before after : List (Str × Str)} {name value : Str}
    (hfields : h.fields = before ++ (name, value) :: after) (hlast : name ∉ after.map Prod.fst) :
    h.entries.lookup name = some (sentText value) := by
  rw [SentHead.entries, hfields, List.map_append, List.map_cons]
  apply UnorderedMap.lookup_insertAll_last
  simpa [List.map_map, Function.comp_def] using hlast

/-- **Head and body are framed.** The request line as it was sent, an entry for exactly the
names that were sent, bound to the text behind the first colon of the last line of that name
(a line goes up to its newline, so the text is a blank, the value and the CR), and exactly
the body left to read. -/
theorem readHead_frames (id : UserId) (h : SentHead) (body : Str) :
    ∃ c, (accepted id (h.render ++ body)).readHead = (c, .ok ()) ∧
      c.request_.requestType = h.method ∧ c.request_.url = h.target ∧
      c.request_.httpVersion = h.version ∧
      (∀ name, name ∈ c.request_.entries ↔ name ∈ h.fields.map Prod.fst) ∧
      (∀ before name value after, h.fields = before ++ (name, value) :: after →
        name ∉ after.map Prod.fst →
        c.request_.entries.lookup name = some (" ".toList ++ value ++ "\r".toList)) ∧
      c.stream_.toIStream = of body := by
  refine ⟨_, readHead_render id h body, rfl, rfl, rfl, h.mem_entries, ?_, rfl⟩
  intro before name value after hfields hlast
  exact h.lookup_entries hfields hlast

/-! ## What `getHeaderField` gives back -/

/-- A value without blanks at its ends. -/
def IsTrimmed (v : Str) : Prop :=
  v ≠ [] ∧ (∀ c ∈ v.head?, isspace c = false) ∧ ∀ c ∈ v.getLast?, isspace c = false

/-- After `readHead`, `getHeaderField` gives back every field that was sent, and nothing for
a name that was not. -/
def HeadersSurvive (id : UserId) (h : SentHead) (body : Str) : Prop :=
  ∃ c, (accepted id (h.render ++ body)).readHead = (c, .ok ()) ∧
    ∀ r : Request, r.connection_ = c →
      (∀ f ∈ h.fields, r.getHeaderField f.1 = f.2) ∧
      ∀ name, name ∉ h.fields.map Prod.fst → r.getHeaderField name = []

/-- A name that was sent reads as its last value between a blank and a CR. -/
theorem getHeaderField_sent {id : UserId} {h : SentHead} {body : Str} {c : RestConnection}
    (hread : (accepted id (h.render ++ body)).readHead = (c, .ok ())) {r : Request}
    (hr : r.connection_ = c) {before after : List (Str × Str)} {name value : Str}
    (hfields : h.fields = before ++ (name, value) :: after) (hlast : name ∉ after.map Prod.fst) :
    r.getHeaderField name = sentText value := by
  rw [readHead_render] at hread
  rw [Request.getHeaderField, hr, ← (Prod.mk.inj hread).1, UnorderedMap.index,
    h.lookup_entries hfields hlast, Option.getD_some]

theorem getHeaderField_notSent {id : UserId} {h : SentHead} {body : Str} {c : RestConnection}
    (hread : (accepted id (h.render ++ body)).readHead = (c, .ok ())) {r : Request}
    (hr : r.connection_ = c) {name : Str} (hname : name ∉ h.fields.map Prod.fst) :
    r.getHeaderField name = [] := by
  have hlookup : h.entries.lookup name = none :=
    Finmap.lookup_eq_none.mpr fun hmem => hname ((h.mem_entries name).mp hmem)
  rw [readHead_render] at hread
  rw [Request.getHeaderField, hr, ← (Prod.mk.inj hread).1, UnorderedMap.index, hlookup,
    Option.getD_none]

theorem sentText_ne (v : Str) : sentText v ≠ v := by
  intro heq
  have hlen := congrArg List.length heq
  simp only [sentText, List.length_append, List.length_cons, List.length_nil] at hlen
  omega

/-- **The fields survive exactly when there are none**: each one that is sent comes back with
the blank in front and the CR behind it. Already the last line shows it, whatever its name. -/
theorem header_fields_survive_iff (id : UserId) (h : SentHead) (body : Str) :
    HeadersSurvive id h body ↔ h.fields = [] := by
  refine ⟨?_, ?_⟩
  · intro hsurvive
    obtain ⟨c, hread, hfields⟩ := hsurvive
    have hr := (hfields ⟨c, ∅, {}⟩ rfl).1
    -- no later line can overwrite the last one
    rcases List.eq_nil_or_concat h.fields with hnil | ⟨before, f, hlast⟩
    · exact hnil
    · rw [List.concat_eq_append] at hlast
      have hsent : Request.getHeaderField ⟨c, ∅, {}⟩ f.1 = sentText f.2 :=
        getHeaderField_sent hread rfl hlast (by simp)
      rw [hr f (by rw [hlast]; simp)] at hsent
      exact absurd hsent.symm (sentText_ne f.2)
  · intro hnil
    refine ⟨_, readHead_render id h body, ?_⟩
    intro r hr
    refine ⟨?_, ?_⟩
    · intro f hf
      rw [hnil] at hf
      exact absurd hf List.not_mem_nil
    · intro name hname
      exact getHeaderField_notSent (readHead_render id h body) hr hname

/-- `GET / HTTP/1.1` with the given fields. -/
def getRoot (fields : List (Str × Str)) (h : ∀ f ∈ fields, IsField f) : SentHead where
  method := "GET".toList
  target := "/".toList
  version := "HTTP/1.1".toList
  fields := fields
  method_word := by decide
  target_word := by decide
  version_known := Or.inr rfl
  isField := h

theorem isField_host : ∀ f ∈ [("Host".toList, "a".toList)], IsField f := by
  intro f hf
  rw [List.mem_singleton.mp hf]
  exact ⟨by decide, by decide⟩

/-- `Host: a` has a name of its own and a trimmed value, and reads as `" a\r"`. -/
theorem header_fields_survive_host :
    (∀ f ∈ [("Host".toList, "a".toList)], IsTrimmed f.2) ∧
      ¬ HeadersSurvive 1 (getRoot [("Host".toList, "a".toList)] isField_host) [] := by
  refine ⟨?_, ?_⟩
  · intro f hf
    rw [List.mem_singleton.mp hf]
    exact ⟨by decide, by simp [isspace], by simp [isspace]⟩
  · intro h
    obtain ⟨c, hread, hfields⟩ := h
    have hr := (hfields ⟨c, ∅, {}⟩ rfl).1 ("Host".toList, "a".toList) (by simp [getRoot])
    have hsplit : [("Host".toList, "a".toList)] =
        [] ++ ("Host".toList, "a".toList) :: ([] : List (Str × Str)) := rfl
    have hsent : Request.getHeaderField ⟨c, ∅, {}⟩ "Host".toList = sentText "a".toList :=
      getHeaderField_sent hread rfl hsplit (by simp)
    rw [hr] at hsent
    exact absurd hsent (by decide)

end Rest.RestConnection
