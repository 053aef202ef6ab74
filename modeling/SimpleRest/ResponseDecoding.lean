import SimpleRest.Lib.Cut
import SimpleRest.ResponseFraming

/-!
# SimpleREST — reading a response head back

The other end of `toString`: what a client makes of a head by the rules of HTTP. The status line
ends at the first CR LF and is cut at its first two blanks; the lines behind it, up to the first
empty one, are cut at their first `": "`; the rest is the body.

- `decode_toString`: the client gets back the header and the body, whatever order the map was
  walked in;
- `toString_recovered`: so two heads with their bodies look the same only if they are.
-/

namespace Rest

open Cpp Cut

/-! ## The client -/

/-- The code of a status line, in decimal. -/
def decodeCode (s : Str) : Option UInt16 :=
  if s ≠ [] ∧ s.all Char.isDigit ∧ Nat.ofDigitChars 10 s 0 < 2 ^ 16 then
    some (UInt16.ofNat (Nat.ofDigitChars 10 s 0))
  else none

/-- Version, code and phrase. The phrase may have blanks of its own. -/
def decodeStatusLine (line : Str) : Option (Str × UInt16 × Str) := do
  let (version, rest) ← cut " ".toList line
  let (code, phrase) ← cut " ".toList rest
  let code ← decodeCode code
  some (version, code, phrase)

def decodeEntry (line : Str) : Option (Str × Str) := cut ": ".toList line

/-- The header, and the body behind it. -/
def decode (sent : Str) : Option (ResponseHeader × Str) := do
  let (line, rest) ← cut "\r\n".toList sent
  let (version, code, phrase) ← decodeStatusLine line
  let (lines, body) ← cutLines "\r\n".toList rest
  let entries ← lines.mapM decodeEntry
  let header : ResponseHeader :=
    { httpVersion := version
      responseCode := code
      responseString := phrase
      responseHeaderPairs := UnorderedMap.insertAll ∅ entries }
  some (header, body)

/-! ## What it gets back -/

/-- A header whose parts keep to their places: no line breaks, no blank in the version, and no
colon in a key. -/
structure Decodable (h : ResponseHeader) : Prop extends Clean h where
  noBlank : ' ' ∉ h.httpVersion
  noColon : ∀ k v, h.responseHeaderPairs.lookup k = some v → ':' ∉ k

theorem Decodable.set {h : ResponseHeader} (hh : Decodable h) {key value : Str} (hk : CrLfFree key)
    (hv : CrLfFree value) (hcolon : ':' ∉ key) : Decodable (h.set key value) where
  toClean := hh.toClean.set hk hv
  noBlank := hh.noBlank
  noColon := by
    intro k v hkv
    rw [set_lookup] at hkv
    split at hkv
    · next heq => exact heq ▸ hcolon
    · exact hh.noColon k v hkv

theorem decodable_fresh : Decodable ({} : Response).header_ where
  toClean := clean_fresh
  noBlank := by decide
  noColon := by
    intro k v hkv
    exact absurd hkv (by simp)

theorem decodable_status {r : Response} (hr : Decodable r.header_) (code : Int) :
    Decodable (r.status code).header_ where
  toClean := clean_status hr.toClean code
  noBlank := hr.noBlank
  noColon := hr.noColon

/-- What `sendString` enters keeps to its place too. -/
theorem decodable_stringHeader {h : ResponseHeader} (hh : Decodable h) (text : Str) :
    Decodable (RestConnection.stringHeader text h) := by
  have hlength : Decodable (h.set "Content-Length".toList (toDecimal text.length)) :=
    hh.set (by simp [CrLfFree]) (crLfFree_toDecimal _) (by decide)
  unfold RestConnection.stringHeader
  simp only
  split
  · exact hlength
  · exact hlength.set (by simp [CrLfFree]) (by simp [CrLfFree]) (by decide)

theorem decodeCode_toDecimal (code : UInt16) : decodeCode (toDecimal code.toNat) = some code := by
  have hdigits : (toDecimal code.toNat).all Char.isDigit = true :=
    List.all_eq_true.mpr (isDigit_toDecimal code.toNat)
  have hlt : code.toNat < 2 ^ 16 := code.toNat_lt
  unfold decodeCode
  rw [ofDigitChars_toDecimal, if_pos ⟨Nat.toDigits_ne_nil, hdigits, hlt⟩, UInt16.ofNat_toNat]

theorem decodeStatusLine_statusLine {h : ResponseHeader} (hblank : ' ' ∉ h.httpVersion) :
    decodeStatusLine (statusLine h) = some (h.httpVersion, h.responseCode, h.responseString) := by
  have hcode : ' ' ∉ toDecimal h.responseCode.toNat := notMem_toDecimal _ (by decide)
  have hline : statusLine h = h.httpVersion ++ (' ' :: [] ++
      (toDecimal h.responseCode.toNat ++ (' ' :: [] ++ h.responseString))) := by
    simp [statusLine]
  have hcut : cut " ".toList (statusLine h) = some (h.httpVersion,
      toDecimal h.responseCode.toNat ++ (' ' :: [] ++ h.responseString)) := by
    rw [hline]
    exact cut_append [] hblank _
  have hcut' : cut " ".toList (toDecimal h.responseCode.toNat ++ (' ' :: [] ++ h.responseString)) =
      some (toDecimal h.responseCode.toNat, h.responseString) := cut_append [] hcode _
  simp only [decodeStatusLine, hcut, hcut', decodeCode_toDecimal, Option.bind_eq_bind,
    Option.bind_some]

theorem decodeEntry_entryText {entry : Str × Str} (hcolon : ':' ∉ entry.1) :
    decodeEntry (entryText entry) = some entry := by
  have htext : entryText entry = entry.1 ++ (':' :: [' '] ++ entry.2) := by
    simp [entryText]
  rw [htext]
  exact cut_append [' '] hcolon _

theorem mapM_decodeEntry {entries : List (Str × Str)} (hcolon : ∀ e ∈ entries, ':' ∉ e.1) :
    (entries.map entryText).mapM decodeEntry = some entries := by
  induction entries with
  | nil => rfl
  | cons e entries ih =>
    have hentry := decodeEntry_entryText (hcolon e (by simp))
    have hrest := ih fun k hk => hcolon k (List.mem_cons_of_mem e hk)
    rw [List.map_cons, List.mapM_cons, hentry, hrest]
    rfl

/-- **A head is decoded to the header it was made of**, and the body is left as it is. -/
theorem decode_toString {h : ResponseHeader} (hh : Decodable h) (order : IterationOrder Str Str)
    (body : Str) : decode (h.toString order ++ body) = some (h, body) := by
  obtain ⟨hlines, hsent⟩ := toString_isMessage hh.toClean order body
  rw [crLfLines_cons] at hsent
  -- the status line, and what is behind it
  have hstatus : '\r' ∉ statusLine h := (hlines _ (by simp)).2.1
  have hcut := cut_append ['\n'] hstatus
    (crLfLines ((order.list h.responseHeaderPairs).map entryText) ++ ("\r\n".toList ++ body))
  -- the other lines, up to the empty one
  have hcutLines : cutLines "\r\n".toList
      (crLfLines ((order.list h.responseHeaderPairs).map entryText) ++ ("\r\n".toList ++ body)) =
        some ((order.list h.responseHeaderPairs).map entryText, body) := by
    refine cutLines_append ?_ body
    intro l hl
    have hline := hlines l (List.mem_cons_of_mem _ hl)
    exact ⟨hline.1, hline.2.1⟩
  have hentries : ((order.list h.responseHeaderPairs).map entryText).mapM decodeEntry =
      some (order.list h.responseHeaderPairs) := by
    apply mapM_decodeEntry
    intro e he
    exact hh.noColon e.1 e.2 ((order.mem_list _ _ _).mp he)
  have hcut : cut "\r\n".toList (h.toString order ++ body) = some (statusLine h,
      crLfLines ((order.list h.responseHeaderPairs).map entryText) ++ ("\r\n".toList ++ body)) := by
    rw [hsent]
    exact hcut
  simp only [decode, hcut, decodeStatusLine_statusLine hh.noBlank, hcutLines, hentries,
    order.insertAll_list, Option.bind_eq_bind, Option.bind_some]

/-- **The response head can be decoded back.** A header whose version has no blank, none of whose
keys has a colon and none of whose parts has a CR or LF is got back from what `toString` writes,
with the body behind it untouched; hence what is written tells such headers and their bodies apart,
whatever the orders in which their maps are walked. -/
theorem toString_recovered {h : ResponseHeader} (hh : Decodable h)
    (order : IterationOrder Str Str) (body : Str) :
    decode (h.toString order ++ body) = some (h, body) ∧
      ∀ (h' : ResponseHeader) (order' : IterationOrder Str Str) (body' : Str), Decodable h' →
        h.toString order ++ body = h'.toString order' ++ body' → h = h' ∧ body = body' := by
  have hdecode := decode_toString hh order body
  refine ⟨hdecode, ?_⟩
  intro h' order' body' hh' hsame
  rw [hsame, decode_toString hh' order' body'] at hdecode
  obtain ⟨hheader, hbody⟩ := Prod.mk.inj (Option.some.inj hdecode)
  exact ⟨hheader.symm, hbody.symm⟩

/-- A header without a phrase, whose one key is empty and whose value begins like the separator. -/
def bareHeader : ResponseHeader :=
  ({ responseString := [] } : ResponseHeader).set [] ": ".toList

theorem decodable_bareHeader : Decodable bareHeader := by
  have hpairs : ∀ k v, bareHeader.responseHeaderPairs.lookup k = some v →
      k = [] ∧ v = ": ".toList := by
    intro k v hkv
    unfold bareHeader at hkv
    rw [set_lookup] at hkv
    split at hkv
    · next hk => exact ⟨hk, (Option.some.inj hkv).symm⟩
    · cases hkv
  refine ⟨⟨?_, ?_, ?_⟩, ?_, ?_⟩
  · show CrLfFree "HTTP/1.1".toList
    simp [CrLfFree]
  · show CrLfFree []
    simp [CrLfFree]
  · intro k v hkv
    rw [(hpairs k v hkv).1, (hpairs k v hkv).2]
    simp [CrLfFree]
  · show ' ' ∉ "HTTP/1.1".toList
    decide
  · intro k v hkv
    rw [(hpairs k v hkv).1]
    exact List.not_mem_nil

/-- It is got back in front of a body that begins with an empty line. -/
theorem toString_recovered_bareHeader :
    decode (bareHeader.toString IterationOrder.arbitrary ++ "\r\nX: y".toList) =
      some (bareHeader, "\r\nX: y".toList) :=
  (toString_recovered decodable_bareHeader IterationOrder.arbitrary "\r\nX: y".toList).1

end Rest
