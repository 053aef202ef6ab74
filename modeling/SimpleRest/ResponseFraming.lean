import SimpleRest.Spec.Response

/-!
# SimpleREST — how responses are framed

What a client sees of a response: lines ended by CR LF up to an empty one, then a body, and
among the lines one that says how long the body is. The module follows a response from the
builder calls to the wire.

- `IsMessage.unique`: a text is a head and a body in at most one way;
- `toString_isMessage`: what `toString` writes in front of any body is such a head, as long as
  the parts it is made of have no CR and no LF (`Clean`, kept by every builder call);
- `contentLengths`: its only decimal `Content-Length` line is the one `sendString` enters;
- `response_framed_iff`: so the framing depends only on whether the body is written, and it is
  not when the code is 204.
-/

namespace Rest

open Cpp

/-! ## A head on the wire -/

def CrLfFree (s : Str) : Prop := '\r' ∉ s ∧ '\n' ∉ s

/-- Lines, each ended by CR LF. -/
def crLfLines (lines : List Str) : Str := lines.flatMap (· ++ "\r\n".toList)

/-- A line of a head: the empty line ends the head. -/
def IsLine (l : Str) : Prop := l ≠ [] ∧ CrLfFree l

/-- `sent` is a head of these lines, its empty line, and `body`. -/
def IsMessage (sent : Str) (lines : List Str) (body : Str) : Prop :=
  (∀ l ∈ lines, IsLine l) ∧ sent = crLfLines lines ++ ("\r\n".toList ++ body)

/-- The value of a line `Content-Length: n`, `n` in decimal. -/
def contentLengthOf (l : Str) : Option Nat :=
  if l.take 16 = "Content-Length: ".toList ∧ l.drop 16 ≠ [] ∧ (l.drop 16).all Char.isDigit then
    some (Nat.ofDigitChars 10 (l.drop 16) 0)
  else none

/-- **The framing of a response**: one head, a status line in front, and a body as long as the
one `Content-Length` line of the head says. -/
def Framed (sent : Str) : Prop :=
  ∃ statusLine fields body, IsMessage sent (statusLine :: fields) body ∧
    fields.filterMap contentLengthOf = [body.length]

theorem crLfLines_cons (l : Str) (lines : List Str) (s : Str) :
    crLfLines (l :: lines) ++ s = l ++ ('\r' :: '\n' :: (crLfLines lines ++ s)) := by
  simp [crLfLines]

/-- A text is a head and a body in at most one way. Induction on the lines: the first CR ends
the first line, and the head itself where that line is empty. -/
theorem IsMessage.unique : ∀ {lines lines' : List Str} {sent body body' : Str},
    IsMessage sent lines body → IsMessage sent lines' body' → lines = lines' ∧ body = body' := by
  intro lines
  induction lines with
  | nil =>
    intro lines' sent body body' h h'
    cases lines' with
    | nil =>
      have heq : "\r\n".toList ++ body = "\r\n".toList ++ body' := h.2.symm.trans h'.2
      exact ⟨rfl, List.append_cancel_left heq⟩
    | cons l lines' =>
      have hl := h'.1 l (by simp)
      have heq : ([] : Str) ++ ('\r' :: '\n' :: body) =
          l ++ ('\r' :: '\n' :: (crLfLines lines' ++ ("\r\n".toList ++ body'))) := by
        rw [← crLfLines_cons]
        exact h.2.symm.trans h'.2
      have hcut := cut_unique (p := (· != '\r')) heq (by simp) (by simp) (ne_of_notMem hl.2.1) (by simp)
      exact absurd hcut.1.symm hl.1
  | cons l lines ih =>
    intro lines' sent body body' h h'
    have hl := h.1 l (by simp)
    cases lines' with
    | nil =>
      have heq : l ++ ('\r' :: '\n' :: (crLfLines lines ++ ("\r\n".toList ++ body))) =
          ([] : Str) ++ ('\r' :: '\n' :: body') := by
        rw [← crLfLines_cons]
        exact h.2.symm.trans h'.2
      have hcut := cut_unique (p := (· != '\r')) heq (ne_of_notMem hl.2.1) (by simp) (by simp) (by simp)
      exact absurd hcut.1 hl.1
    | cons l' lines' =>
      have hl' := h'.1 l' (by simp)
      have heq : l ++ ('\r' :: '\n' :: (crLfLines lines ++ ("\r\n".toList ++ body))) =
          l' ++ ('\r' :: '\n' :: (crLfLines lines' ++ ("\r\n".toList ++ body'))) := by
        rw [← crLfLines_cons, ← crLfLines_cons]
        exact h.2.symm.trans h'.2
      have hcut := cut_unique (p := (· != '\r')) heq (ne_of_notMem hl.2.1) (by simp) (ne_of_notMem hl'.2.1) (by simp)
      have hrest : crLfLines lines ++ ("\r\n".toList ++ body) =
          crLfLines lines' ++ ("\r\n".toList ++ body') := by simpa using hcut.2
      have hlines := ih ⟨fun k hk => h.1 k (List.mem_cons_of_mem l hk), rfl⟩
        ⟨fun k hk => h'.1 k (List.mem_cons_of_mem l' hk), hrest⟩
      rw [hcut.1, hlines.1]
      exact ⟨rfl, hlines.2⟩

/-! ## What a response header writes -/

/-- No part of the header breaks a line. -/
structure Clean (h : ResponseHeader) : Prop where
  version : CrLfFree h.httpVersion
  string : CrLfFree h.responseString
  pairs : ∀ k v, h.responseHeaderPairs.lookup k = some v → CrLfFree k ∧ CrLfFree v

theorem CrLfFree.append {a b : Str} (ha : CrLfFree a) (hb : CrLfFree b) : CrLfFree (a ++ b) := by
  simp only [CrLfFree, List.mem_append, not_or]
  exact ⟨⟨ha.1, hb.1⟩, ha.2, hb.2⟩

theorem isDigit_toDecimal (n : Nat) : ∀ c ∈ toDecimal n, c.isDigit = true :=
  fun _ hc => Nat.isDigit_of_mem_toDigits (by decide) (by decide) hc

theorem notMem_toDecimal (n : Nat) {c : Char} (hc : c.isDigit = false) : c ∉ toDecimal n := by
  intro h
  rw [isDigit_toDecimal n c h] at hc
  cases hc

theorem crLfFree_toDecimal (n : Nat) : CrLfFree (toDecimal n) :=
  ⟨notMem_toDecimal n (by decide), notMem_toDecimal n (by decide)⟩

theorem ofDigitChars_toDecimal (n : Nat) : Nat.ofDigitChars 10 (toDecimal n) 0 = n := by
  simp [toDecimal]

/-- The lines of a header: its status line, and one line for every entry. -/
def statusLine (h : ResponseHeader) : Str :=
  h.httpVersion ++ " ".toList ++ toDecimal h.responseCode.toNat ++ " ".toList ++ h.responseString

def entryText (entry : Str × Str) : Str := entry.1 ++ ": ".toList ++ entry.2

theorem toString_eq (order : IterationOrder Str Str) (h : ResponseHeader) :
    h.toString order = statusLine h ++ ("\r\n".toList ++
      ((order.list h.responseHeaderPairs).flatMap ResponseHeader.entryLine ++ "\r\n".toList)) := by
  simp only [ResponseHeader.toString, statusLine, List.append_assoc]

/-- Behind one version, a status line is its code and its phrase. -/
theorem statusLine_inj {h h' : ResponseHeader} (hversion : h.httpVersion = h'.httpVersion)
    (hline : statusLine h = statusLine h') :
    h.responseCode = h'.responseCode ∧ h.responseString = h'.responseString := by
  have hblank : ∀ n, ∀ c ∈ toDecimal n, (c != ' ') = true :=
    fun n => ne_of_notMem (notMem_toDecimal n (by decide))
  unfold statusLine at hline
  rw [hversion] at hline
  simp only [List.append_assoc, List.append_cancel_left_eq] at hline
  have hcut := cut_unique (p := (· != ' ')) hline (hblank _) (by simp) (hblank _) (by simp)
  have hcode : h.responseCode.toNat = h'.responseCode.toNat := by
    rw [← ofDigitChars_toDecimal h.responseCode.toNat, hcut.1, ofDigitChars_toDecimal]
  exact ⟨UInt16.toNat_inj.mp hcode, List.append_cancel_left hcut.2⟩

theorem isLine_statusLine {h : ResponseHeader} (hclean : Clean h) : IsLine (statusLine h) := by
  refine ⟨?_, ?_⟩
  · simp [statusLine]
  · exact (((hclean.version.append (by simp [CrLfFree])).append (crLfFree_toDecimal _)).append
      (by simp [CrLfFree])).append hclean.string

theorem isLine_entryText {entry : Str × Str} (hk : CrLfFree entry.1) (hv : CrLfFree entry.2) :
    IsLine (entryText entry) := by
  refine ⟨?_, ?_⟩
  · simp [entryText]
  · exact (hk.append (by simp [CrLfFree])).append hv

/-- `toString` in front of a body is a head of the header's lines and that body. -/
theorem toString_isMessage {h : ResponseHeader} (hclean : Clean h) (order : IterationOrder Str Str)
    (body : Str) :
    IsMessage (h.toString order ++ body)
      (statusLine h :: (order.list h.responseHeaderPairs).map entryText) body := by
  refine ⟨?_, ?_⟩
  · intro l hl
    rcases List.mem_cons.mp hl with hl | hl
    · rw [hl]
      exact isLine_statusLine hclean
    · obtain ⟨entry, hentry, heq⟩ := List.mem_map.mp hl
      have hpair := hclean.pairs entry.1 entry.2 ((order.mem_list _ _ _).mp hentry)
      rw [← heq]
      exact isLine_entryText hpair.1 hpair.2
  · have hlines : crLfLines ((order.list h.responseHeaderPairs).map entryText) =
        (order.list h.responseHeaderPairs).flatMap ResponseHeader.entryLine := by
      rw [crLfLines, List.flatMap_map]
      rfl
    rw [crLfLines_cons, hlines, toString_eq]
    simp

/-! ## Its length line -/

/-- Only the entry of the key `Content-Length` makes a line that reads as a decimal length:
such a line has one colon, and that is the one behind the key. -/
theorem contentLengthOf_entryText_of_ne {entry : Str × Str} (h : entry.1 ≠ "Content-Length".toList) :
    contentLengthOf (entryText entry) = none := by
  unfold contentLengthOf
  rw [if_neg]
  intro hline
  obtain ⟨htake, _, hdigits⟩ := hline
  have hcolon : ':' ∉ (entryText entry).drop 16 := by
    intro hmem
    exact absurd (List.all_eq_true.mp hdigits ':' hmem) (by decide)
  have hsplit : entryText entry = "Content-Length: ".toList ++ (entryText entry).drop 16 := by
    rw [← htake, List.take_append_drop]
  -- digits have no colon, so the line has just the one of the key it begins with
  have hcount : (entryText entry).count ':' = 1 := by
    rw [hsplit, List.count_append, List.count_eq_zero.mpr hcolon]
    decide
  have hkey : ':' ∉ entry.1 := by
    intro hmem
    have hpos : 0 < entry.1.count ':' := List.count_pos_iff.mpr hmem
    have hmore : (entryText entry).count ':' = entry.1.count ':' + 1 + entry.2.count ':' := by
      simp [entryText, Nat.add_comm, Nat.add_left_comm]
    omega
  have heq : entry.1 ++ (":".toList ++ (" ".toList ++ entry.2)) =
      "Content-Length".toList ++ (": ".toList ++ (entryText entry).drop 16) := by
    have hentry : entryText entry = entry.1 ++ (":".toList ++ (" ".toList ++ entry.2)) := by
      simp [entryText]
    rw [← hentry, hsplit]
    simp
  exact h (cut_unique (p := (· != ':')) heq (ne_of_notMem hkey) (by simp)
    (ne_of_notMem (by decide)) (by simp)).1

theorem contentLengthOf_entryText (n : Nat) :
    contentLengthOf (entryText ("Content-Length".toList, toDecimal n)) = some n := by
  have htake : (entryText ("Content-Length".toList, toDecimal n)).take 16 =
      "Content-Length: ".toList := by
    simp [entryText]
  have hdrop : (entryText ("Content-Length".toList, toDecimal n)).drop 16 = toDecimal n := by
    simp [entryText]
  have hdigits : (toDecimal n).all Char.isDigit = true :=
    List.all_eq_true.mpr (isDigit_toDecimal n)
  unfold contentLengthOf
  rw [htake, hdrop, if_pos ⟨rfl, Nat.toDigits_ne_nil, hdigits⟩, ofDigitChars_toDecimal]

/-- A list of entries that lists each key once, and one of whose keys alone counts. -/
theorem filterMap_of_nodup {α β γ : Type} {f : α × β → Option γ} {entries : List (α × β)} {k : α}
    {v : β} {x : γ} (hnodup : (entries.map Prod.fst).Nodup) (hmem : (k, v) ∈ entries)
    (hf : f (k, v) = some x) (hother : ∀ e : α × β, e.1 ≠ k → f e = none) :
    entries.filterMap f = [x] := by
  -- in front of the entry and behind it no key is `k`
  obtain ⟨a, b, hab⟩ := List.append_of_mem hmem
  rw [hab, List.map_append, List.map_cons, List.nodup_append] at hnodup
  obtain ⟨_, hb, hdisjoint⟩ := hnodup
  have hnone : ∀ l : List (α × β), (∀ e ∈ l, e.1 ≠ k) → l.filterMap f = [] := by
    intro l hl
    rw [List.filterMap_eq_nil_iff]
    intro e he
    exact hother e (hl e he)
  have hbefore : ∀ e ∈ a, e.1 ≠ k := by
    intro e he
    exact hdisjoint _ (List.mem_map_of_mem he) _ (by simp)
  have hafter : ∀ e ∈ b, e.1 ≠ k := by
    intro e he heq
    have hk : e.1 ∈ b.map Prod.fst := List.mem_map_of_mem he
    rw [heq] at hk
    exact (List.nodup_cons.mp hb).1 hk
  rw [hab, List.filterMap_append, List.filterMap_cons_some hf, hnone a hbefore, hnone b hafter]
  rfl

theorem contentLengths {h : ResponseHeader} {n : Nat} (order : IterationOrder Str Str)
    (hlength : h.responseHeaderPairs.lookup "Content-Length".toList = some (toDecimal n)) :
    ((order.list h.responseHeaderPairs).map entryText).filterMap contentLengthOf = [n] := by
  rw [List.filterMap_map]
  exact filterMap_of_nodup (order.nodup_keys _) ((order.mem_list _ _ _).mpr hlength)
    (contentLengthOf_entryText n) fun e he => contentLengthOf_entryText_of_ne he

/-! ## `sendString` -/

open RestConnection

theorem set_lookup (h : ResponseHeader) (key value k : Str) :
    (h.set key value).responseHeaderPairs.lookup k =
      if k = key then some value else h.responseHeaderPairs.lookup k :=
  UnorderedMap.lookup_insert_eq _ _ _ _

theorem Clean.set {h : ResponseHeader} (hclean : Clean h) {key value : Str} (hk : CrLfFree key)
    (hv : CrLfFree value) : Clean (h.set key value) where
  version := hclean.version
  string := hclean.string
  pairs := by
    intro k v hkv
    rw [set_lookup] at hkv
    split at hkv
    · next heq => exact ⟨heq ▸ hk, Option.some.inj hkv ▸ hv⟩
    · exact hclean.pairs k v hkv

theorem clean_stringHeader {h : ResponseHeader} (hclean : Clean h) (text : Str) :
    Clean (stringHeader text h) := by
  have hlength : Clean (h.set "Content-Length".toList (toDecimal text.length)) :=
    hclean.set (by simp [CrLfFree]) (crLfFree_toDecimal _)
  unfold stringHeader
  simp only
  split
  · exact hlength
  · exact hlength.set (by simp [CrLfFree]) (by simp [CrLfFree])

theorem stringHeader_contentLength (text : Str) (h : ResponseHeader) :
    (stringHeader text h).responseHeaderPairs.lookup "Content-Length".toList =
      some (toDecimal text.length) := by
  unfold stringHeader
  simp only
  split
  · rw [set_lookup, if_pos rfl]
  · rw [set_lookup, if_neg (by decide), set_lookup, if_pos rfl]

theorem stringHeader_responseCode (text : Str) (h : ResponseHeader) :
    (stringHeader text h).responseCode = h.responseCode := by
  unfold stringHeader
  simp only
  split
  · rfl
  · rfl

theorem stringHeader_frame (text : Str) (h : ResponseHeader) :
    (stringHeader text h).httpVersion = h.httpVersion ∧
      (stringHeader text h).responseString = h.responseString := by
  unfold stringHeader
  simp only
  split
  · exact ⟨rfl, rfl⟩
  · exact ⟨rfl, rfl⟩

/-- All entries but two are the caller's. -/
theorem stringHeader_others (text : Str) (h : ResponseHeader) {k : Str}
    (hlength : k ≠ "Content-Length".toList) (htype : k ≠ "Content-Type".toList) :
    (stringHeader text h).responseHeaderPairs.lookup k = h.responseHeaderPairs.lookup k := by
  unfold stringHeader
  simp only
  split
  · rw [set_lookup, if_neg hlength]
  · rw [set_lookup, if_neg htype, set_lookup, if_neg hlength]

/-- What a call on `c` that left `c'` has put on the stream. -/
def written (c c' : RestConnection) : Str := c'.stream_.sent.drop c.stream_.sent.length

/-- What `sendString` does to a stream that is good. -/
theorem sendString_good (order : IterationOrder Str Str) {c : RestConnection}
    (hgood : c.stream_.good = true) (text : Str) (h : ResponseHeader) :
    (c.sendString order text h).stream_.sent = c.stream_.sent ++
        ((stringHeader text h).toString order ++ if h.responseCode ≠ 204 then text else []) ∧
      (c.sendString order text h).stream_.good = true := by
  have hhead := IOStream.put_good ((stringHeader text h).toString order) hgood
  have htext := IOStream.put_good text hhead.2
  unfold sendString
  simp only [stringHeader_responseCode, put]
  split
  · exact ⟨by rw [htext.1, hhead.1, List.append_assoc], htext.2⟩
  · exact ⟨by rw [hhead.1, List.append_nil], hhead.2⟩

/-- A stream that is not good takes nothing. -/
theorem sendString_not_good (order : IterationOrder Str Str) {c : RestConnection}
    (hgood : c.stream_.good = false) (text : Str) (h : ResponseHeader) :
    (c.sendString order text h).stream_.sent = c.stream_.sent ∧
      (c.sendString order text h).stream_.good = false := by
  have hhead := IOStream.put_not_good ((stringHeader text h).toString order) hgood
  have htext := IOStream.put_not_good text hhead.2
  unfold sendString
  simp only
  split
  · exact ⟨htext.1.trans hhead.1, htext.2⟩
  · exact hhead

theorem written_sendString (order : IterationOrder Str Str) {c : RestConnection}
    (hgood : c.stream_.good = true) (text : Str) (h : ResponseHeader) :
    written c (c.sendString order text h) =
      (stringHeader text h).toString order ++ if h.responseCode ≠ 204 then text else [] := by
  unfold written
  rw [(sendString_good order hgood text h).1, List.drop_left]

/-- **`sendString` frames a text exactly when it writes it**, or when there is nothing to write. -/
theorem sendString_framed_iff (order : IterationOrder Str Str) {c : RestConnection}
    (hgood : c.stream_.good = true) (text : Str) {h : ResponseHeader} (hclean : Clean h) :
    Framed (written c (c.sendString order text h)) ↔ h.responseCode ≠ 204 ∨ text = [] := by
  rw [written_sendString order hgood]
  have hmessage := toString_isMessage (clean_stringHeader hclean text) order
  have hlengths := contentLengths order (stringHeader_contentLength text h)
  refine ⟨?_, ?_⟩
  · intro hframed
    obtain ⟨line, fields, body, hsent, hfields⟩ := hframed
    by_cases hcode : h.responseCode = 204
    · -- the body is withheld, and the length line still counts the text
      right
      rw [if_neg (not_not.mpr hcode)] at hsent
      have hunique := hsent.unique (hmessage [])
      rw [(List.cons.inj hunique.1).2, hunique.2, hlengths] at hfields
      exact List.length_eq_zero_iff.mp (List.cons.inj hfields).1
    · exact Or.inl hcode
  · intro hcond
    -- either way the whole text is behind the head
    have hbody : (if h.responseCode ≠ 204 then text else []) = text := by
      split
      · rfl
      · next hcode =>
        rcases hcond with hcond | hcond
        · exact absurd hcond hcode
        · exact hcond.symm
    rw [hbody]
    exact ⟨_, _, text, hmessage text, hlengths⟩

/-! ## From the builder calls to the wire -/

/-- A call that fills the header. -/
inductive BuilderCall where
  | status (code : Int)
  | type (type : Str)
  | setHeaderEntry (key value : Str)

/-- A call that sends. -/
inductive SendCall where
  | send (message : Str)
  | sendStatus (code : Int)

def BuilderCall.apply (r : Response) : BuilderCall → Response
  | status code => r.status code
  | type t => r.type t
  | setHeaderEntry key value => r.setHeaderEntry key value

/-- The strings of the call break no line. -/
def BuilderCall.CrLfFree : BuilderCall → Prop
  | status _ => True
  | type t => Rest.CrLfFree t
  | setHeaderEntry key value => Rest.CrLfFree key ∧ Rest.CrLfFree value

/-- A fresh response after some builder calls. -/
def build (calls : List BuilderCall) : Response := calls.foldl BuilderCall.apply {}

def SendCall.run (order : IterationOrder Str Str) (r : Response) (c : RestConnection) :
    SendCall → RestConnection
  | send message => r.send order message c
  | sendStatus code => (r.sendStatus order code c).2

/-- The code in force after some builder calls: that of the last `status`, or 200. -/
def codeInForce (calls : List BuilderCall) : UInt16 :=
  calls.foldl (fun code call => match call with
    | .status code' => UInt16.ofInt code'
    | _ => code) 200

/-- The code a sending call sends. -/
def SendCall.code (calls : List BuilderCall) : SendCall → UInt16
  | send _ => codeInForce calls
  | sendStatus code => UInt16.ofInt code

/-- The text a sending call sends. -/
def SendCall.text : SendCall → Str
  | send message => message
  | sendStatus code => translateResponseCode code

def printable (s : Str) : Bool := s.all fun c => 32 ≤ c.toNat

theorem printable_cons {code : Int} {phrase : Str} {rows : List (Int × String)}
    (hphrase : printable phrase = true) (hrows : ∀ row ∈ rows, printable row.2.toList = true) :
    ∀ row ∈ (code, String.ofList phrase) :: rows, printable row.2.toList = true := by
  refine List.forall_mem_cons.mpr ⟨?_, hrows⟩
  simp only [String.toList_ofList, hphrase]

/-- Every reason phrase is printable. -/
theorem responseStrings_printable : ∀ row ∈ responseStrings, printable row.2.toList = true := by
  unfold responseStrings
  repeat apply printable_cons rfl
  exact List.forall_mem_nil _

theorem crLfFree_of_printable {s : Str} (h : printable s = true) : CrLfFree s := by
  rw [printable, List.all_eq_true] at h
  refine ⟨?_, ?_⟩
  · intro hmem
    exact absurd (h _ hmem) (by decide)
  · intro hmem
    exact absurd (h _ hmem) (by decide)

theorem crLfFree_translateResponseCode (code : Int) : CrLfFree (translateResponseCode code) := by
  unfold translateResponseCode
  split
  · simp [CrLfFree]
  · next entry hentry =>
    exact crLfFree_of_printable (responseStrings_printable entry (List.mem_of_find?_eq_some hentry))

theorem clean_status {r : Response} (h : Clean r.header_) (code : Int) :
    Clean (r.status code).header_ where
  version := h.version
  string := crLfFree_translateResponseCode code
  pairs := h.pairs

/-- Every builder call keeps the header clean. -/
theorem clean_apply {r : Response} (h : Clean r.header_) {call : BuilderCall}
    (hcall : call.CrLfFree) : Clean (call.apply r).header_ := by
  cases call with
  | status code => exact clean_status h code
  | type t => exact h.set (by simp [CrLfFree]) hcall
  | setHeaderEntry key value => exact h.set hcall.1 hcall.2

theorem clean_fresh : Clean ({} : Response).header_ where
  version := by simp [CrLfFree]
  string := by simp [CrLfFree]
  pairs := by
    intro k v hkv
    exact absurd hkv (by simp)

/-- And so does any number of them. -/
theorem clean_foldl {calls : List BuilderCall} {r : Response} (h : Clean r.header_)
    (hcalls : ∀ call ∈ calls, call.CrLfFree) : Clean (calls.foldl BuilderCall.apply r).header_ := by
  apply List.foldlRecOn (motive := fun r => Clean r.header_) calls BuilderCall.apply h
  intro r hr call hcall
  exact clean_apply hr (hcalls call hcall)

theorem responseCode_foldl (calls : List BuilderCall) (r : Response) :
    (calls.foldl BuilderCall.apply r).header_.responseCode =
      calls.foldl (fun code call => match call with
        | .status code' => UInt16.ofInt code'
        | _ => code) r.header_.responseCode := by
  apply List.foldl_rel (r := fun (r : Response) code => r.header_.responseCode = code) rfl
  intro call _ r code h
  cases call with
  | status code => rfl
  | type t => exact h
  | setHeaderEntry key value => exact h

/-- A stream that takes nothing has no head on it. -/
theorem not_framed_of_not_good (order : IterationOrder Str Str) {c : RestConnection}
    (hgood : c.stream_.good = false) (text : Str) (h : ResponseHeader) :
    ¬ Framed (written c (c.sendString order text h)) := by
  have hnothing : written c (c.sendString order text h) = [] := by
    unfold written
    rw [(sendString_not_good order hgood text h).1, List.drop_length]
  rw [hnothing]
  rintro ⟨line, fields, body, ⟨_, hsent⟩, _⟩
  exact absurd hsent (by simp)

/-- **A response is framed exactly when its code is not 204 or its text is empty**, on a stream that
is good and whatever the builder calls in front of the sending call were. -/
theorem response_framed_iff (order : IterationOrder Str Str) (calls : List BuilderCall)
    (last : SendCall) (c : RestConnection) (hcalls : ∀ call ∈ calls, call.CrLfFree) :
    Framed (written c (last.run order (build calls) c)) ↔
      c.stream_.good = true ∧ (last.code calls ≠ 204 ∨ last.text = []) := by
  have hclean : Clean (build calls).header_ := clean_foldl clean_fresh hcalls
  cases hgood : c.stream_.good with
  | true =>
    rw [and_iff_right rfl]
    cases last with
    | send message =>
      have hcode : (build calls).header_.responseCode = codeInForce calls :=
        responseCode_foldl calls {}
      show Framed (written c (c.sendString order message (build calls).header_)) ↔ _
      rw [sendString_framed_iff order hgood message hclean, hcode]
      rfl
    | sendStatus code =>
      exact sendString_framed_iff order hgood _ (clean_status hclean code)
  | false =>
    refine iff_of_false ?_ fun h => Bool.false_ne_true h.1
    cases last with
    | send message => exact not_framed_of_not_good order hgood message _
    | sendStatus code => exact not_framed_of_not_good order hgood _ _

/-- A length that the caller sets gives way to the one of the text. -/
theorem response_framed_setLength :
    Framed (written (accepted 1 [])
      ((SendCall.send "hello".toList).run IterationOrder.arbitrary
        (build [.setHeaderEntry "Content-Length".toList "7".toList]) (accepted 1 []))) := by
  refine (response_framed_iff IterationOrder.arbitrary
    [.setHeaderEntry "Content-Length".toList "7".toList] (.send "hello".toList) (accepted 1 [])
    ?_).mpr ⟨rfl, Or.inl (by decide)⟩
  intro call hcall
  rw [List.mem_singleton.mp hcall]
  exact ⟨by simp [CrLfFree], by simp [CrLfFree]⟩

/-- `sendStatus(204)` announces the ten bytes of `No Content` and sends none. -/
theorem sendStatus_noContent :
    ¬ Framed (written (accepted 1 [])
      ((SendCall.sendStatus 204).run IterationOrder.arbitrary (build []) (accepted 1 []))) := by
  intro h
  rcases (sendString_framed_iff IterationOrder.arbitrary (c := accepted 1 []) rfl _
    (clean_status clean_fresh 204)).mp h with hcode | htext
  · exact hcode (by decide)
  · exact absurd htext (by decide)

end Rest
