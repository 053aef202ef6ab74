import SimpleRest.Spec.Connection

/-!
# SimpleREST — what `readHead` accepts, and how it leaves the stream

The streams a peer can send, sorted by what `readHead` makes of them, as shapes of the text:
the three words of a request line (`StartsWith`), the rest of that line, then header lines.

- `EndsHead`: the head is complete. `readHead` returns and leaves exactly what lies behind it.
- `CutHead`: the stream breaks off where the reader does not mind. `readHead` returns, on a
  stream that is at its end.
- `GoesWrong`: the head has a fault in front of the end of the stream. `readHead` throws, and
  the stream can still be written to.
- `EndsEarly`: the stream breaks off before anything else can be said. `readHead` throws, on a
  stream that is at its end and takes no answer.

`readHead_cases` says that there is nothing else. That the four exclude each other needs no
argument of its own: each one fixes the result together with the state of the stream.
-/

namespace Rest.RestConnection

open Cpp IStream

/-! ## One pass of the header loop -/

def IsHeaderLine (l : Str) : Prop := '\n' ∉ l ∧ ':' ∈ l

/-- The line up to its first colon. -/
def fieldName (l : Str) : Str := l.takeWhile (· != ':')

/-- The line behind its first colon. -/
def fieldText (l : Str) : Str := (l.dropWhile (· != ':')).drop 1

/-- The entry a header line makes. -/
def enter (entries : UnorderedMap Str Str) (l : Str) : UnorderedMap Str Str :=
  entries.insert (fieldName l) (fieldText l)

/-- What is thrown back at a line without a colon. -/
def noColon : Fault := .invalidRequest "HTTP header entry does not contain colon".toList

theorem fieldName_append {a b : Str} (ha : ':' ∉ a) : fieldName (a ++ ':' :: b) = a :=
  takeWhile_stop (ne_of_notMem ha) (by simp)

theorem fieldText_append {a b : Str} (ha : ':' ∉ a) : fieldText (a ++ ':' :: b) = b := by
  rw [fieldText, dropWhile_stop (ne_of_notMem ha) (by simp)]
  rfl

/-- A delivered line with a colon makes an entry, and the loop goes on. -/
theorem readEntries_colon {stream stream' : IStream} {x l : Str} (n : Nat)
    (entries : UnorderedMap Str Str) (hline : stream.getline x = (stream', l))
    (hok : stream'.fail = false) (hl : ':' ∈ l) :
    readEntries (n + 1) stream x entries = readEntries n stream' l (enter entries l) := by
  obtain ⟨a, b, hab, ha⟩ := List.eq_append_cons_of_mem hl
  have hcr : l ≠ "\r".toList := by
    intro h
    rw [h] at hl
    exact absurd hl (by decide)
  have hpos : find l ':' = some a.length := by rw [hab, find_append ha]
  have hlhs : substr l 0 (some a.length) = .ok a := by
    rw [substr, hab, substr?_zero_length]
  have hrhs : substr l (a.length + 1) (some (l.length - a.length)) = .ok b := by
    have htail := substr?_tail (a := a ++ [':']) (b := b) (n := l.length - a.length)
      (by simp [hab])
    have hl' : l = (a ++ [':']) ++ b := by simp [hab]
    rw [substr, show a.length + 1 = (a ++ [':']).length from by simp]
    rw [← hl'] at htail
    rw [htail]
  simp only [readEntries, hline, hok, Bool.false_eq_true, if_false, if_neg hcr, hpos, hlhs, hrhs]
  rw [enter, hab, fieldName_append ha, fieldText_append ha]

/-- A delivered lone CR ends the head. -/
theorem readEntries_cr {stream stream' : IStream} {x : Str} (n : Nat)
    (entries : UnorderedMap Str Str) (hline : stream.getline x = (stream', "\r".toList))
    (hok : stream'.fail = false) :
    readEntries (n + 1) stream x entries = (stream', entries, .ok ()) := by
  simp only [readEntries, hline, hok, Bool.false_eq_true, if_false, if_pos]

/-- Any other delivered line is thrown back. -/
theorem readEntries_noColon {stream stream' : IStream} {x l : Str} (n : Nat)
    (entries : UnorderedMap Str Str) (hline : stream.getline x = (stream', l))
    (hok : stream'.fail = false) (hcr : l ≠ "\r".toList) (hl : ':' ∉ l) :
    readEntries (n + 1) stream x entries = (stream', entries, .error noColon) := by
  simp only [readEntries, hline, hok, Bool.false_eq_true, if_false, if_neg hcr,
    find_eq_none.mpr hl, noColon]

/-- Without a line the loop ends. -/
theorem readEntries_noLine {stream stream' : IStream} {x l : Str} (n : Nat)
    (entries : UnorderedMap Str Str) (hline : stream.getline x = (stream', l))
    (hfail : stream'.fail = true) :
    readEntries (n + 1) stream x entries = (stream', entries, .ok ()) := by
  simp only [readEntries, hline, hfail, if_true]

/-! ## The whole loop -/

/-- The lines, each with its newline. -/
def joinLines (lines : List Str) : Str := lines.flatMap (· ++ ['\n'])

theorem joinLines_cons (l : Str) (lines : List Str) :
    joinLines (l :: lines) = l ++ '\n' :: joinLines lines := by
  simp [joinLines]

theorem joinLines_length (lines : List Str) : lines.length ≤ (joinLines lines).length := by
  induction lines with
  | nil => exact Nat.le_refl 0
  | cons l lines ih =>
    rw [joinLines_cons]
    simp only [List.length_cons, List.length_append]
    omega

/-- How the header lines can go on to the end of a complete head: `rest` lies behind it. -/
def Complete (s : Str) (lines : List Str) (rest : Str) : Prop :=
  (∀ l ∈ lines, IsHeaderLine l) ∧ s = joinLines lines ++ '\r' :: '\n' :: rest

/-- How the header lines can go on when the stream ends before the head does: nothing more, or
a beginning of a line that has its colon already, or the CR of the empty line. -/
def Cut (s : Str) (lines : List Str) (last : Str) : Prop :=
  (∀ l ∈ lines, IsHeaderLine l) ∧ s = joinLines lines ++ last ∧
    (last = [] ∨ IsHeaderLine last ∨ last = ['\r'])

/-- How the header lines can go wrong: a line `l` comes that has no colon and is not the CR of
the empty line. What follows it begins with its newline, or the stream ends in it. -/
def Broken (s : Str) (lines : List Str) (l after : Str) : Prop :=
  (∀ k ∈ lines, IsHeaderLine k) ∧ s = joinLines lines ++ (l ++ after) ∧
    ('\n' ∉ l ∧ ':' ∉ l ∧ l ≠ ['\r']) ∧ AtLineEnd after ∧ l ++ after ≠ []

/-- The loop over terminated header lines. Induction on the lines. -/
theorem readEntries_lines (lines : List Str) :
    ∀ (n : Nat) (s x : Str) (entries : UnorderedMap Str Str), (∀ l ∈ lines, IsHeaderLine l) →
      ∃ x', readEntries (lines.length + n) (of (joinLines lines ++ s)) x entries =
        readEntries n (of s) x' (lines.foldl enter entries) := by
  induction lines with
  | nil =>
    intro n s x entries _
    exact ⟨x, by simp [joinLines]⟩
  | cons l lines ih =>
    intro n s x entries hlines
    -- one pass takes `l`, the others are those of the shorter list
    have hl := hlines l (by simp)
    obtain ⟨x', hx'⟩ := ih n s l (enter entries l) fun k hk => hlines k (List.mem_cons_of_mem l hk)
    refine ⟨x', ?_⟩
    have htext : joinLines (l :: lines) ++ s = l ++ '\n' :: (joinLines lines ++ s) := by
      simp [joinLines]
    have hfuel : (l :: lines).length + n = (lines.length + n) + 1 := by
      simp only [List.length_cons]
      omega
    rw [hfuel, htext, readEntries_colon _ _ (getline_line _ x hl.1) rfl hl.2, hx']
    rfl

/-- The loop from its start over terminated header lines, with fuel for at least one more pass,
and for two where a character is still there. -/
theorem readEntries_start {lines : List Str} (hlines : ∀ l ∈ lines, IsHeaderLine l) (s x : Str)
    (entries : UnorderedMap Str Str) :
    ∃ n x', readEntries ((joinLines lines ++ s).length + 1) (of (joinLines lines ++ s)) x entries =
        readEntries (n + 1) (of s) x' (lines.foldl enter entries) ∧ (s ≠ [] → 0 < n) := by
  have hlen := joinLines_length lines
  obtain ⟨x', hx'⟩ := readEntries_lines lines ((joinLines lines ++ s).length - lines.length + 1) s x
    entries hlines
  refine ⟨(joinLines lines ++ s).length - lines.length, x', ?_, ?_⟩
  · rw [← hx']
    congr 1
    simp only [List.length_append]
    omega
  · intro hs
    have hpos : 0 < s.length := List.length_pos_iff.mpr hs
    simp only [List.length_append]
    omega

/-- A complete head is read up to and with its empty line. -/
theorem readEntries_complete {s : Str} {lines : List Str} {rest : Str} (h : Complete s lines rest)
    (x : Str) (entries : UnorderedMap Str Str) :
    readEntries (s.length + 1) (of s) x entries = (of rest, lines.foldl enter entries, .ok ()) := by
  obtain ⟨hlines, hs⟩ := h
  obtain ⟨n, x', hstart, _⟩ := readEntries_start hlines ('\r' :: '\n' :: rest) x entries
  rw [hs, hstart]
  exact readEntries_cr n _ (getline_line (l := ['\r']) rest x' (by decide)) rfl

/-- A cut head is read to the end of the stream without complaint. -/
theorem readEntries_cut {s : Str} {lines : List Str} {last : Str} (h : Cut s lines last)
    (x : Str) (entries : UnorderedMap Str Str) :
    ∃ stream entries', readEntries (s.length + 1) (of s) x entries = (stream, entries', .ok ()) ∧
      stream.good = false := by
  obtain ⟨hlines, hs, hlast⟩ := h
  obtain ⟨n, x', hstart, hn⟩ := readEntries_start hlines last x entries
  rw [hs, hstart]
  rcases hlast with hlast | hlast | hlast
  · rw [hlast]
    exact ⟨_, _, readEntries_noLine _ _ (getline_nil x') rfl, rfl⟩
  · -- the last line is delivered, the pass behind it finds the end
    have hne : last ≠ [] := List.ne_nil_of_mem hlast.2
    have hpos := hn hne
    rw [readEntries_colon _ _ (getline_last x' hlast.1 hne) rfl hlast.2,
      show n = (n - 1) + 1 from by omega]
    exact ⟨_, _, readEntries_noLine _ _ (getline_at_eof [] last false) rfl, rfl⟩
  · -- the CR alone is taken for the empty line
    rw [hlast]
    exact ⟨_, _, readEntries_cr _ _ (getline_last x' (by decide) (by decide)) rfl, rfl⟩

/-- A broken head is thrown back; the stream is good if more than the faulty line was there. -/
theorem readEntries_broken {s : Str} {lines : List Str} {l after : Str}
    (h : Broken s lines l after) (x : Str) (entries : UnorderedMap Str Str) :
    ∃ stream entries',
      readEntries (s.length + 1) (of s) x entries = (stream, entries', .error noColon) ∧
        stream.good = !after.isEmpty := by
  obtain ⟨hlines, hs, ⟨hl, hcolon, hcr⟩, hafter, hne⟩ := h
  obtain ⟨n, x', hstart, _⟩ := readEntries_start hlines (l ++ after) x entries
  obtain ⟨stream, hline, hok, hgood⟩ := getline_lineEnd x' hl hafter hne
  rw [hs, hstart]
  exact ⟨stream, _, readEntries_noColon n _ hline hok hcr hcolon, hgood⟩

/-- The header lines are complete, cut, or broken. Induction on the length of the text: a line
with a colon leaves the question to the shorter text behind it. -/
theorem entries_cases : ∀ (n : Nat) (s : Str), s.length < n →
    (∃ lines rest, Complete s lines rest) ∨ (∃ lines last, Cut s lines last) ∨
      ∃ lines l after, Broken s lines l after := by
  intro n
  induction n with
  | zero =>
    intro s hn
    omega
  | succ n ih =>
    intro s hn
    rcases line_cases s with hs | ⟨l, after, hs, hl, hafter, hne⟩
    · exact Or.inr (Or.inl ⟨[], [], by simp, by simp [hs, joinLines], Or.inl rfl⟩)
    · by_cases hcolon : ':' ∈ l
      · cases after with
        | nil =>
          -- the stream ends in a line with a colon
          rw [List.append_nil] at hs
          exact Or.inr (Or.inl ⟨[], l, by simp, by simp [hs, joinLines], Or.inr (Or.inl ⟨hl, hcolon⟩)⟩)
        | cons c r =>
          -- the line is an entry; the rest decides
          have hc : c = '\n' := hafter c rfl
          rw [hc] at hs
          have hr : r.length < n := by
            rw [hs] at hn
            simp only [List.length_append, List.length_cons] at hn
            omega
          have hall : ∀ {lines : List Str}, (∀ k ∈ lines, IsHeaderLine k) →
              ∀ k ∈ l :: lines, IsHeaderLine k := by
            intro lines hlines k hk
            rcases List.mem_cons.mp hk with hk | hk
            · rw [hk]
              exact ⟨hl, hcolon⟩
            · exact hlines k hk
          rcases ih r hr with ⟨lines, rest, hlines, h⟩ | ⟨lines, last, hlines, h, hlast⟩ |
            ⟨lines, l', after', hlines, h, hbroken⟩
          · exact Or.inl ⟨l :: lines, rest, hall hlines, by rw [hs, h, joinLines_cons]; simp⟩
          · exact Or.inr (Or.inl
              ⟨l :: lines, last, hall hlines, by rw [hs, h, joinLines_cons]; simp, hlast⟩)
          · exact Or.inr (Or.inr
              ⟨l :: lines, l', after', hall hlines, by rw [hs, h, joinLines_cons]; simp, hbroken⟩)
      · by_cases hcr : l = ['\r']
        · cases after with
          | nil =>
            -- a CR without its newline ends the loop all the same
            exact Or.inr (Or.inl ⟨[], l, by simp, by simp [hs, joinLines], Or.inr (Or.inr hcr)⟩)
          | cons c r =>
            have hc : c = '\n' := hafter c rfl
            exact Or.inl ⟨[], r, by simp, by simp [hs, hcr, hc, joinLines]⟩
        · exact Or.inr (Or.inr
            ⟨[], l, after, by simp, by simp [hs, joinLines], ⟨hl, hcolon, hcr⟩, hafter, hne⟩)

/-! ## Behind the version -/

/-- What follows the version is the rest of the request line, then `s`. -/
def LineThen (after s : Str) : Prop := ∃ tail, after = tail ++ '\n' :: s ∧ '\n' ∉ tail

/-- A complete head behind the version: the rest of the request line, then the header lines. -/
def CompleteAfter (after : Str) (lines : List Str) (rest : Str) : Prop :=
  ∃ s, LineThen after s ∧ Complete s lines rest

/-- The stream ends behind the version, before the head does. -/
def CutAfter (after : Str) : Prop :=
  '\n' ∉ after ∨ ∃ s lines last, LineThen after s ∧ Cut s lines last

/-- The header lines behind the version go wrong. -/
def BrokenAfter (after : Str) (lines : List Str) (l rest : Str) : Prop :=
  ∃ s, LineThen after s ∧ Broken s lines l rest

/-- Behind the rest of the request line the loop over the header lines begins. -/
theorem readHeaderLines_line {after s : Str} (h : LineThen after s)
    (entries : UnorderedMap Str Str) :
    ∃ x, readHeaderLines (behind after) entries = readEntries (s.length + 1) (of s) x entries := by
  obtain ⟨tail, hafter, htail⟩ := h
  refine ⟨tail, ?_⟩
  rw [readHeaderLines, hafter, behind_of_ne_nil (by simp), getline_line s [] htail]
  rfl

theorem readHeaderLines_complete {after : Str} {lines : List Str} {rest : Str}
    (h : CompleteAfter after lines rest) (entries : UnorderedMap Str Str) :
    readHeaderLines (behind after) entries = (of rest, lines.foldl enter entries, .ok ()) := by
  obtain ⟨s, hline, hs⟩ := h
  obtain ⟨x, hx⟩ := readHeaderLines_line hline entries
  rw [hx]
  exact readEntries_complete hs x entries

theorem readHeaderLines_cut {after : Str} (h : CutAfter after) (entries : UnorderedMap Str Str) :
    ∃ stream entries', readHeaderLines (behind after) entries = (stream, entries', .ok ()) ∧
      stream.good = false := by
  rcases h with h | ⟨s, lines, last, hline, hs⟩
  · -- the request line does not end: no header line is delivered
    cases hafter : after with
    | nil => exact ⟨_, _, readEntries_noLine 0 entries (getline_at_eof [] [] true) rfl, rfl⟩
    | cons c r =>
      rw [hafter] at h
      rw [readHeaderLines, behind_of_ne_nil (by simp), getline_last [] h (by simp)]
      exact ⟨_, _, readEntries_noLine 0 entries (getline_at_eof [] _ false) rfl, rfl⟩
  · obtain ⟨x, hx⟩ := readHeaderLines_line hline entries
    rw [hx]
    exact readEntries_cut hs x entries

theorem readHeaderLines_broken {after : Str} {lines : List Str} {l rest : Str}
    (h : BrokenAfter after lines l rest) (entries : UnorderedMap Str Str) :
    ∃ stream entries',
      readHeaderLines (behind after) entries = (stream, entries', .error noColon) ∧
        stream.good = !rest.isEmpty := by
  obtain ⟨s, hline, hs⟩ := h
  obtain ⟨x, hx⟩ := readHeaderLines_line hline entries
  rw [hx]
  exact readEntries_broken hs x entries

theorem after_cases (after : Str) :
    (∃ lines rest, CompleteAfter after lines rest) ∨ CutAfter after ∨
      ∃ lines l rest, BrokenAfter after lines l rest := by
  by_cases h : '\n' ∈ after
  · obtain ⟨tail, s, hafter, htail⟩ := List.eq_append_cons_of_mem h
    have hline : LineThen after s := ⟨tail, hafter, htail⟩
    rcases entries_cases (s.length + 1) s (Nat.lt_succ_self _) with
      ⟨lines, rest, hs⟩ | ⟨lines, last, hs⟩ | ⟨lines, l, rest, hs⟩
    · exact Or.inl ⟨lines, rest, s, hline, hs⟩
    · exact Or.inr (Or.inl (Or.inr ⟨s, lines, last, hline, hs⟩))
    · exact Or.inr (Or.inr ⟨lines, l, rest, s, hline, hs⟩)
  · exact Or.inr (Or.inl (Or.inl h))

/-! ## The request line -/

def IsVersion (v : Str) : Prop := v = "HTTP/1.0".toList ∨ v = "HTTP/1.1".toList

/-- The three words of a request line, the white space in front of and between them, and what
follows the third. -/
structure Words where
  lead : Str
  method : Str
  gap₁ : Str
  target : Str
  gap₂ : Str
  version : Str
  after : Str

/-- `s` begins with these words. -/
structure StartsWith (s : Str) (w : Words) : Prop where
  eq : s = w.lead ++ (w.method ++ (w.gap₁ ++ (w.target ++ (w.gap₂ ++ (w.version ++ w.after)))))
  lead : IsBlank w.lead
  method : IsWord w.method
  gap₁ : IsBlank w.gap₁ ∧ w.gap₁ ≠ []
  target : IsWord w.target
  gap₂ : IsBlank w.gap₂ ∧ w.gap₂ ≠ []
  version : IsWord w.version
  after : AtGap w.after

theorem atGap_of_blank {gap : Str} (h : IsBlank gap ∧ gap ≠ []) (s : Str) : AtGap (gap ++ s) := by
  intro c hc
  rw [List.head?_append_of_ne_nil _ h.2] at hc
  exact h.1 c (List.mem_of_head? hc)

theorem gap_ne_nil {gap : Str} (h : IsBlank gap ∧ gap ≠ []) (s : Str) : gap ++ s ≠ [] := by
  intro hnil
  exact h.2 (List.append_eq_nil_iff.mp hnil).1

/-- The three words of a request line and what lies around them are determined by the text. -/
theorem StartsWith.unique {s : Str} {w w' : Words} (h : StartsWith s w) (h' : StartsWith s w') :
    w = w' := by
  have hword : ∀ {w : Str}, IsWord w → ∀ c ∈ w, (!isspace c) = true := by
    intro w hw
    simpa using hw.2
  have hgap : ∀ {s : Str}, AtGap s → ∀ c ∈ s.head?, (!isspace c) = false := by
    intro s hs
    simpa [AtGap] using hs
  -- cut off piece after piece: blanks and words stop each other
  have c₁ := cut_unique (h.eq.symm.trans h'.eq) h.lead (h.method.head? _) h'.lead (h'.method.head? _)
  have c₂ := cut_unique c₁.2 (hword h.method) (hgap (atGap_of_blank h.gap₁ _)) (hword h'.method)
    (hgap (atGap_of_blank h'.gap₁ _))
  have c₃ := cut_unique c₂.2 h.gap₁.1 (h.target.head? _) h'.gap₁.1 (h'.target.head? _)
  have c₄ := cut_unique c₃.2 (hword h.target) (hgap (atGap_of_blank h.gap₂ _)) (hword h'.target)
    (hgap (atGap_of_blank h'.gap₂ _))
  have c₅ := cut_unique c₄.2 h.gap₂.1 (h.version.head? _) h'.gap₂.1 (h'.version.head? _)
  have c₆ := cut_unique c₅.2 (hword h.version) (hgap h.after) (hword h'.version) (hgap h'.after)
  cases w
  cases w'
  simp only [Words.mk.injEq]
  exact ⟨c₁.1, c₂.1, c₃.1, c₄.1, c₅.1, c₆.1, c₆.2⟩

theorem checkVersion_ok {v : Str} (h : IsVersion v) : checkVersion false v = .ok () := by
  rcases h with h | h
  · rw [h]; rfl
  · rw [h]; rfl

theorem checkVersion_failed (v : Str) : ∃ message,
    checkVersion true v = .error (.invalidRequest message) := ⟨_, rfl⟩

theorem checkVersion_error {v : Str} (h : ¬ IsVersion v) :
    ∃ message, checkVersion false v = .error (.invalidRequest message) := by
  have hprotocol : substr v 0 (some 5) = .ok (v.take 5) := by simp [substr, substr?]
  unfold checkVersion
  rw [if_neg (by decide), hprotocol]
  show ∃ message, (if v.take 5 ≠ "HTTP/".toList then _ else _) = Except.error (Fault.invalidRequest message)
  by_cases htake : v.take 5 = "HTTP/".toList
  · have hsplit : v = "HTTP/".toList ++ v.drop 5 := by
      rw [← htake, List.take_append_drop]
    have hlen : 5 ≤ v.length := by
      rw [hsplit, List.length_append]
      exact Nat.le_add_right 5 _
    have hversion : substr v 5 (some (v.length - 5)) = .ok (v.drop 5) := by
      have hrest : ((v.drop 5).take (v.length - 5)) = v.drop 5 :=
        List.take_of_length_le (by rw [List.length_drop])
      rw [substr, substr?, if_pos hlen]
      simp only [hrest]
    -- the five letters are there, so it is the number that is not known
    have hne : v.drop 5 ≠ "1.0".toList ∧ v.drop 5 ≠ "1.1".toList := by
      refine ⟨?_, ?_⟩
      · intro hdrop
        exact h (Or.inl (by rw [hsplit, hdrop]; rfl))
      · intro hdrop
        exact h (Or.inr (by rw [hsplit, hdrop]; rfl))
    rw [if_neg (not_not.mpr htake), hversion]
    show ∃ message, (if v.drop 5 ≠ "1.0".toList ∧ v.drop 5 ≠ "1.1".toList then _ else _) =
      Except.error (Fault.invalidRequest message)
    rw [if_pos hne]
    exact ⟨_, rfl⟩
  · rw [if_pos htake]
    exact ⟨_, rfl⟩

/-! ## The whole head -/

/-- `readHead`, given what its three extractions deliver. -/
theorem readHead_extracts {s method target version : Str} {s₁ s₂ s₃ : IStream}
    (h₁ : (of s).extract [] = (s₁, method)) (h₂ : s₁.extract [] = (s₂, target))
    (h₃ : s₂.extract [] = (s₃, version)) (id : UserId) :
    (accepted id s).readHead = match checkVersion s₃.fail version with
      | .error fault =>
        ((accepted id s).afterReading s₃ ⟨method, version, target, ∅⟩, .error fault)
      | .ok () =>
        let (stream, entries, result) := readHeaderLines s₃ ∅
        ((accepted id s).afterReading stream ⟨method, version, target, entries⟩, result) := by
  cases hcheck : checkVersion s₃.fail version with
  | error fault => simp only [readHead, accepted, h₁, h₂, h₃, hcheck]
  | ok u => simp only [readHead, accepted, h₁, h₂, h₃, hcheck]

/-- What the three extractions deliver when the words are there. -/
theorem StartsWith.extracts {s : Str} {w : Words} (h : StartsWith s w) :
    ∃ s₁ s₂, (of s).extract [] = (s₁, w.method) ∧ s₁.extract [] = (s₂, w.target) ∧
      s₂.extract [] = (behind w.after, w.version) := by
  refine ⟨of (w.gap₁ ++ (w.target ++ (w.gap₂ ++ (w.version ++ w.after)))),
    of (w.gap₂ ++ (w.version ++ w.after)), ?_, ?_, ?_⟩
  · rw [h.eq, extract_word [] h.lead h.method (atGap_of_blank h.gap₁ _),
      behind_of_ne_nil (gap_ne_nil h.gap₁ _)]
  · rw [extract_word [] h.gap₁.1 h.target (atGap_of_blank h.gap₂ _),
      behind_of_ne_nil (gap_ne_nil h.gap₂ _)]
  · exact extract_word [] h.gap₂.1 h.version h.after

/-- Behind three words with a known version come the header lines. -/
theorem readHead_version {s : Str} {w : Words} (h : StartsWith s w) (hversion : IsVersion w.version)
    (id : UserId) {stream : IStream} {entries : UnorderedMap Str Str} {result : Except Fault Unit}
    (hlines : readHeaderLines (behind w.after) ∅ = (stream, entries, result)) :
    (accepted id s).readHead =
      ((accepted id s).afterReading stream ⟨w.method, w.version, w.target, entries⟩, result) := by
  obtain ⟨s₁, s₂, h₁, h₂, h₃⟩ := h.extracts
  have hcheck : checkVersion (behind w.after).fail w.version = .ok () := checkVersion_ok hversion
  rw [readHead_extracts h₁ h₂ h₃ id, hcheck]
  simp only [hlines]

/-- Three words with another version are thrown back. -/
theorem readHead_noVersion {s : Str} {w : Words} (h : StartsWith s w)
    (hversion : ¬ IsVersion w.version) (id : UserId) :
    ∃ message, (accepted id s).readHead =
      ((accepted id s).afterReading (behind w.after) ⟨w.method, w.version, w.target, ∅⟩,
        .error (.invalidRequest message)) := by
  obtain ⟨s₁, s₂, h₁, h₂, h₃⟩ := h.extracts
  obtain ⟨message, hmessage⟩ := checkVersion_error hversion
  have hcheck : checkVersion (behind w.after).fail w.version = .error (.invalidRequest message) :=
    hmessage
  refine ⟨message, ?_⟩
  rw [readHead_extracts h₁ h₂ h₃ id, hcheck]

/-- A stream has three words, or one of the extractions fails, and the ones behind it with it. -/
theorem words_cases (s : Str) : (∃ w, StartsWith s w) ∨
    ∃ s₁ s₂ s₃ method target version, (of s).extract [] = (s₁, method) ∧
      s₁.extract [] = (s₂, target) ∧ s₂.extract [] = (s₃, version) ∧ s₃.fail = true := by
  cases h₁ : (of s).extract [] with | mk s₁ method =>
  cases h₂ : s₁.extract [] with | mk s₂ target =>
  cases h₃ : s₂.extract [] with | mk s₃ version =>
  -- a stream that has failed once fails again
  have hkeep : ∀ {is is' : IStream} {w : Str}, is.fail = true → is.extract [] = (is', w) →
      is'.fail = true := by
    intro is is' w hfail heq
    have h : (is.extract []).1.fail = true := extract_not_good [] (not_good_of_fail hfail)
    rw [heq] at h
    exact h
  have hthrow : s₃.fail = true → ∃ t₁ t₂ t₃ m t v, (s₁, method) = (t₁, m) ∧
      t₁.extract [] = (t₂, t) ∧ t₂.extract [] = (t₃, v) ∧ t₃.fail = true :=
    fun hfail => ⟨s₁, s₂, s₃, method, target, version, rfl, h₂, h₃, hfail⟩
  rcases extract_first s [] with ⟨lead, m, r₁, hs₁, hlead, hm, hr₁, heq₁⟩ | hfail
  · rw [h₁] at heq₁
    rw [(Prod.mk.inj heq₁).1] at h₂
    rcases extract_next [] hr₁ with ⟨gap₁, t, r₂, hs₂, hgap₁, ht, hr₂, heq₂⟩ | hfail
    · rw [h₂] at heq₂
      rw [(Prod.mk.inj heq₂).1] at h₃
      rcases extract_next [] hr₂ with ⟨gap₂, v, after, hs₃, hgap₂, hv, hafter, _⟩ | hfail
      · exact Or.inl ⟨⟨lead, m, gap₁, t, gap₂, v, after⟩, by rw [hs₁, hs₂, hs₃], hlead, hm, hgap₁,
          ht, hgap₂, hv, hafter⟩
      · rw [h₃] at hfail
        exact Or.inr (hthrow hfail)
    · rw [h₂] at hfail
      exact Or.inr (hthrow (hkeep hfail h₃))
  · rw [h₁] at hfail
    exact Or.inr (hthrow (hkeep (hkeep hfail h₂) h₃))

/-- A stream without three words is thrown back, at its end. -/
theorem readHead_noWords {s : Str} (h : ¬ ∃ w, StartsWith s w) (id : UserId) :
    ∃ c message, (accepted id s).readHead = (c, .error (.invalidRequest message)) ∧
      c.stream_.good = false := by
  rcases words_cases s with hs | ⟨s₁, s₂, s₃, method, target, version, h₁, h₂, h₃, hfail⟩
  · exact absurd hs h
  · obtain ⟨message, hmessage⟩ := checkVersion_failed version
    have hgood : s₃.good = false := not_good_of_fail hfail
    refine ⟨(accepted id s).afterReading s₃ ⟨method, version, target, ∅⟩, message, ?_, hgood⟩
    rw [readHead_extracts h₁ h₂ h₃ id, hfail, hmessage]

/-! ## The four kinds of streams -/

/-- The stream goes on to the end of its head. -/
def EndsHead (s : Str) : Prop :=
  ∃ w lines rest, StartsWith s w ∧ IsVersion w.version ∧ CompleteAfter w.after lines rest

/-- The stream breaks off inside its head, where the reader does not mind: behind the version,
with every header line so far in order, and the last one, if it has begun, past its colon. -/
def CutHead (s : Str) : Prop :=
  ∃ w, StartsWith s w ∧ IsVersion w.version ∧ CutAfter w.after

/-- The head has a fault, and the stream goes on behind it: a version that is not known, or a
header line without a colon. -/
def GoesWrong (s : Str) : Prop :=
  ∃ w, StartsWith s w ∧ ((¬ IsVersion w.version ∧ w.after ≠ []) ∨
    (IsVersion w.version ∧ ∃ lines l rest, BrokenAfter w.after lines l rest ∧ rest ≠ []))

/-- The stream breaks off before the third word is known to be a version, or in a header line in
front of its colon. -/
def EndsEarly (s : Str) : Prop :=
  (¬ ∃ w, StartsWith s w) ∨ ∃ w, StartsWith s w ∧ ((¬ IsVersion w.version ∧ w.after = []) ∨
    (IsVersion w.version ∧ ∃ lines l, BrokenAfter w.after lines l []))

/-- `readHead` on a stream whose head is complete. -/
theorem readHead_complete {s : Str} {w : Words} {lines : List Str} {rest : Str}
    (h : StartsWith s w) (hversion : IsVersion w.version)
    (hafter : CompleteAfter w.after lines rest) (id : UserId) :
    (accepted id s).readHead =
      (⟨id, { toIStream := of rest }, ⟨w.method, w.version, w.target, lines.foldl enter ∅⟩⟩,
        .ok ()) := by
  rw [readHead_version h hversion id (readHeaderLines_complete hafter ∅)]
  rfl

theorem readHead_endsHead {s : Str} (h : EndsHead s) (id : UserId) :
    (accepted id s).readHead.2 = .ok () ∧ (accepted id s).readHead.1.stream_.good = true := by
  obtain ⟨w, lines, rest, hs, hversion, hafter⟩ := h
  rw [readHead_complete hs hversion hafter id]
  exact ⟨rfl, rfl⟩

theorem readHead_cutHead {s : Str} (h : CutHead s) (id : UserId) :
    (accepted id s).readHead.2 = .ok () ∧ (accepted id s).readHead.1.stream_.good = false := by
  obtain ⟨w, hs, hversion, hafter⟩ := h
  obtain ⟨stream, entries, hlines, hgood⟩ := readHeaderLines_cut hafter ∅
  rw [readHead_version hs hversion id hlines]
  exact ⟨rfl, hgood⟩

/-- A stream that goes wrong or ends early is thrown back; what is left tells the two apart. -/
theorem readHead_goesWrong {s : Str} (h : GoesWrong s) (id : UserId) :
    (∃ message, (accepted id s).readHead.2 = .error (.invalidRequest message)) ∧
      (accepted id s).readHead.1.stream_.good = true := by
  obtain ⟨w, hs, ⟨hversion, hne⟩ | ⟨hversion, lines, l, rest, hbroken, hne⟩⟩ := h
  · obtain ⟨message, hmessage⟩ := readHead_noVersion hs hversion id
    rw [hmessage, behind_of_ne_nil hne]
    exact ⟨⟨message, rfl⟩, rfl⟩
  · obtain ⟨stream, entries, hlines, hgood⟩ := readHeaderLines_broken hbroken ∅
    rw [readHead_version hs hversion id hlines]
    refine ⟨⟨_, rfl⟩, ?_⟩
    show stream.good = true
    rw [hgood, List.isEmpty_eq_false_iff.mpr hne]
    rfl

theorem readHead_endsEarly {s : Str} (h : EndsEarly s) (id : UserId) :
    (∃ message, (accepted id s).readHead.2 = .error (.invalidRequest message)) ∧
      (accepted id s).readHead.1.stream_.good = false := by
  rcases h with h | ⟨w, hs, ⟨hversion, hnil⟩ | ⟨hversion, lines, l, hbroken⟩⟩
  · obtain ⟨c, message, hread, hgood⟩ := readHead_noWords h id
    rw [hread]
    exact ⟨⟨message, rfl⟩, hgood⟩
  · obtain ⟨message, hmessage⟩ := readHead_noVersion hs hversion id
    rw [hmessage, hnil]
    exact ⟨⟨message, rfl⟩, rfl⟩
  · obtain ⟨stream, entries, hlines, hgood⟩ := readHeaderLines_broken hbroken ∅
    rw [readHead_version hs hversion id hlines]
    exact ⟨⟨_, rfl⟩, hgood⟩

/-- **Every stream is of one of the four kinds.** -/
theorem readHead_cases (s : Str) : EndsHead s ∨ CutHead s ∨ GoesWrong s ∨ EndsEarly s := by
  by_cases hwords : ∃ w, StartsWith s w
  · obtain ⟨w, hs⟩ := hwords
    by_cases hversion : IsVersion w.version
    · rcases after_cases w.after with ⟨lines, rest, h⟩ | h | ⟨lines, l, rest, h⟩
      · exact Or.inl ⟨w, lines, rest, hs, hversion, h⟩
      · exact Or.inr (Or.inl ⟨w, hs, hversion, h⟩)
      · by_cases hrest : rest = []
        · rw [hrest] at h
          exact Or.inr (Or.inr (Or.inr (Or.inr ⟨w, hs, Or.inr ⟨hversion, lines, l, h⟩⟩)))
        · exact Or.inr (Or.inr (Or.inl ⟨w, hs, Or.inr ⟨hversion, lines, l, rest, h, hrest⟩⟩))
    · by_cases hafter : w.after = []
      · exact Or.inr (Or.inr (Or.inr (Or.inr ⟨w, hs, Or.inl ⟨hversion, hafter⟩⟩)))
      · exact Or.inr (Or.inr (Or.inl ⟨w, hs, Or.inl ⟨hversion, hafter⟩⟩))
  · exact Or.inr (Or.inr (Or.inr (Or.inl hwords)))

/-- `readHead` returns on the streams whose head is complete or cut, and on no others. -/
theorem readHead_ok_iff (id : UserId) (s : Str) :
    (accepted id s).readHead.2 = .ok () ↔ EndsHead s ∨ CutHead s := by
  refine ⟨?_, ?_⟩
  · intro hok
    rcases readHead_cases s with h | h | h | h
    · exact Or.inl h
    · exact Or.inr h
    · obtain ⟨⟨message, herror⟩, _⟩ := readHead_goesWrong h id
      rw [hok] at herror
      exact absurd herror (by simp)
    · obtain ⟨⟨message, herror⟩, _⟩ := readHead_endsEarly h id
      rw [hok] at herror
      exact absurd herror (by simp)
  · intro h
    rcases h with h | h
    · exact (readHead_endsHead h id).1
    · exact (readHead_cutHead h id).1

/-- A head that is complete is not cut: only a cut one leaves the stream at its end. -/
theorem EndsHead.not_cutHead {s : Str} (h : EndsHead s) : ¬ CutHead s := by
  intro hcut
  have hgood := (readHead_endsHead h 0).2
  rw [(readHead_cutHead hcut 0).2] at hgood
  exact absurd hgood (by decide)

/-- `readHead` writes nothing and keeps the id. -/
theorem readHead_frame (id : UserId) (s : Str) :
    (accepted id s).readHead.1.id_ = id ∧ (accepted id s).readHead.1.stream_.sent = [] := by
  unfold readHead
  simp only
  split
  · exact ⟨rfl, rfl⟩
  · exact ⟨rfl, rfl⟩

end Rest.RestConnection
