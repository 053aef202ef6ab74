import SimpleRest.Cpp.Text

/-!
# Reading and writing a `std::iostream`

A stream over a peer that sends some characters and then ends: what has not been extracted
yet, `eofbit` and `failbit`. `extract` is `operator>>` into a string, `getline` is
`std::getline`. Both begin with the sentry, which refuses a stream that is no longer good
and then leaves the target string as it was.

`IOStream` adds the other direction. The two directions of an `iostream` share one state, so
the sentry of `put` refuses a stream whose input has come to its end as well.
-/

namespace Cpp

structure IStream where
  rest : Str
  eof : Bool
  fail : Bool
  deriving DecidableEq, Repr

namespace IStream

/-- The stream of a peer that sends `s` and then closes or fails. -/
def of (s : Str) : IStream := ⟨s, false, false⟩

/-- The stream in front of `s` when a word has just been extracted: the end of the input, if it
is here, has been seen. -/
def behind (s : Str) : IStream := ⟨s, s.isEmpty, false⟩

def good (is : IStream) : Bool := !is.eof && !is.fail

/-- `std::isspace` in the "C" locale. -/
def isspace (c : Char) : Bool :=
  c = ' ' || c = '\t' || c = '\n' || c = '\x0b' || c = '\x0c' || c = '\r'

/-- `is >> str`. -/
def extract (is : IStream) (str : Str) : IStream × Str :=
  if is.good then
    match is.rest.dropWhile isspace with
    | [] => (⟨[], true, true⟩, str)
    | c :: s =>
      -- the end of the input is noticed when the word goes up to it
      let word := (c :: s).takeWhile (!isspace ·)
      let after := (c :: s).dropWhile (!isspace ·)
      (⟨after, after.isEmpty, false⟩, word)
  else ({ is with fail := true }, str)

/-- `std::getline(is, line)`. -/
def getline (is : IStream) (line : Str) : IStream × Str :=
  if is.good then
    match is.rest.dropWhile (· != '\n') with
    -- the input ends: `eofbit`, and `failbit` when not one character was there
    | [] => (⟨[], true, is.rest.isEmpty⟩, is.rest)
    | _ :: after => (⟨after, false, false⟩, is.rest.takeWhile (· != '\n'))
  else ({ is with fail := true }, line)

/-! ## Lines -/

theorem takeWhile_line {l r : Str} (hl : '\n' ∉ l) :
    (l ++ '\n' :: r).takeWhile (· != '\n') = l := by
  rw [List.takeWhile_append_of_pos (ne_of_notMem hl)]
  simp

theorem dropWhile_line {l r : Str} (hl : '\n' ∉ l) :
    (l ++ '\n' :: r).dropWhile (· != '\n') = '\n' :: r := by
  rw [List.dropWhile_append_of_pos (ne_of_notMem hl)]
  simp

theorem dropWhile_last {l : Str} (hl : '\n' ∉ l) : l.dropWhile (· != '\n') = [] :=
  List.dropWhile_eq_nil_iff.mpr (ne_of_notMem hl)

/-- A terminated line is delivered without its newline. -/
theorem getline_line {l : Str} (r line : Str) (hl : '\n' ∉ l) :
    (of (l ++ '\n' :: r)).getline line = (of r, l) := by
  simp only [getline, of, good, Bool.not_false, Bool.and_self, if_true]
  rw [dropWhile_line hl, takeWhile_line hl]

/-- A last line without its newline is delivered, and the stream is then at its end. -/
theorem getline_last {l : Str} (line : Str) (hl : '\n' ∉ l) (hne : l ≠ []) :
    (of l).getline line = (⟨[], true, false⟩, l) := by
  simp only [getline, of, good, Bool.not_false, Bool.and_self, if_true]
  rw [dropWhile_last hl]
  cases l with
  | nil => exact absurd rfl hne
  | cons c l => rfl

@[simp] theorem getline_nil (line : Str) : (of []).getline line = (⟨[], true, true⟩, []) := rfl

@[simp] theorem getline_at_eof (s line : Str) (f : Bool) :
    (IStream.mk s true f).getline line = (⟨s, true, true⟩, line) := by
  simp [getline, good]

/-- The text ends here or goes on with a newline. -/
def AtLineEnd (s : Str) : Prop := ∀ c ∈ s.head?, c = '\n'

/-- A line is delivered whether it is terminated or not; the stream stays good if it is. -/
theorem getline_lineEnd {l after : Str} (line : Str) (hl : '\n' ∉ l) (hafter : AtLineEnd after)
    (hne : l ++ after ≠ []) :
    ∃ is, (of (l ++ after)).getline line = (is, l) ∧ is.fail = false ∧
      is.good = !after.isEmpty := by
  cases after with
  | nil =>
    -- the end of the input ends the line, and is seen
    rw [List.append_nil] at hne ⊢
    exact ⟨_, getline_last line hl hne, rfl, rfl⟩
  | cons c r =>
    have hc : c = '\n' := hafter c rfl
    rw [hc]
    exact ⟨_, getline_line r line hl, rfl, rfl⟩

/-- Every text is empty, or a line and what follows it. -/
theorem line_cases (s : Str) :
    s = [] ∨ ∃ l after, s = l ++ after ∧ '\n' ∉ l ∧ AtLineEnd after ∧ l ++ after ≠ [] := by
  by_cases hs : s = []
  · exact Or.inl hs
  · have hsplit := List.takeWhile_append_dropWhile (p := (· != '\n')) (l := s)
    refine Or.inr ⟨_, _, hsplit.symm, ?_, ?_, by rw [hsplit]; exact hs⟩
    · intro hmem
      have h := List.mem_takeWhile_imp hmem
      simp at h
    · intro c hc
      simpa using head?_dropWhile (· != '\n') s c hc

/-! ## Words -/

/-- A word: not empty and without white space. -/
def IsWord (w : Str) : Prop := w ≠ [] ∧ ∀ c ∈ w, isspace c = false

/-- White space only. -/
def IsBlank (w : Str) : Prop := ∀ c ∈ w, isspace c = true

/-- The text ends here or goes on with white space. -/
def AtGap (s : Str) : Prop := ∀ c ∈ s.head?, isspace c = true

instance (w : Str) : Decidable (IsWord w) :=
  @instDecidableAnd _ _ _ (List.decidableBAll (isspace · = false) w)

instance (w : Str) : Decidable (IsBlank w) := List.decidableBAll (isspace · = true) w

theorem IsWord.head? {w : Str} (hw : IsWord w) (s : Str) :
    ∀ c ∈ (w ++ s).head?, isspace c = false := by
  intro c hc
  rw [List.head?_append_of_ne_nil _ hw.1] at hc
  exact hw.2 c (List.mem_of_head? hc)

/-- Extraction skips white space, delivers the word and stops in front of what follows. -/
theorem extract_word {b w after : Str} (str : Str) (hb : IsBlank b) (hw : IsWord w)
    (hgap : AtGap after) : (of (b ++ (w ++ after))).extract str = (behind after, w) := by
  simp only [extract, of, good, Bool.not_false, Bool.and_self, if_true]
  rw [dropWhile_stop hb (hw.head? after)]
  have hall : ∀ c ∈ w, (!isspace c) = true := by simpa using hw.2
  have hstop : ∀ c ∈ after.head?, (!isspace c) = false := by simpa [AtGap] using hgap
  have htake := takeWhile_stop hall hstop
  have hdrop := dropWhile_stop hall hstop
  cases hcons : w ++ after with
  | nil => exact absurd (List.append_eq_nil_iff.mp hcons).1 hw.1
  | cons c s =>
    simp only
    rw [← hcons, htake, hdrop]
    rfl

theorem extract_blank {b : Str} (str : Str) (hb : IsBlank b) :
    (of b).extract str = (⟨[], true, true⟩, str) := by
  simp only [extract, of, good, Bool.not_false, Bool.and_self, if_true]
  rw [List.dropWhile_eq_nil_iff.mpr hb]

/-- A stream that is no longer good delivers no word. -/
theorem extract_not_good {is : IStream} (str : Str) (h : is.good = false) :
    (is.extract str).1.fail = true := by
  simp [extract, h]

theorem not_good_of_fail {is : IStream} (h : is.fail = true) : is.good = false := by
  simp [good, h]

theorem behind_of_ne_nil {s : Str} (h : s ≠ []) : behind s = of s := by
  cases s with
  | nil => exact absurd rfl h
  | cons c s => rfl

/-- Every text is white space only, or white space, a word, and what follows the word. -/
theorem word_cases (s : Str) :
    IsBlank s ∨ ∃ b w after, s = b ++ (w ++ after) ∧ IsBlank b ∧ IsWord w ∧ AtGap after := by
  have hsplit := List.takeWhile_append_dropWhile (p := isspace) (l := s)
  have hblank : IsBlank (s.takeWhile isspace) := fun c hc => List.mem_takeWhile_imp hc
  cases hr : s.dropWhile isspace with
  | nil =>
    rw [hr, List.append_nil] at hsplit
    exact Or.inl (hsplit ▸ hblank)
  | cons c r =>
    have hc : isspace c = false := head?_dropWhile isspace s c (by rw [hr]; rfl)
    refine Or.inr ⟨_, (c :: r).takeWhile (!isspace ·), (c :: r).dropWhile (!isspace ·), ?_,
      hblank, ⟨?_, ?_⟩, ?_⟩
    · rw [List.takeWhile_append_dropWhile, ← hr, hsplit]
    · simp [hc]
    · intro x hx
      simpa using List.mem_takeWhile_imp hx
    · intro x hx
      simpa using head?_dropWhile (!isspace ·) (c :: r) x hx

/-- The first word of a text, or no word. -/
theorem extract_first (s str : Str) :
    (∃ b w after, s = b ++ (w ++ after) ∧ IsBlank b ∧ IsWord w ∧ AtGap after ∧
      (of s).extract str = (behind after, w)) ∨ ((of s).extract str).1.fail = true := by
  rcases word_cases s with hs | ⟨b, w, after, hs, hb, hw, hafter⟩
  · exact Or.inr (by rw [extract_blank str hs])
  · exact Or.inl ⟨b, w, after, hs, hb, hw, hafter, by rw [hs, extract_word str hb hw hafter]⟩

/-- The next word behind a word: the gap between the two is not empty. -/
theorem extract_next {s : Str} (str : Str) (hs : AtGap s) :
    (∃ gap w after, s = gap ++ (w ++ after) ∧ (IsBlank gap ∧ gap ≠ []) ∧ IsWord w ∧
      AtGap after ∧ (behind s).extract str = (behind after, w)) ∨
    ((behind s).extract str).1.fail = true := by
  cases hcons : s with
  | nil => exact Or.inr (extract_not_good str rfl)
  | cons c r =>
    rw [← hcons, behind_of_ne_nil (by simp [hcons])]
    rcases extract_first s str with ⟨gap, w, after, hs', hgap, hw, hafter, heq⟩ | hfail
    · -- without a gap the text would go on with a letter of the next word
      have hne : gap ≠ [] := by
        intro hnil
        rw [hnil, List.nil_append] at hs'
        have hword := hw.head? after c (by rw [← hs', hcons]; rfl)
        rw [hs c (by rw [hcons]; rfl)] at hword
        exact absurd hword (by decide)
      exact Or.inl ⟨gap, w, after, hs', ⟨hgap, hne⟩, hw, hafter, heq⟩
    · exact Or.inr hfail

end IStream

/-! ## Writing -/

structure IOStream extends IStream where
  sent : Str := []

namespace IOStream

/-- `ios << text`. -/
def put (ios : IOStream) (text : Str) : IOStream :=
  if ios.good then { ios with sent := ios.sent ++ text } else { ios with fail := true }

theorem put_of_good {ios : IOStream} (text : Str) (h : ios.good = true) :
    ios.put text = { ios with sent := ios.sent ++ text } := by
  unfold put
  rw [if_pos h]

/-- A stream that is not good takes nothing, and stays not good. -/
theorem put_not_good {ios : IOStream} (text : Str) (h : ios.good = false) :
    (ios.put text).sent = ios.sent ∧ (ios.put text).good = false := by
  unfold put
  rw [if_neg (by rw [h]; decide)]
  exact ⟨rfl, by simp [IStream.good]⟩

/-- A stream that is good takes the text, and stays good. -/
theorem put_good {ios : IOStream} (text : Str) (h : ios.good = true) :
    (ios.put text).sent = ios.sent ++ text ∧ (ios.put text).good = true := by
  rw [put_of_good text h]
  exact ⟨rfl, h⟩

end IOStream

end Cpp
