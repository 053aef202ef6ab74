import Mathlib.Algebra.Group.Nat.Defs
import Mathlib.Data.List.Basic
import Mathlib.Data.List.TakeWhile

/-!
# C++ strings as lists of characters

The part of `std::string` the development uses, for any program: positions that may be
`npos`, the searches for one character, `substr` with its range check, and `front`.
A `char` is a `Char`; every byte is one, so a statement about all lists of characters
covers all byte strings, and the length of a list is a number of bytes.
-/

namespace Cpp

abbrev Str := List Char

/-- The result of a search: `none` is `std::string::npos`. -/
abbrev Pos := Option Nat

/-- `pos + 1` on `size_type`: `npos` is the largest value, so its successor wraps to `0`. -/
def Pos.succ : Pos → Nat
  | none => 0
  | some n => n + 1

/-- `find` of a one-character pattern, and `find_first_of` of one character. -/
def find (s : Str) (c : Char) : Pos := s.findIdx? (· == c)

/-- `rfind` of a one-character pattern. -/
def rfind (s : Str) (c : Char) : Pos := (find s.reverse c).map fun n => s.length - (n + 1)

/-- `a - b` on `size_type`, which has 64 bits. -/
def sizeSub (a b : Nat) : Nat := (a + (2 ^ 64 - b)) % 2 ^ 64

/-- `s.substr(pos, n)`. `none` stands for the `std::out_of_range` it throws when `pos` is
past the end; a count of `npos` takes everything. -/
def substr? (s : Str) (pos : Nat) (n : Pos) : Option Str :=
  if pos ≤ s.length then
    match n with
    | none => some (s.drop pos)
    | some n => some ((s.drop pos).take n)
  else none

/-- `s.front()`. On the empty string this reads the terminator. -/
def front (s : Str) : Char := s.headD (Char.ofNat 0)

/-! ## Sizes -/

theorem sizeSub_of_le {a b : Nat} (hb : b ≤ a) (ha : a < 2 ^ 64) : sizeSub a b = a - b := by
  unfold sizeSub
  rw [show a + (2 ^ 64 - b) = a - b + 2 ^ 64 by omega, Nat.add_mod_right,
    Nat.mod_eq_of_lt (by omega)]

/-- Nothing minus something wraps around. -/
theorem sizeSub_zero_left {b : Nat} (hb : b ≠ 0) (hlt : b < 2 ^ 64) :
    sizeSub 0 b = 2 ^ 64 - b := by
  unfold sizeSub
  rw [Nat.zero_add, Nat.mod_eq_of_lt (by omega)]

/-! ## Searching -/

theorem ne_of_notMem {a : Str} {d : Char} (ha : d ∉ a) : ∀ c ∈ a, (c != d) = true := by
  intro c hc
  have hne : c ≠ d := fun e => ha (e ▸ hc)
  simpa using hne

theorem find_eq_none {s : Str} {c : Char} : find s c = none ↔ c ∉ s := by
  unfold find
  rw [List.findIdx?_eq_none_iff]
  refine ⟨?_, ?_⟩
  · intro h hc
    simpa using h c hc
  · intro h x hx
    simpa using ne_of_notMem h x hx

/-- The first occurrence is found behind a piece without the character. -/
theorem find_append {a b : Str} {c : Char} (ha : c ∉ a) : find (a ++ c :: b) c = some a.length := by
  unfold find
  induction a with
  | nil => simp [List.findIdx?_cons]
  | cons x a ih =>
    have hx : x ≠ c := fun e => ha (by simp [e])
    have hrest : c ∉ a := fun h => ha (List.mem_cons_of_mem x h)
    simp [List.findIdx?_cons, hx, ih hrest]

theorem find_lt {s : Str} {c : Char} {n : Nat} (h : find s c = some n) : n < s.length := by
  unfold find at h
  rw [List.findIdx?_eq_some_iff_getElem] at h
  exact h.1

/-- A position that `rfind` finds is in the string. -/
theorem rfind_lt {s : Str} {c : Char} {n : Nat} (h : rfind s c = some n) : n < s.length := by
  unfold rfind at h
  obtain ⟨m, hm, hn⟩ := Option.map_eq_some_iff.mp h
  have hlt := find_lt hm
  rw [List.length_reverse] at hlt
  omega

theorem rfind_eq_none {s : Str} {c : Char} : rfind s c = none ↔ c ∉ s := by
  unfold rfind
  rw [Option.map_eq_none_iff, find_eq_none, List.mem_reverse]

/-- The last occurrence is found in front of a piece without the character. -/
theorem rfind_append {a b : Str} {c : Char} (hb : c ∉ b) :
    rfind (a ++ c :: b) c = some a.length := by
  have hreverse : (a ++ c :: b).reverse = b.reverse ++ c :: a.reverse := by simp
  unfold rfind
  rw [hreverse, find_append (by simpa using hb), Option.map_some, List.length_reverse,
    List.length_append, List.length_cons]
  congr 1
  omega

/-! ## Cutting where a property first fails -/

/-- A piece with the property, up to where it first fails. -/
theorem takeWhile_stop {p : Char → Bool} {a b : Str} (ha : ∀ c ∈ a, p c = true)
    (hb : ∀ c ∈ b.head?, p c = false) : (a ++ b).takeWhile p = a := by
  rw [List.takeWhile_append_of_pos ha]
  cases b with
  | nil => simp
  | cons c b => simp [hb c rfl]

theorem dropWhile_stop {p : Char → Bool} {a b : Str} (ha : ∀ c ∈ a, p c = true)
    (hb : ∀ c ∈ b.head?, p c = false) : (a ++ b).dropWhile p = b := by
  rw [List.dropWhile_append_of_pos ha]
  cases b with
  | nil => rfl
  | cons c b => simp [hb c rfl]

/-- What follows a piece with the property begins without it. -/
theorem head?_dropWhile (p : Char → Bool) (s : Str) : ∀ c ∈ (s.dropWhile p).head?, p c = false := by
  intro c hc
  have h := List.head?_dropWhile_not p s
  rw [Option.mem_def.mp hc] at h
  exact h

/-- Two ways to cut a text where a property first fails are the same. -/
theorem cut_unique {p : Char → Bool} {a b a' b' : Str} (h : a ++ b = a' ++ b')
    (ha : ∀ c ∈ a, p c = true) (hb : ∀ c ∈ b.head?, p c = false)
    (ha' : ∀ c ∈ a', p c = true) (hb' : ∀ c ∈ b'.head?, p c = false) : a = a' ∧ b = b' := by
  have htake := takeWhile_stop ha hb
  have hdrop := dropWhile_stop ha hb
  rw [h, takeWhile_stop ha' hb'] at htake
  rw [h, dropWhile_stop ha' hb'] at hdrop
  exact ⟨htake.symm, hdrop.symm⟩

/-- A text is cut at the last occurrence of a character in one way. -/
theorem cut_last_unique {d : Char} {a b a' b' : Str} (h : a ++ d :: b = a' ++ d :: b')
    (hb : d ∉ b) (hb' : d ∉ b') : a = a' ∧ b = b' := by
  have hreverse : b.reverse ++ d :: a.reverse = b'.reverse ++ d :: a'.reverse := by
    simpa using congrArg List.reverse h
  have hne : ∀ s : Str, d ∉ s → ∀ c ∈ s.reverse, (c != d) = true :=
    fun s hs => ne_of_notMem (by simpa using hs)
  have hcut := cut_unique (p := (· != d)) hreverse (hne b hb) (by simp) (hne b' hb') (by simp)
  refine ⟨List.reverse_inj.mp ?_, List.reverse_inj.mp hcut.1⟩
  exact (List.cons.inj hcut.2).2

/-- A text with a character is cut at its last occurrence. -/
theorem exists_cut_last {d : Char} {s : Str} (h : d ∈ s) : ∃ a b, s = a ++ d :: b ∧ d ∉ b := by
  obtain ⟨b, a, hab, hb⟩ := List.eq_append_cons_of_mem (List.mem_reverse.mpr h)
  refine ⟨a.reverse, b.reverse, ?_, by simpa using hb⟩
  simpa using congrArg List.reverse hab

/-! ## Substrings -/

@[simp] theorem substr?_zero_length (a b : Str) :
    substr? (a ++ b) 0 (some a.length) = some a := by
  simp [substr?]

@[simp] theorem substr?_zero_none (s : Str) : substr? s 0 none = some s := by
  simp [substr?]

/-- Dropping `pos` characters and asking for at least what is left gives the rest. -/
theorem substr?_tail {a b : Str} {n : Nat} (h : b.length ≤ n) :
    substr? (a ++ b) a.length (some n) = some b := by
  simp [substr?, List.take_of_length_le h]

/-- `s.substr(1, s.length() - 1)` on a non-empty string. -/
theorem substr?_one (c : Char) (s : Str) :
    substr? (c :: s) 1 (some ((c :: s).length - 1)) = some s := by
  have h := substr?_tail (a := [c]) (b := s) (n := (c :: s).length - 1) (by simp)
  simpa using h

@[simp] theorem front_cons (c : Char) (s : Str) : front (c :: s) = c := rfl

end Cpp
