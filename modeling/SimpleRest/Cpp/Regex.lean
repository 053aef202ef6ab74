import Mathlib.Data.List.Basic
import Mathlib.Logic.Function.Basic

/-!
# Backtracking regular expressions with capture groups

The matching rules of ECMAScript expressions without look-around and back references, over
any alphabet. `run` lists the ways a match can go from a position, best first: the left
branch of an alternative before the right one, one more pass of a repetition before none.
A full match takes the first way that uses up the input, and with it the captures.

The limits of an implementation are not part of these rules: a library that searches with a stack or
counts its steps may give up on a long input that is matched here.

* `Consumes r w c c'` is the meaning without the order: `r` can use up exactly `w` and turn
  the captures `c` into `c'`; `mem_run_iff` says that `run` lists exactly these.
* `Plain r L` is the rule set for expressions without captures: `r` uses up exactly the
  words of `L`.
* `consumes_star_group`: a group inside a repetition keeps its last pass.
* `fullMatch_seq_alt`: the order of alternatives, as the search sees it.
-/

universe u

/-- What each group holds; `none` for a group that took no part. -/
abbrev Captures (α : Type u) := Nat → Option (List α)

def Captures.set {α : Type u} (c : Captures α) (n : Nat) (w : List α) : Captures α :=
  Function.update c n (some w)

inductive Regex (α : Type u) where
  | eps
  | set (p : α → Bool)
  | seq (a b : Regex α)
  | alt (a b : Regex α)
  | star (a : Regex α)
  | group (n : Nat) (a : Regex α)

namespace Regex

variable {α : Type u}

/-- `a+` -/
def plus (a : Regex α) : Regex α := .seq a (.star a)

/-- `a?`, for an `a` that uses up at least one letter. -/
def opt (a : Regex α) : Regex α := .alt a .eps

/-- The passes of `a*`: at most `fuel`, each of which must use up something. -/
def iterate (f : List α → Captures α → List (List α × Captures α)) :
    Nat → List α → Captures α → List (List α × Captures α)
  | 0, s, c => [(s, c)]
  | fuel + 1, s, c =>
    -- a pass that uses up nothing would be repeated for ever
    ((f s c).filter fun r => r.1.length < s.length).flatMap
      (fun r => iterate f fuel r.1 r.2) ++ [(s, c)]

/-- The ways to match a beginning of `s`, best first: what is left and the captures. -/
def run : Regex α → List α → Captures α → List (List α × Captures α)
  | eps, s, c => [(s, c)]
  | set _, [], _ => []
  | set p, x :: s, c => if p x then [(s, c)] else []
  | seq a b, s, c => (a.run s c).flatMap fun r => b.run r.1 r.2
  | alt a b, s, c => a.run s c ++ b.run s c
  | star a, s, c => iterate a.run s.length s c
  | group n a, s, c => (a.run s c).map fun r => (r.1, r.2.set n (s.take (s.length - r.1.length)))

/-- The captures of the first way to use up all of `s`. -/
def fullMatch (r : Regex α) (s : List α) (c : Captures α) : Option (Captures α) :=
  ((r.run s c).find? (·.1.isEmpty)).map Prod.snd

/-! ## The meaning of an expression -/

inductive Consumes : Regex α → List α → Captures α → Captures α → Prop where
  | eps (c : Captures α) : Consumes .eps [] c c
  | set {p : α → Bool} {x : α} (c : Captures α) (hx : p x = true) : Consumes (.set p) [x] c c
  | seq {a b : Regex α} {u v : List α} {c c₁ c' : Captures α}
      (ha : Consumes a u c c₁) (hb : Consumes b v c₁ c') : Consumes (.seq a b) (u ++ v) c c'
  | altLeft {a b : Regex α} {w : List α} {c c' : Captures α}
      (ha : Consumes a w c c') : Consumes (.alt a b) w c c'
  | altRight {a b : Regex α} {w : List α} {c c' : Captures α}
      (hb : Consumes b w c c') : Consumes (.alt a b) w c c'
  | starNil {a : Regex α} (c : Captures α) : Consumes (.star a) [] c c
  | starCons {a : Regex α} {u v : List α} {c c₁ c' : Captures α} (hu : u ≠ [])
      (ha : Consumes a u c c₁) (hs : Consumes (.star a) v c₁ c') :
      Consumes (.star a) (u ++ v) c c'
  | group {n : Nat} {a : Regex α} {w : List α} {c c' : Captures α}
      (ha : Consumes a w c c') : Consumes (.group n a) w c (c'.set n w)

theorem consumes_eps {w : List α} {c c' : Captures α} :
    Consumes .eps w c c' ↔ w = [] ∧ c' = c := by
  refine ⟨?_, ?_⟩
  · rintro ⟨⟩
    exact ⟨rfl, rfl⟩
  · rintro ⟨rfl, rfl⟩
    exact .eps _

theorem consumes_set {p : α → Bool} {w : List α} {c c' : Captures α} :
    Consumes (.set p) w c c' ↔ (∃ x, p x = true ∧ w = [x]) ∧ c' = c := by
  refine ⟨?_, ?_⟩
  · rintro ⟨⟩
    next x hx => exact ⟨⟨x, hx, rfl⟩, rfl⟩
  · rintro ⟨⟨x, hx, rfl⟩, rfl⟩
    exact .set _ hx

theorem consumes_seq {a b : Regex α} {w : List α} {c c' : Captures α} :
    Consumes (.seq a b) w c c' ↔
      ∃ u v c₁, w = u ++ v ∧ Consumes a u c c₁ ∧ Consumes b v c₁ c' := by
  refine ⟨?_, ?_⟩
  · rintro ⟨⟩
    next u v c₁ ha hb => exact ⟨u, v, c₁, rfl, ha, hb⟩
  · rintro ⟨u, v, c₁, rfl, ha, hb⟩
    exact .seq ha hb

theorem consumes_alt {a b : Regex α} {w : List α} {c c' : Captures α} :
    Consumes (.alt a b) w c c' ↔ Consumes a w c c' ∨ Consumes b w c c' := by
  refine ⟨?_, ?_⟩
  · rintro ⟨⟩
    next ha => exact .inl ha
    next hb => exact .inr hb
  · rintro (ha | hb)
    · exact .altLeft ha
    · exact .altRight hb

theorem consumes_group {n : Nat} {a : Regex α} {w : List α} {c c' : Captures α} :
    Consumes (.group n a) w c c' ↔ ∃ c₁, Consumes a w c c₁ ∧ c' = c₁.set n w := by
  refine ⟨?_, ?_⟩
  · rintro ⟨⟩
    next c₁ ha => exact ⟨c₁, ha, rfl⟩
  · rintro ⟨c₁, ha, rfl⟩
    exact .group ha

/-! ## The search lists exactly the meaning -/

/-- The passes of a repetition, given that one pass is listed exactly. Induction on the fuel,
which the strictly shorter remainder of a pass never exhausts. -/
theorem mem_iterate_iff {a : Regex α}
    (ha : ∀ s c s' c', (s', c') ∈ a.run s c ↔ ∃ w, s = w ++ s' ∧ Consumes a w c c') :
    ∀ fuel s c s' c', s.length ≤ fuel →
      ((s', c') ∈ iterate a.run fuel s c ↔ ∃ w, s = w ++ s' ∧ Consumes (.star a) w c c') := by
  intro fuel
  induction fuel with
  | zero =>
    intro s c s' c' hlen
    have hs : s = [] := List.length_eq_zero_iff.mp (by omega)
    subst hs
    simp only [iterate, List.mem_singleton, Prod.mk.injEq]
    refine ⟨?_, ?_⟩
    · rintro ⟨rfl, rfl⟩
      exact ⟨[], rfl, .starNil _⟩
    · rintro ⟨w, hw, hstar⟩
      obtain ⟨rfl, rfl⟩ := List.append_eq_nil_iff.mp hw.symm
      generalize hnil : ([] : List α) = w at hstar
      cases hstar with
      | starNil => exact ⟨rfl, rfl⟩
      -- a pass would have used up a letter of the empty word
      | starCons hu _ _ => exact absurd (List.append_eq_nil_iff.mp hnil.symm).1 hu
  | succ fuel ih =>
    intro s c s' c' hlen
    simp only [iterate, List.mem_append, List.mem_flatMap, List.mem_filter, decide_eq_true_eq,
      List.mem_singleton, Prod.mk.injEq, Prod.exists]
    refine ⟨?_, ?_⟩
    · rintro (⟨s₁, c₁, ⟨hmem, hlt⟩, hrest⟩ | ⟨rfl, rfl⟩)
      · -- the first pass, and the others from where it stopped
        obtain ⟨u, rfl, hu⟩ := (ha s c s₁ c₁).mp hmem
        obtain ⟨v, rfl, hv⟩ := (ih s₁ c₁ s' c' (by omega)).mp hrest
        have hne : u ≠ [] := by
          rintro rfl
          simp at hlt
        exact ⟨u ++ v, by simp, .starCons hne hu hv⟩
      · exact ⟨[], rfl, .starNil _⟩
    · rintro ⟨w, rfl, hstar⟩
      cases hstar with
      | starNil => exact .inr ⟨by simp, rfl⟩
      | @starCons _ u v _ c₁ _ hne hu hv =>
        -- the pass used up `u`, so what is left is shorter than the fuel
        have hpos : 0 < u.length := List.length_pos_iff.mpr hne
        refine .inl ⟨v ++ s', c₁, ⟨(ha _ _ _ _).mpr ⟨u, by simp, hu⟩, ?_⟩, ?_⟩
        · simp only [List.length_append]
          omega
        · refine (ih _ _ _ _ ?_).mpr ⟨v, rfl, hv⟩
          simp only [List.length_append] at hlen ⊢
          omega

/-- **`run` lists exactly what the expression can use up.** Induction on the expression. -/
theorem mem_run_iff (r : Regex α) :
    ∀ s c s' c', (s', c') ∈ r.run s c ↔ ∃ w, s = w ++ s' ∧ Consumes r w c c' := by
  induction r with
  | eps =>
    intro s c s' c'
    simp only [run, List.mem_singleton, Prod.mk.injEq, consumes_eps]
    refine ⟨?_, ?_⟩
    · rintro ⟨rfl, rfl⟩
      exact ⟨[], rfl, rfl, rfl⟩
    · rintro ⟨w, rfl, rfl, rfl⟩
      exact ⟨rfl, rfl⟩
  | set p =>
    intro s c s' c'
    simp only [consumes_set]
    cases s with
    | nil =>
      simp only [run, List.not_mem_nil, false_iff]
      rintro ⟨w, hw, ⟨x, _, rfl⟩, _⟩
      simp at hw
    | cons x s =>
      simp only [run]
      refine ⟨?_, ?_⟩
      · intro h
        split at h
        · next hx =>
          simp only [List.mem_singleton, Prod.mk.injEq] at h
          obtain ⟨rfl, rfl⟩ := h
          exact ⟨[x], rfl, ⟨x, hx, rfl⟩, rfl⟩
        · simp at h
      · rintro ⟨w, hw, ⟨y, hy, rfl⟩, rfl⟩
        simp only [List.singleton_append, List.cons.injEq] at hw
        obtain ⟨rfl, rfl⟩ := hw
        simp [hy]
  | seq a b iha ihb =>
    intro s c s' c'
    simp only [run, List.mem_flatMap, Prod.exists, consumes_seq]
    refine ⟨?_, ?_⟩
    · rintro ⟨s₁, c₁, h₁, h₂⟩
      obtain ⟨u, rfl, hu⟩ := (iha s c s₁ c₁).mp h₁
      obtain ⟨v, rfl, hv⟩ := (ihb s₁ c₁ s' c').mp h₂
      exact ⟨u ++ v, by simp, u, v, c₁, rfl, hu, hv⟩
    · rintro ⟨w, rfl, u, v, c₁, rfl, hu, hv⟩
      exact ⟨v ++ s', c₁, (iha _ _ _ _).mpr ⟨u, by simp, hu⟩, (ihb _ _ _ _).mpr ⟨v, rfl, hv⟩⟩
  | alt a b iha ihb =>
    intro s c s' c'
    simp only [run, List.mem_append, iha s c s' c', ihb s c s' c', consumes_alt]
    refine ⟨?_, ?_⟩
    · rintro (⟨w, hw, h⟩ | ⟨w, hw, h⟩)
      · exact ⟨w, hw, .inl h⟩
      · exact ⟨w, hw, .inr h⟩
    · rintro ⟨w, hw, h | h⟩
      · exact .inl ⟨w, hw, h⟩
      · exact .inr ⟨w, hw, h⟩
  | star a iha =>
    intro s c s' c'
    exact mem_iterate_iff iha s.length s c s' c' (Nat.le_refl _)
  | group n a iha =>
    intro s c s' c'
    simp only [run, List.mem_map, Prod.exists, Prod.mk.injEq, consumes_group]
    refine ⟨?_, ?_⟩
    · rintro ⟨s₁, c₁, hmem, rfl, rfl⟩
      obtain ⟨w, rfl, hw⟩ := (iha s c s₁ c₁).mp hmem
      exact ⟨w, rfl, c₁, hw, by simp⟩
    · rintro ⟨w, rfl, c₁, hw, rfl⟩
      exact ⟨s', c₁, (iha _ _ _ _).mpr ⟨w, rfl, hw⟩, rfl, by simp⟩

/-! ## Full matches -/

theorem fullMatch_sound {r : Regex α} {s : List α} {c c' : Captures α}
    (h : r.fullMatch s c = some c') : Consumes r s c c' := by
  unfold fullMatch at h
  obtain ⟨⟨s', c₁⟩, hfind, rfl⟩ := Option.map_eq_some_iff.mp h
  have hmem := List.mem_of_find?_eq_some hfind
  have hnil : s' = [] := by simpa using List.find?_some hfind
  obtain ⟨w, hs, hw⟩ := (mem_run_iff r s c s' c₁).mp hmem
  rw [hs, hnil, List.append_nil]
  exact hw

theorem fullMatch_isSome_iff {r : Regex α} {s : List α} {c : Captures α} :
    (r.fullMatch s c).isSome = true ↔ ∃ c', Consumes r s c c' := by
  refine ⟨?_, ?_⟩
  · intro h
    obtain ⟨c', hc⟩ := Option.isSome_iff_exists.mp h
    exact ⟨c', fullMatch_sound hc⟩
  · rintro ⟨c', hc⟩
    have hmem : ([], c') ∈ r.run s c := (mem_run_iff r s c [] c').mpr ⟨s, by simp, hc⟩
    simp only [fullMatch, Option.isSome_map, List.find?_isSome]
    exact ⟨_, hmem, rfl⟩

/-- Where all ways to use up the input give the same captures, the order plays no part. -/
theorem fullMatch_eq_some {r : Regex α} {s : List α} {c c' : Captures α}
    (h : Consumes r s c c') (huniq : ∀ c₁, Consumes r s c c₁ → c₁ = c') :
    r.fullMatch s c = some c' := by
  obtain ⟨c₁, hc₁⟩ := Option.isSome_iff_exists.mp (fullMatch_isSome_iff.mpr ⟨c', h⟩)
  rw [hc₁, huniq c₁ (fullMatch_sound hc₁)]

theorem fullMatch_eq_none_iff {r : Regex α} {s : List α} {c : Captures α} :
    r.fullMatch s c = none ↔ ∀ c', ¬ Consumes r s c c' := by
  rw [← Option.not_isSome_iff_eq_none, fullMatch_isSome_iff]
  push Not
  rfl

/-- The left branch of a leading alternative is tried to the end before the right one. -/
theorem fullMatch_seq_alt (a b k : Regex α) (s : List α) (c : Captures α) :
    (seq (alt a b) k).fullMatch s c =
      ((seq a k).fullMatch s c).or ((seq b k).fullMatch s c) := by
  simp only [fullMatch, run, List.flatMap_append, List.find?_append]
  cases List.find? (·.1.isEmpty) ((a.run s c).flatMap fun r => k.run r.1 r.2) <;> rfl

/-! ## Expressions without captures -/

/-- `r` uses up exactly the words of `L` and leaves the captures alone. -/
def Plain (r : Regex α) (L : List α → Prop) : Prop :=
  ∀ w c c', Consumes r w c c' ↔ L w ∧ c' = c

/-- The words of one letter that satisfies `p`. -/
def Single (p : α → Bool) (w : List α) : Prop := ∃ x, p x = true ∧ w = [x]

theorem Plain.eps : Plain (.eps : Regex α) (· = []) := fun _ _ _ => consumes_eps

theorem Plain.set (p : α → Bool) : Plain (.set p) (Single p) := fun _ _ _ => consumes_set

theorem Plain.congr {r : Regex α} {L M : List α → Prop} (h : Plain r L) (hLM : ∀ w, L w ↔ M w) :
    Plain r M := fun w c c' => by rw [h w c c', hLM w]

theorem Plain.seq {a b : Regex α} {L M : List α → Prop} (ha : Plain a L) (hb : Plain b M) :
    Plain (.seq a b) (fun w => ∃ u v, w = u ++ v ∧ L u ∧ M v) := by
  intro w c c'
  rw [consumes_seq]
  refine ⟨?_, ?_⟩
  · rintro ⟨u, v, c₁, hw, h₁, h₂⟩
    obtain ⟨hu, rfl⟩ := (ha u c c₁).mp h₁
    obtain ⟨hv, rfl⟩ := (hb v c₁ c').mp h₂
    exact ⟨⟨u, v, hw, hu, hv⟩, rfl⟩
  · rintro ⟨⟨u, v, hw, hu, hv⟩, rfl⟩
    exact ⟨u, v, c', hw, (ha _ _ _).mpr ⟨hu, rfl⟩, (hb _ _ _).mpr ⟨hv, rfl⟩⟩

theorem Plain.alt {a b : Regex α} {L M : List α → Prop} (ha : Plain a L) (hb : Plain b M) :
    Plain (.alt a b) (fun w => L w ∨ M w) := by
  intro w c c'
  rw [consumes_alt, ha w c c', hb w c c', or_and_right]

theorem Plain.alt_single {a b : Regex α} {p q : α → Bool} (ha : Plain a (Single p))
    (hb : Plain b (Single q)) : Plain (.alt a b) (Single fun x => p x || q x) := by
  refine (ha.alt hb).congr fun w => ?_
  refine ⟨?_, ?_⟩
  · rintro (⟨x, hx, rfl⟩ | ⟨x, hx, rfl⟩)
    · exact ⟨x, by simp [hx], rfl⟩
    · exact ⟨x, by simp [hx], rfl⟩
  · rintro ⟨x, hx, rfl⟩
    rcases Bool.or_eq_true _ _ |>.mp hx with h | h
    · exact .inl ⟨x, h, rfl⟩
    · exact .inr ⟨x, h, rfl⟩

/-- A repetition uses up the concatenations of words of the repeated expression. -/
theorem Plain.star {a : Regex α} {L : List α → Prop} (ha : Plain a L) :
    Plain (.star a) (fun w => ∃ ws : List (List α), w = ws.flatten ∧ ∀ u ∈ ws, L u) := by
  intro w c c'
  refine ⟨?_, ?_⟩
  · -- induction on the passes; the expression is generalized so that the cases stay apart
    intro h
    generalize hr : Regex.star a = r at h
    induction h with
    | starNil c => exact ⟨⟨[], rfl, by simp⟩, rfl⟩
    | starCons hne hu hs _ ih =>
      cases hr
      obtain ⟨hLu, rfl⟩ := (ha _ _ _).mp hu
      obtain ⟨⟨ws, rfl, hws⟩, rfl⟩ := ih rfl
      refine ⟨⟨_ :: ws, rfl, ?_⟩, rfl⟩
      simpa using ⟨hLu, hws⟩
    | _ => cases hr
  · rintro ⟨⟨ws, rfl, hws⟩, rfl⟩
    induction ws with
    | nil => exact .starNil _
    | cons u ws ih =>
      have hrest := ih fun v hv => hws v (List.mem_cons_of_mem u hv)
      by_cases hu : u = []
      · -- an empty word is no pass of its own
        simpa [hu] using hrest
      · exact .starCons hu ((ha _ _ _).mpr ⟨hws u (by simp), rfl⟩) hrest

theorem Plain.plus {a : Regex α} {L : List α → Prop} (ha : Plain a L) :
    Plain a.plus (fun w => ∃ ws : List (List α), ws ≠ [] ∧ w = ws.flatten ∧ ∀ u ∈ ws, L u) := by
  refine (ha.seq ha.star).congr fun w => ?_
  refine ⟨?_, ?_⟩
  · rintro ⟨u, _, rfl, hu, ws, rfl, hws⟩
    exact ⟨u :: ws, by simp, rfl, by simpa using ⟨hu, hws⟩⟩
  · rintro ⟨ws, hne, rfl, hws⟩
    cases ws with
    | nil => exact absurd rfl hne
    | cons u ws =>
      exact ⟨u, ws.flatten, rfl, hws u (by simp), ws, rfl,
        fun v hv => hws v (List.mem_cons_of_mem u hv)⟩

/-- The non-empty words over an alphabet. -/
def Word (p : α → Bool) (w : List α) : Prop := w ≠ [] ∧ ∀ x ∈ w, p x = true

instance [DecidableEq α] (p : α → Bool) (w : List α) : Decidable (Word p w) :=
  @instDecidableAnd _ _ _ (List.decidableBAll (p · = true) w)

theorem Plain.plus_single {a : Regex α} {p : α → Bool} (ha : Plain a (Single p)) :
    Plain a.plus (Word p) := by
  refine ha.plus.congr fun w => ?_
  refine ⟨?_, ?_⟩
  · rintro ⟨ws, hne, rfl, hws⟩
    refine ⟨?_, ?_⟩
    · cases ws with
      | nil => exact absurd rfl hne
      | cons u ws =>
        obtain ⟨x, _, rfl⟩ := hws u (by simp)
        simp
    · intro x hx
      obtain ⟨u, hu, hxu⟩ := List.mem_flatten.mp hx
      obtain ⟨y, hy, rfl⟩ := hws u hu
      rw [List.mem_singleton.mp hxu]
      exact hy
  · rintro ⟨hne, hall⟩
    refine ⟨w.map ([·]), by simpa using hne, ?_, ?_⟩
    · rw [← List.flatMap_def, List.flatMap_singleton']
    · intro u hu
      obtain ⟨x, hx, rfl⟩ := List.mem_map.mp hu
      exact ⟨x, hall x hx, rfl⟩

/-! ## Optional groups and groups in repetitions -/

/-- The captures behind an optional group that took `w`; it took no part when `w` is empty. -/
def keep [DecidableEq α] (c : Captures α) (n : Nat) (w : List α) : Captures α :=
  if w = [] then c else c.set n w

theorem consumes_opt_group [DecidableEq α] {a : Regex α} {L : List α → Prop} (ha : Plain a L)
    (hL : ∀ w, L w → w ≠ []) (n : Nat) {w : List α} {c c' : Captures α} :
    Consumes (.opt (.group n a)) w c c' ↔ (w = [] ∨ L w) ∧ c' = keep c n w := by
  rw [opt, consumes_alt, consumes_group, consumes_eps]
  refine ⟨?_, ?_⟩
  · rintro (⟨c₁, hw, rfl⟩ | ⟨rfl, rfl⟩)
    · obtain ⟨hLw, rfl⟩ := (ha _ _ _).mp hw
      exact ⟨.inr hLw, by rw [keep, if_neg (hL w hLw)]⟩
    · exact ⟨.inl rfl, by rw [keep, if_pos rfl]⟩
  · rintro ⟨hw, rfl⟩
    by_cases hnil : w = []
    · exact .inr ⟨hnil, by rw [keep, if_pos hnil]⟩
    · have hLw : L w := hw.resolve_left hnil
      exact .inl ⟨c, (ha _ _ _).mpr ⟨hLw, rfl⟩, by rw [keep, if_neg hnil]⟩

theorem keep_same [DecidableEq α] (c : Captures α) (n : Nat) (w : List α) :
    ((keep c n w) n).getD [] = if w = [] then (c n).getD [] else w := by
  unfold keep
  split
  · rfl
  · simp [Captures.set]

theorem keep_other [DecidableEq α] (c : Captures α) {n m : Nat} (w : List α) (h : m ≠ n) :
    (keep c n w) m = c m := by
  unfold keep
  split
  · rfl
  · simp [Captures.set, h]

/-- **A group inside a repetition keeps its last pass.** One pass of the repetition is a word
of `L` and then a word of `M`, which the group takes. -/
theorem consumes_star_group {a b : Regex α} {L M : List α → Prop} (ha : Plain a L)
    (hb : Plain b M) (hL : ∀ w, L w → w ≠ []) (n : Nat) {w : List α} {c c' : Captures α} :
    Consumes (.star (.seq a (.group n b))) w c c' ↔
      ∃ l : List (List α × List α), (∀ x ∈ l, L x.1 ∧ M x.2) ∧
        w = l.flatMap (fun x => x.1 ++ x.2) ∧
        c' = (l.getLast?.map fun x => c.set n x.2).getD c := by
  have hone : ∀ {u : List α} {c c₁ : Captures α}, Consumes (.seq a (.group n b)) u c c₁ ↔
      ∃ x : List α × List α, (L x.1 ∧ M x.2) ∧ u = x.1 ++ x.2 ∧ c₁ = c.set n x.2 := by
    intro u c c₁
    simp only [consumes_seq, consumes_group]
    refine ⟨?_, ?_⟩
    · rintro ⟨s, v, d, rfl, hs, d', hv, rfl⟩
      obtain ⟨hLs, rfl⟩ := (ha _ _ _).mp hs
      obtain ⟨hMv, rfl⟩ := (hb _ _ _).mp hv
      exact ⟨(s, v), ⟨hLs, hMv⟩, rfl, rfl⟩
    · rintro ⟨⟨s, v⟩, ⟨hLs, hMv⟩, rfl, rfl⟩
      exact ⟨s, v, c, rfl, (ha _ _ _).mpr ⟨hLs, rfl⟩, c, (hb _ _ _).mpr ⟨hMv, rfl⟩, rfl⟩
  -- setting the group again forgets what an earlier pass put there
  have hset : ∀ (l : List (List α × List α)) (x : List α × List α) (c : Captures α),
      (l.getLast?.map fun y => (c.set n x.2).set n y.2).getD (c.set n x.2) =
        ((x :: l).getLast?.map fun y => c.set n y.2).getD c := by
    intro l x c
    cases l with
    | nil => rfl
    | cons y l =>
      rw [List.getLast?_cons_cons]
      cases h : (y :: l).getLast? with
      | none => simp at h
      | some z => simp [Captures.set]
  refine ⟨?_, ?_⟩
  · intro h
    generalize hr : Regex.star (.seq a (.group n b)) = r at h
    induction h with
    | starNil c => exact ⟨[], by simp, rfl, rfl⟩
    | starCons hne hu hs _ ih =>
      cases hr
      obtain ⟨x, hx, rfl, rfl⟩ := hone.mp hu
      obtain ⟨l, hl, rfl, rfl⟩ := ih rfl
      exact ⟨x :: l, by simpa using ⟨hx, fun a b hab => hl (a, b) hab⟩, by simp, hset l x _⟩
    | _ => cases hr
  · rintro ⟨l, hl, rfl, rfl⟩
    induction l generalizing c with
    | nil => exact .starNil _
    | cons x l ih =>
      have hx := hl x (by simp)
      have hne : x.1 ++ x.2 ≠ [] := fun h => hL x.1 hx.1 (List.append_eq_nil_iff.mp h).1
      rw [List.flatMap_cons, ← hset]
      exact .starCons hne (hone.mpr ⟨x, hx, rfl, rfl⟩)
        (ih fun y hy => hl y (List.mem_cons_of_mem x hy))

end Regex
