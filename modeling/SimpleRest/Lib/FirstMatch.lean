import Mathlib.Data.List.Basic

/-!
# The first element with a property

A search that scans a list from its beginning picks the first element with a property. Here is
what such a choice depends on, for lists over any type: it exists when any element has the
property (`exists_earliest`), it is unique, it does not see what is appended later
(`Earliest.append`) nor what is filtered away without having the property
(`earliest_filter`), and it is carried along by a partial translation of the list
(`Earliest.filterMap`).
-/

namespace FirstMatch

variable {α β : Type}

/-- `x` is the first element of `l` with the property `p`. -/
def Earliest (p : α → Prop) (l : List α) (x : α) : Prop :=
  ∃ before after, l = before ++ x :: after ∧ p x ∧ ∀ y ∈ before, ¬ p y

theorem earliest_cons_of_pos {p : α → Prop} {x : α} (l : List α) (hx : p x) :
    Earliest p (x :: l) x :=
  ⟨[], l, rfl, hx, by simp⟩

theorem earliest_cons_of_neg {p : α → Prop} {x y : α} {l : List α} (hx : ¬ p x) :
    Earliest p (x :: l) y ↔ Earliest p l y := by
  refine ⟨?_, ?_⟩
  · intro h
    obtain ⟨before, after, hl, hy, hbefore⟩ := h
    cases before with
    | nil =>
      -- then `y` would be `x`
      rw [List.nil_append, List.cons.injEq] at hl
      rw [hl.1] at hx
      exact absurd hy hx
    | cons z before =>
      rw [List.cons_append, List.cons.injEq] at hl
      exact ⟨before, after, hl.2, hy, fun w hw => hbefore w (List.mem_cons_of_mem z hw)⟩
  · intro h
    obtain ⟨before, after, hl, hy, hbefore⟩ := h
    refine ⟨x :: before, after, by rw [hl]; rfl, hy, ?_⟩
    intro z hz
    rcases List.mem_cons.mp hz with hz | hz
    · rw [hz]
      exact hx
    · exact hbefore z hz

theorem Earliest.mem {p : α → Prop} {l : List α} {x : α} (h : Earliest p l x) : x ∈ l ∧ p x := by
  obtain ⟨before, after, hl, hx, _⟩ := h
  exact ⟨by rw [hl]; simp, hx⟩

/-- Scanning a list finds the first element with the property. Induction on the list. -/
theorem find?_eq_some_iff {p : α → Prop} [DecidablePred p] {l : List α} {x : α} :
    l.find? (fun y => decide (p y)) = some x ↔ Earliest p l x := by
  induction l with
  | nil =>
    refine ⟨fun h => absurd h (by simp), fun h => ?_⟩
    exact absurd h.mem.1 (by simp)
  | cons y l ih =>
    by_cases hy : p y
    · rw [List.find?_cons_of_pos (by simpa using hy)]
      refine ⟨?_, ?_⟩
      · intro h
        rw [← Option.some.inj h]
        exact earliest_cons_of_pos l hy
      · intro h
        obtain ⟨before, after, hl, _, hbefore⟩ := h
        cases before with
        | nil =>
          rw [List.nil_append, List.cons.injEq] at hl
          rw [hl.1]
        | cons z before =>
          rw [List.cons_append, List.cons.injEq] at hl
          exact absurd hy (hbefore y (by rw [hl.1]; simp))
    · rw [List.find?_cons_of_neg (by simpa using hy), ih, earliest_cons_of_neg hy]

theorem exists_earliest {p : α → Prop} {l : List α} :
    (∃ x, Earliest p l x) ↔ ∃ x ∈ l, p x := by
  refine ⟨fun h => ?_, fun h => ?_⟩
  · obtain ⟨x, hx⟩ := h
    exact ⟨x, hx.mem⟩
  · classical
    cases hfind : l.find? (fun y => decide (p y)) with
    | some x => exact ⟨x, find?_eq_some_iff.mp hfind⟩
    | none =>
      obtain ⟨x, hx, hpx⟩ := h
      have hnot := List.find?_eq_none.mp hfind x hx
      exact absurd hpx (by simpa using hnot)

theorem Earliest.unique {p : α → Prop} {l : List α} {x y : α} (hx : Earliest p l x)
    (hy : Earliest p l y) : x = y := by
  classical
  have h := find?_eq_some_iff.mpr hx
  rw [find?_eq_some_iff.mpr hy] at h
  exact (Option.some.inj h).symm

/-- What comes later does not change the choice. -/
theorem Earliest.append {p : α → Prop} {l : List α} {x : α} (h : Earliest p l x) (l' : List α) :
    Earliest p (l ++ l') x := by
  obtain ⟨before, after, hl, hx, hbefore⟩ := h
  exact ⟨before, after ++ l', by rw [hl]; simp, hx, hbefore⟩

/-- Elements without the property do not change the choice, wherever they stand. -/
theorem earliest_filter {p q : α → Prop} [DecidablePred q] (hpq : ∀ x, p x → q x) {l : List α}
    {x : α} : Earliest p (l.filter fun y => decide (q y)) x ↔ Earliest p l x := by
  induction l with
  | nil => exact Iff.rfl
  | cons y l ih =>
    by_cases hy : q y
    · rw [List.filter_cons_of_pos (by simpa using hy)]
      by_cases hpy : p y
      · -- both lists choose `y`
        refine ⟨fun h => ?_, fun h => ?_⟩
        · rw [h.unique (earliest_cons_of_pos _ hpy)]
          exact earliest_cons_of_pos l hpy
        · rw [h.unique (earliest_cons_of_pos _ hpy)]
          exact earliest_cons_of_pos _ hpy
      · rw [earliest_cons_of_neg hpy, earliest_cons_of_neg hpy, ih]
    · rw [List.filter_cons_of_neg (by simpa using hy), ih,
        earliest_cons_of_neg fun hpy => hy (hpq y hpy)]

/-- An element without the property does not change the choice. Induction on what comes before. -/
theorem earliest_middle {p : α → Prop} {x : α} (hx : ¬ p x) (l l' : List α) {y : α} :
    Earliest p (l ++ x :: l') y ↔ Earliest p (l ++ l') y := by
  induction l with
  | nil => exact earliest_cons_of_neg hx
  | cons z l ih =>
    rw [List.cons_append, List.cons_append]
    by_cases hz : p z
    · refine ⟨fun h => ?_, fun h => ?_⟩
      · rw [h.unique (earliest_cons_of_pos _ hz)]
        exact earliest_cons_of_pos _ hz
      · rw [h.unique (earliest_cons_of_pos _ hz)]
        exact earliest_cons_of_pos _ hz
    · rw [earliest_cons_of_neg hz, earliest_cons_of_neg hz, ih]

/-- A partial translation that keeps the property carries the choice along. -/
theorem Earliest.filterMap {p : α → Prop} {q : β → Prop} {f : α → Option β}
    (hf : ∀ x, p x ↔ ∃ y, f x = some y ∧ q y) {l : List α} {x : α} (h : Earliest p l x) :
    ∃ y, f x = some y ∧ Earliest q (l.filterMap f) y := by
  obtain ⟨before, after, hl, hx, hbefore⟩ := h
  obtain ⟨y, hy, hqy⟩ := (hf x).mp hx
  refine ⟨y, hy, before.filterMap f, after.filterMap f, ?_, hqy, ?_⟩
  · rw [hl, List.filterMap_append, List.filterMap_cons_some hy]
  · intro z hz hqz
    obtain ⟨w, hw, hwz⟩ := List.mem_filterMap.mp hz
    exact hbefore w hw ((hf w).mpr ⟨z, hwz, hqz⟩)

end FirstMatch
