import Mathlib.Data.List.Basic

/-!
# Reading what has been written one after the other

A reader takes one item off the front of a text, and leaves the rest. Where it takes off just what
an item has been written as, whatever stands behind it, items that have been written one after the
other are read again; and one item that is not read as itself is enough to lose the sequence.

- `readAll_flatMap`: items that delimit themselves are read back;
- `readAll_flatMap_iff`: and no others are.
-/

namespace SelfDelimiting

variable {α β : Type} {read : List α → Option (β × List α)} {write : β → List α}

/-- Reads items up to the end of the text, so many at most. -/
def readAllFuel (read : List α → Option (β × List α)) : Nat → List α → Option (List β)
  | _, [] => some []
  | 0, _ :: _ => none
  | fuel + 1, a :: s => (read (a :: s)).bind fun p => (readAllFuel read fuel p.2).map (p.1 :: ·)

/-- An item takes a member of the text at least, so there are not more items than members. -/
def readAll (read : List α → Option (β × List α)) (s : List α) : Option (List β) :=
  readAllFuel read s.length s

/-- The item is read as itself, and nothing behind it is touched. -/
def Delimits (read : List α → Option (β × List α)) (write : β → List α) (b : β) : Prop :=
  ∀ rest, read (write b ++ rest) = some (b, rest)

/-- What is read in place of the item is another one. -/
def Mistaken (read : List α → Option (β × List α)) (write : β → List α) (b : β) : Prop :=
  ∀ rest, ∃ b' rest', read (write b ++ rest) = some (b', rest') ∧ b' ≠ b

theorem readAllFuel_append {b : β} (hne : write b ≠ []) (fuel : Nat) (rest : List α) :
    readAllFuel read (fuel + 1) (write b ++ rest) =
      (read (write b ++ rest)).bind fun p => (readAllFuel read fuel p.2).map (p.1 :: ·) := by
  cases hwrite : write b ++ rest with
  | nil => exact absurd (List.append_eq_nil_iff.mp hwrite).1 hne
  | cons a s => rfl

theorem length_le_flatMap {bs : List β} (hne : ∀ b ∈ bs, write b ≠ []) :
    bs.length ≤ (bs.flatMap write).length := by
  induction bs with
  | nil => exact Nat.zero_le _
  | cons b bs ih =>
    have hrest := ih fun b' hb' => hne b' (List.mem_cons_of_mem b hb')
    have hhead := List.length_pos_of_ne_nil (hne b List.mem_cons_self)
    rw [List.flatMap_cons, List.length_append, List.length_cons]
    omega

/-- **Items that delimit themselves are read back.** Induction on the items. -/
theorem readAllFuel_flatMap : ∀ (bs : List β) (fuel : Nat), bs.length ≤ fuel →
    (∀ b ∈ bs, write b ≠ [] ∧ Delimits read write b) →
    readAllFuel read fuel (bs.flatMap write) = some bs := by
  intro bs
  induction bs with
  | nil =>
    intro fuel _ _
    cases fuel with
    | zero => rfl
    | succ fuel => rfl
  | cons b bs ih =>
    intro fuel hfuel h
    cases fuel with
    | zero => exact absurd hfuel (Nat.not_succ_le_zero _)
    | succ fuel =>
      obtain ⟨hne, hdelimits⟩ := h b List.mem_cons_self
      have hrest := ih fuel (Nat.le_of_succ_le_succ hfuel) fun b' hb' =>
        h b' (List.mem_cons_of_mem b hb')
      rw [List.flatMap_cons, readAllFuel_append hne, hdelimits, Option.bind_some, hrest]
      rfl

theorem readAll_flatMap {bs : List β} (h : ∀ b ∈ bs, write b ≠ [] ∧ Delimits read write b) :
    readAll read (bs.flatMap write) = some bs :=
  readAllFuel_flatMap bs _ (length_le_flatMap fun b hb => (h b hb).1) h

/-- The first item that is mistaken for another one is not got back, whatever is behind it.
Induction on the items. -/
theorem readAllFuel_ne : ∀ (bs : List β) (fuel : Nat),
    (∀ b ∈ bs, write b ≠ [] ∧ (Delimits read write b ∨ Mistaken read write b)) →
    (∃ b ∈ bs, Mistaken read write b) → readAllFuel read fuel (bs.flatMap write) ≠ some bs := by
  intro bs
  induction bs with
  | nil =>
    intro fuel _ hmistaken
    obtain ⟨b, hb, _⟩ := hmistaken
    cases hb
  | cons b bs ih =>
    intro fuel h hmistaken hread
    obtain ⟨hne, hcases⟩ := h b List.mem_cons_self
    cases fuel with
    | zero =>
      cases hwrite : write b ++ bs.flatMap write with
      | nil => exact hne (List.append_eq_nil_iff.mp hwrite).1
      | cons a s =>
        rw [List.flatMap_cons, hwrite] at hread
        cases hread
    | succ fuel =>
      rw [List.flatMap_cons, readAllFuel_append hne] at hread
      rcases hcases with hdelimits | hother
      · -- this one is read, so it is a later one
        have hlater : ∃ b' ∈ bs, Mistaken read write b' := by
          obtain ⟨b', hb', hm⟩ := hmistaken
          rcases List.mem_cons.mp hb' with heq | htail
          · obtain ⟨b'', _, hr, hdiff⟩ := hm []
            rw [heq, hdelimits, Option.some.injEq, Prod.mk.injEq] at hr
            exact absurd hr.1.symm (heq ▸ hdiff)
          · exact ⟨b', htail, hm⟩
        rw [hdelimits, Option.bind_some] at hread
        obtain ⟨items, hitems, heq⟩ := Option.map_eq_some_iff.mp hread
        rw [(List.cons.inj heq).2] at hitems
        exact ih fuel (fun b' hb' => h b' (List.mem_cons_of_mem b hb')) hlater hitems
      · obtain ⟨b', rest', hr, hdiff⟩ := hother (bs.flatMap write)
        rw [hr, Option.bind_some] at hread
        obtain ⟨items, _, heq⟩ := Option.map_eq_some_iff.mp hread
        exact hdiff (List.cons.inj heq).1

/-- **A sequence is read back if and only if each of its items delimits itself**, where an item that
does not is mistaken for another one. -/
theorem readAll_flatMap_iff {bs : List β}
    (h : ∀ b ∈ bs, write b ≠ [] ∧ (Delimits read write b ∨ Mistaken read write b)) :
    readAll read (bs.flatMap write) = some bs ↔ ∀ b ∈ bs, Delimits read write b := by
  refine ⟨fun hread b hb => ?_, fun hall => readAll_flatMap fun b hb => ⟨(h b hb).1, hall b hb⟩⟩
  rcases (h b hb).2 with hdelimits | hmistaken
  · exact hdelimits
  · exact absurd hread (readAllFuel_ne bs _ h ⟨b, hb, hmistaken⟩)

end SelfDelimiting
