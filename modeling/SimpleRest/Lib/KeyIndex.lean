import Mathlib.Data.Finmap
import Mathlib.Data.Set.Function

/-!
# A map as the index of a set

The members of a set are found by a key that each of them has. `IndexedBy key members m` says that
the finite map `m` finds exactly these members, each under its own key. The keys are then distinct,
a new member can be entered under a key that is not taken, and a member can be taken out by its key
alone, without a loss for the others.
-/

namespace KeyIndex

universe u

variable {κ α : Type u} [DecidableEq κ] {key : α → κ} {members members' : Set α}

/-- `m` finds the members, and nothing else, each under its own key. -/
def IndexedBy (key : α → κ) (members : Set α) (m : Finmap fun _ : κ => α) : Prop :=
  ∀ k a, m.lookup k = some a ↔ a ∈ members ∧ key a = k

variable {m : Finmap fun _ : κ => α}

theorem indexedBy_empty : IndexedBy key ∅ ∅ := by
  intro k a
  rw [Finmap.lookup_empty]
  exact iff_of_false nofun fun h => h.1

namespace IndexedBy

theorem lookup (h : IndexedBy key members m) {a : α} (ha : a ∈ members) :
    m.lookup (key a) = some a :=
  (h (key a) a).mpr ⟨ha, rfl⟩

theorem mem_iff (h : IndexedBy key members m) (k : κ) : k ∈ m ↔ ∃ a ∈ members, key a = k := by
  rw [← Finmap.lookup_isSome, Option.isSome_iff_exists]
  exact exists_congr fun a => h k a

/-- Two members that share a key are one. -/
theorem injOn (h : IndexedBy key members m) : Set.InjOn key members := by
  intro a ha b hb hkey
  have hlookup := h.lookup ha
  rw [hkey, h.lookup hb] at hlookup
  exact (Option.some.inj hlookup).symm

theorem eq_empty (h : IndexedBy key members m) (hnone : members = ∅) : m = ∅ := by
  refine Finmap.ext_lookup fun k => ?_
  rw [Finmap.lookup_empty]
  refine Option.eq_none_iff_forall_not_mem.mpr fun a ha => ?_
  have hmem := ((h k a).mp ha).1
  rw [hnone] at hmem
  exact hmem

theorem insert (h : IndexedBy key members m) {a : α} (hfresh : key a ∉ m)
    (hmembers : ∀ b, b ∈ members' ↔ b ∈ members ∨ b = a) :
    IndexedBy key members' (m.insert (key a) a) := by
  intro k b
  rw [hmembers]
  by_cases hk : k = key a
  · rw [hk, Finmap.lookup_insert]
    refine ⟨fun hb => ?_, fun hb => ?_⟩
    · have heq : a = b := Option.some.inj hb
      exact ⟨Or.inr heq.symm, by rw [heq]⟩
    · rcases hb.1 with hmem | heq
      · exact absurd ((h.mem_iff (key a)).mpr ⟨b, hmem, hb.2⟩) hfresh
      · rw [heq]
  · rw [Finmap.lookup_insert_of_ne m hk, h k b]
    refine ⟨fun hb => ⟨Or.inl hb.1, hb.2⟩, fun hb => ⟨?_, hb.2⟩⟩
    rcases hb.1 with hmem | heq
    · exact hmem
    · rw [heq] at hb
      exact absurd hb.2.symm hk

theorem erase (h : IndexedBy key members m) {a : α} (ha : a ∈ members)
    (hmembers : ∀ b, b ∈ members' ↔ b ∈ members ∧ b ≠ a) :
    IndexedBy key members' (m.erase (key a)) := by
  intro k b
  rw [hmembers]
  by_cases hk : k = key a
  · rw [hk, Finmap.lookup_erase]
    refine iff_of_false nofun fun hb => ?_
    -- under this key there was nothing else
    exact hb.1.2 (h.injOn hb.1.1 ha hb.2)
  · rw [Finmap.lookup_erase_ne hk, h k b]
    refine ⟨fun hb => ⟨⟨hb.1, fun heq => ?_⟩, hb.2⟩, fun hb => ⟨hb.1.1, hb.2⟩⟩
    rw [heq] at hb
    exact hk hb.2.symm

theorem congr (h : IndexedBy key members m) (hmembers : ∀ b, b ∈ members' ↔ b ∈ members) :
    IndexedBy key members' m := by
  intro k b
  rw [hmembers]
  exact h k b

end IndexedBy

end KeyIndex
