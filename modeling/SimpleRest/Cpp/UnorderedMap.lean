import Mathlib.Data.Finmap
import Mathlib.Tactic.Tauto

/-!
# `std::unordered_map`

A hash map is a finite map: its contents are all a program can rely on. What it may not rely
on is the order in which the map is walked, so an order is a parameter: any function that
lists the entries of a map, each once.
-/

namespace Cpp

universe u v

/-- `std::unordered_map<α, β>`. -/
abbrev UnorderedMap (α : Type u) (β : Type v) := Finmap fun _ : α => β

namespace UnorderedMap

variable {α : Type u} {β : Type v} [DecidableEq α]

/-- `m[k]` read as a value: a key that is not there gets the default value. -/
def index (m : UnorderedMap α β) (k : α) (default : β) : β := (m.lookup k).getD default

@[simp] theorem index_insert (m : UnorderedMap α β) (k : α) (v default : β) :
    index (m.insert k v) k default = v := by
  simp [index, Finmap.lookup_insert]

theorem index_insert_of_ne (m : UnorderedMap α β) {k k' : α} (v default : β) (h : k' ≠ k) :
    index (m.insert k v) k' default = index m k' default := by
  simp [index, Finmap.lookup_insert_of_ne m h]

theorem lookup_insert_eq (m : UnorderedMap α β) (k k' : α) (v : β) :
    (m.insert k v).lookup k' = if k' = k then some v else m.lookup k' := by
  split
  · next h => rw [h, Finmap.lookup_insert]
  · next h => rw [Finmap.lookup_insert_of_ne m h]

theorem keys_insert (m : UnorderedMap α β) (k : α) (v : β) :
    (m.insert k v).keys = insert k m.keys := by
  ext k'
  rw [Finmap.mem_keys, Finmap.mem_insert, Finset.mem_insert, Finmap.mem_keys]

/-! ## Entries made one after the other -/

/-- `m[k] = v` for every `(k, v)` in turn. -/
def insertAll (m : UnorderedMap α β) (entries : List (α × β)) : UnorderedMap α β :=
  entries.foldl (fun m e => m.insert e.1 e.2) m

theorem insertAll_append (m : UnorderedMap α β) (es es' : List (α × β)) :
    insertAll m (es ++ es') = insertAll (insertAll m es) es' := by
  rw [insertAll, List.foldl_append]
  rfl

theorem mem_insertAll (m : UnorderedMap α β) (entries : List (α × β)) (k : α) :
    k ∈ insertAll m entries ↔ k ∈ m ∨ k ∈ entries.map Prod.fst := by
  induction entries generalizing m with
  | nil => simp [insertAll]
  | cons e entries ih =>
    show k ∈ insertAll (m.insert e.1 e.2) entries ↔ _
    rw [ih, Finmap.mem_insert, List.map_cons, List.mem_cons]
    tauto

theorem lookup_insertAll_of_notMem (m : UnorderedMap α β) {entries : List (α × β)} {k : α}
    (h : k ∉ entries.map Prod.fst) : (insertAll m entries).lookup k = m.lookup k := by
  induction entries generalizing m with
  | nil => rfl
  | cons e entries ih =>
    rw [List.map_cons, List.mem_cons, not_or] at h
    show (insertAll (m.insert e.1 e.2) entries).lookup k = _
    rw [ih _ h.2, lookup_insert_eq, if_neg h.1]

/-- What is found is an entry, or was there before. -/
theorem lookup_insertAll_cases (m : UnorderedMap α β) {entries : List (α × β)} {k : α} {v : β}
    (h : (insertAll m entries).lookup k = some v) : (k, v) ∈ entries ∨ m.lookup k = some v := by
  induction entries generalizing m with
  | nil => exact Or.inr h
  | cons e entries ih =>
    rcases ih _ h with hrest | hhere
    · exact Or.inl (List.mem_cons_of_mem e hrest)
    · rw [lookup_insert_eq] at hhere
      split at hhere
      · next hk =>
        rw [hk, ← Option.some.inj hhere]
        exact Or.inl List.mem_cons_self
      · exact Or.inr hhere

/-- The last entry made for a key is the one that stays. -/
theorem lookup_insertAll_last (m : UnorderedMap α β) (before : List (α × β)) (k : α) (v : β)
    {after : List (α × β)} (h : k ∉ after.map Prod.fst) :
    (insertAll m (before ++ (k, v) :: after)).lookup k = some v := by
  rw [insertAll_append]
  show (insertAll ((insertAll m before).insert k v) after).lookup k = _
  rw [lookup_insertAll_of_notMem _ h, Finmap.lookup_insert]

/-- Keys that come once keep what is entered for them. -/
theorem lookup_insertAll_of_nodup (m : UnorderedMap α β) {entries : List (α × β)}
    (hnodup : (entries.map Prod.fst).Nodup) {e : α × β} (he : e ∈ entries) :
    (insertAll m entries).lookup e.1 = some e.2 := by
  obtain ⟨before, after, heq⟩ := List.append_of_mem he
  rw [heq, List.map_append, List.map_cons, List.nodup_append, List.nodup_cons] at hnodup
  rw [heq]
  exact lookup_insertAll_last m before e.1 e.2 hnodup.2.1.1

/-- A function of the values can be applied before they are entered. -/
theorem lookup_insertAll_map (entries : List (α × β)) (σ : β → β) (k : α) :
    (insertAll ∅ (entries.map (Prod.map id σ))).lookup k =
      ((insertAll ∅ entries).lookup k).map σ := by
  have hfold : ∀ (entries : List (α × β)) (m m' : UnorderedMap α β),
      (∀ k, m'.lookup k = (m.lookup k).map σ) →
      (insertAll m' (entries.map (Prod.map id σ))).lookup k =
        ((insertAll m entries).lookup k).map σ := by
    intro entries
    induction entries with
    | nil =>
      intro m m' h
      exact h k
    | cons e entries ih =>
      intro m m' h
      refine ih (m.insert e.1 e.2) (m'.insert e.1 (σ e.2)) fun k => ?_
      rw [lookup_insert_eq, lookup_insert_eq, h k]
      split
      · rfl
      · rfl
  exact hfold entries ∅ ∅ fun k => by rw [Finmap.lookup_empty]; rfl

end UnorderedMap

/-- The order in which an implementation walks its maps. -/
structure IterationOrder (α : Type u) (β : Type v) where
  list : UnorderedMap α β → List (α × β)
  entries : ∀ m, (((list m).map fun e => (⟨e.1, e.2⟩ : Sigma fun _ : α => β)) : Multiset _) =
    m.entries

namespace IterationOrder

variable {α : Type u} {β : Type v} [DecidableEq α]

theorem mem_list (order : IterationOrder α β) (m : UnorderedMap α β) (k : α) (v : β) :
    (k, v) ∈ order.list m ↔ m.lookup k = some v := by
  rw [Finmap.lookup_eq_some_iff, ← order.entries m]
  simp only [Multiset.mem_coe, List.mem_map, Prod.exists, Sigma.mk.injEq, heq_eq_eq]
  refine ⟨?_, ?_⟩
  · intro h
    exact ⟨k, v, h, rfl, rfl⟩
  · rintro ⟨a, b, h, rfl, rfl⟩
    exact h

omit [DecidableEq α] in
theorem nodup_keys (order : IterationOrder α β) (m : UnorderedMap α β) :
    ((order.list m).map Prod.fst).Nodup := by
  have h := m.nodupKeys
  rw [← order.entries m, Multiset.coe_nodupKeys, List.NodupKeys] at h
  simpa [List.keys, Function.comp_def] using h

/-- Entering what a map lists makes the map again. -/
theorem insertAll_list (order : IterationOrder α β) (m : UnorderedMap α β) :
    UnorderedMap.insertAll ∅ (order.list m) = m := by
  refine Finmap.ext_lookup fun k => ?_
  cases hk : m.lookup k with
  | none =>
    have hkeys : k ∉ (order.list m).map Prod.fst := by
      intro hmem
      obtain ⟨e, he, hek⟩ := List.mem_map.mp hmem
      have hlookup := (order.mem_list m e.1 e.2).mp he
      rw [hek, hk] at hlookup
      cases hlookup
    rw [UnorderedMap.lookup_insertAll_of_notMem ∅ hkeys, Finmap.lookup_empty]
  | some v =>
    have he : (k, v) ∈ order.list m := (order.mem_list m k v).mpr hk
    exact UnorderedMap.lookup_insertAll_of_nodup ∅ (order.nodup_keys m) he

/-- Walking maps in some order is possible. -/
noncomputable def arbitrary : IterationOrder α β where
  list m := m.entries.toList.map fun e => (e.1, e.2)
  entries m := by
    simp only [List.map_map, Function.comp_def]
    rw [List.map_id', Multiset.coe_toList]

end IterationOrder

end Cpp
