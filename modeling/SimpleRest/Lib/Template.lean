import Mathlib.Data.List.Forall2
import Mathlib.Data.List.Nodup

/-!
# Templates

A template is a list whose members are holes with names, or stand for themselves; which of the two
is what `hole` says. Filling it puts a value in the place of every hole. A list fits a template if
it can be cut down to it place by place, where `ok` restricts what may stand in a hole.

- `fits_of_fill`: what a template is filled to fits it;
- `fill_of_bindings`: values that agree with what stands in the holes fill the template to it;
- `fill_injOn`: a filled template gives the values of its holes back.
-/

namespace Template

variable {α κ : Type} {hole : α → Option κ} {ok : α → Prop}

/-- A member of a template with its hole filled. -/
def fill (hole : α → Option κ) (value : κ → α) (p : α) : α :=
  match hole p with
  | some k => value k
  | none => p

/-- The names of the holes, in their order, each as often as it comes. -/
def holes (hole : α → Option κ) (pattern : List α) : List κ := pattern.filterMap hole

/-- A value may stand in a place: in a hole any that is `ok`, elsewhere the member itself. -/
def Fits (hole : α → Option κ) (ok : α → Prop) (p t : α) : Prop :=
  match hole p with
  | some _ => ok t
  | none => p = t

/-- The holes with what stands in their places. -/
def bindings (hole : α → Option κ) (pattern target : List α) : List (κ × α) :=
  (pattern.zip target).filterMap fun x => (hole x.1).map fun k => (k, x.2)

theorem fits_some {p t : α} {k : κ} (hp : hole p = some k) : Fits hole ok p t ↔ ok t := by
  unfold Fits
  rw [hp]

theorem fits_none {p t : α} (hp : hole p = none) : Fits hole ok p t ↔ p = t := by
  unfold Fits
  rw [hp]

theorem fill_some {value : κ → α} {p : α} {k : κ} (hp : hole p = some k) :
    fill hole value p = value k := by
  unfold fill
  rw [hp]

theorem fill_none {value : κ → α} {p : α} (hp : hole p = none) : fill hole value p = p := by
  unfold fill
  rw [hp]

theorem mem_holes {pattern : List α} {k : κ} :
    k ∈ holes hole pattern ↔ ∃ p ∈ pattern, hole p = some k :=
  List.mem_filterMap

/-- Every hole is bound, once for each time it comes. -/
theorem map_fst_bindings : ∀ {pattern target : List α}, pattern.length = target.length →
    (bindings hole pattern target).map Prod.fst = holes hole pattern := by
  intro pattern
  induction pattern with
  | nil =>
    intro target _
    rfl
  | cons p pattern ih =>
    intro target hlen
    cases target with
    | nil => cases hlen
    | cons t target =>
      have ih := ih (Nat.succ.inj hlen)
      unfold bindings holes at ih ⊢
      rw [List.zip_cons_cons, List.filterMap_cons, List.filterMap_cons]
      cases hole p with
      | none => exact ih
      | some k => exact congrArg (List.cons k) ih

/-- What is bound stands somewhere in the list. -/
theorem mem_of_mem_bindings {pattern target : List α} {k : κ} {t : α}
    (h : (k, t) ∈ bindings hole pattern target) : t ∈ target := by
  obtain ⟨x, hx, hbound⟩ := List.mem_filterMap.mp h
  obtain ⟨k', _, heq⟩ := Option.map_eq_some_iff.mp hbound
  rw [← (Prod.mk.inj heq).2]
  exact (List.of_mem_zip hx).2

/-- What is bound in a filled pattern is what it has been filled with. -/
theorem bindings_fill {value : κ → α} {pattern : List α} {k : κ} {t : α}
    (h : (k, t) ∈ bindings hole pattern (pattern.map (fill hole value))) : t = value k := by
  have hzip : pattern.zip (pattern.map (fill hole value)) =
      pattern.map fun p => (p, fill hole value p) := by
    have hboth := List.zip_map' (f := id) (g := fill hole value) (l := pattern)
    rw [List.map_id] at hboth
    exact hboth
  unfold bindings at h
  rw [hzip] at h
  obtain ⟨x, hx, hbound⟩ := List.mem_filterMap.mp h
  obtain ⟨p, _, rfl⟩ := List.mem_map.mp hx
  obtain ⟨k', hk', heq⟩ := Option.map_eq_some_iff.mp hbound
  obtain ⟨rfl, rfl⟩ := Prod.mk.inj heq
  exact fill_some hk'

theorem mem_bindings_ok : ∀ {pattern target : List α},
    List.Forall₂ (Fits hole ok) pattern target →
    ∀ b ∈ bindings hole pattern target, ok b.2 := by
  intro pattern target h
  induction h with
  | nil => nofun
  | @cons p t pattern target hfits _ ih =>
    intro b hb
    unfold bindings at hb ih
    rw [List.zip_cons_cons, List.filterMap_cons] at hb
    cases hp : hole p with
    | none =>
      rw [hp] at hb
      exact ih b hb
    | some k =>
      rw [hp] at hb
      rcases List.mem_cons.mp hb with heq | hb
      · rw [heq]
        exact (fits_some hp).mp hfits
      · exact ih b hb

/-- **What a template is filled to fits it.** -/
theorem fits_of_fill {value : κ → α} : ∀ {pattern : List α},
    (∀ k ∈ holes hole pattern, ok (value k)) →
    List.Forall₂ (Fits hole ok) pattern (pattern.map (fill hole value)) := by
  intro pattern hok
  rw [List.forall₂_map_right_iff, List.forall₂_same]
  intro p hmem
  cases hp : hole p with
  | none => exact (fits_none hp).mpr (fill_none hp).symm
  | some k =>
    rw [fits_some hp, fill_some hp]
    exact hok k (mem_holes.mpr ⟨p, hmem, hp⟩)

/-- **Values that agree with what stands in the holes** fill the template to it. Induction on the
places. -/
theorem fill_of_bindings {value : κ → α} {pattern target : List α}
    (h : List.Forall₂ (Fits hole ok) pattern target)
    (hvalue : ∀ b ∈ bindings hole pattern target, value b.1 = b.2) :
    pattern.map (fill hole value) = target := by
  induction h with
  | nil => rfl
  | @cons p t pattern target hfits _ ih =>
    unfold bindings at hvalue ih
    rw [List.zip_cons_cons, List.filterMap_cons] at hvalue
    rw [List.map_cons]
    cases hp : hole p with
    | none =>
      rw [hp] at hvalue
      rw [fill_none hp, (fits_none hp).mp hfits, ih hvalue]
    | some k =>
      rw [hp] at hvalue
      have hhead : value k = t := hvalue (k, t) List.mem_cons_self
      rw [fill_some hp, hhead, ih fun b hb => hvalue b (List.mem_cons_of_mem _ hb)]

/-- **A filled template gives the values of its holes back.** -/
theorem fill_injOn {value value' : κ → α} {pattern : List α}
    (h : pattern.map (fill hole value) = pattern.map (fill hole value')) :
    ∀ k ∈ holes hole pattern, value k = value' k := by
  intro k hk
  obtain ⟨p, hmem, hp⟩ := mem_holes.mp hk
  have heq := List.map_inj_left.mp h p hmem
  rw [fill_some hp, fill_some hp] at heq
  exact heq

/-- What stands in the place of a hole is bound to it, and the bindings of the places in front of
it and behind it are around this one. -/
theorem bindings_middle {before behind before' behind' : List α} {p t : α} {k : κ}
    (hlen : before.length = before'.length) (hp : hole p = some k) :
    bindings hole (before ++ p :: behind) (before' ++ t :: behind') =
      bindings hole before before' ++ (k, t) :: bindings hole behind behind' := by
  unfold bindings
  rw [List.zip_append hlen, List.filterMap_append, List.zip_cons_cons,
    List.filterMap_cons_some (by rw [hp]; rfl)]

end Template
