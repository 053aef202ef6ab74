import SimpleRest.Lib.Template

/-!
# Templates compared

One template covers another one if all that fits the second fits the first. Place by place this
means a hole, or the same member that stands for itself. Values that are new to a template tell its
holes from its other members, so a single list decides:

- `Covers.fits`: what fits the covered template fits the one that covers it;
- `covers_of_fill`: a template that the other one fits, filled with a new value, covers it;
- `exists_map_meet`: what fits two templates is one list with values put in for its new members.
-/

namespace Template

variable {α κ : Type} {hole : α → Option κ} {ok : α → Prop} {q p : List α}

/-- Whatever may stand in the place of `p` may stand in the place of `q`. -/
def CoversAt (hole : α → Option κ) (q p : α) : Prop := hole q ≠ none ∨ q = p

def Covers (hole : α → Option κ) (q p : List α) : Prop := List.Forall₂ (CoversAt hole) q p

instance [DecidableEq α] (q p : α) : Decidable (CoversAt hole q p) :=
  inferInstanceAs (Decidable (_ ∨ _))

instance [DecidableEq α] (q p : List α) : Decidable (Covers hole q p) :=
  inferInstanceAs (Decidable (List.Forall₂ _ _ _))

theorem CoversAt.fits {q p t : α} (h : CoversAt hole q p) (hok : hole p = none → ok p)
    (hfits : Fits hole ok p t) : Fits hole ok q t := by
  rcases h with hq | heq
  · obtain ⟨k, hk⟩ := Option.ne_none_iff_exists'.mp hq
    rw [fits_some hk]
    -- what stands in a hole is `ok`, and so is a member that stands for itself
    cases hp : hole p with
    | none =>
      rw [← (fits_none hp).mp hfits]
      exact hok hp
    | some k' => exact (fits_some hp).mp hfits
  · rw [heq]
    exact hfits

/-- **What fits a template fits the ones that cover it.** Induction on the places. -/
theorem Covers.fits {t : List α} (h : Covers hole q p) (hok : ∀ x ∈ p, hole x = none → ok x)
    (hfits : List.Forall₂ (Fits hole ok) p t) : List.Forall₂ (Fits hole ok) q t := by
  induction h generalizing t with
  | nil => exact hfits
  | @cons q p qs ps hcovers _ ih =>
    cases hfits with
    | cons hhead htail =>
      refine .cons (hcovers.fits (hok p List.mem_cons_self) hhead) (ih (fun x hx => ?_) htail)
      exact hok x (List.mem_cons_of_mem p hx)

/-- **A new value tells.** Where it stands the template has a hole. Induction on the places. -/
theorem covers_of_fill {a : α} (hnew : ∀ x ∈ q, hole x = none → x ≠ a)
    (h : List.Forall₂ (Fits hole ok) q (p.map (fill hole fun _ => a))) : Covers hole q p := by
  unfold Covers
  rw [List.forall₂_map_right_iff] at h
  induction h with
  | nil => exact .nil
  | @cons q p qs ps hfits _ ih =>
    refine .cons ?_ (ih fun x hx => hnew x (List.mem_cons_of_mem q hx))
    by_cases hq : hole q = none
    · have heq : q = fill hole (fun _ => a) p := (fits_none hq).mp hfits
      cases hp : hole p with
      | none => exact Or.inr (heq.trans (fill_none hp))
      | some k => exact absurd (heq.trans (fill_some hp)) (hnew q List.mem_cons_self hq)
    · exact Or.inl hq

/-! ## What fits two templates -/

/-- Something may stand in the places of `p` and of `q`. -/
def MeetsAt (hole : α → Option κ) (p q : α) : Prop := hole p ≠ none ∨ hole q ≠ none ∨ p = q

def Meets (hole : α → Option κ) (p q : List α) : Prop := List.Forall₂ (MeetsAt hole) p q

instance [DecidableEq α] (p q : α) : Decidable (MeetsAt hole p q) :=
  inferInstanceAs (Decidable (_ ∨ _))

instance [DecidableEq α] (p q : List α) : Decidable (Meets hole p q) :=
  inferInstanceAs (Decidable (List.Forall₂ _ _ _))

/-- What stands in the places of `p` and of `q`, with `a` for two holes. -/
def meetAt (hole : α → Option κ) (p q a : α) : α :=
  if hole p = none then p else if hole q = none then q else a

/-- What stands in the places of two templates, with `new` for the places of two holes. -/
def meet (hole : α → Option κ) : List α → List α → List α → List α
  | p :: ps, q :: qs, a :: new => meetAt hole p q a :: meet hole ps qs new
  | _, _, _ => []

theorem meetAt_cases (hole : α → Option κ) (p q a : α) : (hole p = none ∧ meetAt hole p q a = p) ∨
    (hole p ≠ none ∧ hole q = none ∧ meetAt hole p q a = q) ∨
    (hole p ≠ none ∧ hole q ≠ none ∧ meetAt hole p q a = a) := by
  unfold meetAt
  by_cases hp : hole p = none
  · exact Or.inl ⟨hp, if_pos hp⟩
  · by_cases hq : hole q = none
    · exact Or.inr (Or.inl ⟨hp, hq, by rw [if_neg hp, if_pos hq]⟩)
    · exact Or.inr (Or.inr ⟨hp, hq, by rw [if_neg hp, if_neg hq]⟩)

theorem MeetsAt.of_fits {p q t : α} (hp : Fits hole ok p t) (hq : Fits hole ok q t) :
    MeetsAt hole p q := by
  by_cases hholep : hole p = none
  · by_cases hholeq : hole q = none
    · have heq := (fits_none hholep).mp hp
      exact Or.inr (Or.inr (heq.trans ((fits_none hholeq).mp hq).symm))
    · exact Or.inr (Or.inl hholeq)
  · exact Or.inl hholep

/-- Templates that one list fits meet. Induction on the places. -/
theorem Meets.of_fits {t : List α} (hp : List.Forall₂ (Fits hole ok) p t)
    (hq : List.Forall₂ (Fits hole ok) q t) : Meets hole p q := by
  induction hp generalizing q with
  | nil =>
    cases hq
    exact .nil
  | cons hhead _ ih =>
    cases hq with
    | cons hhead' htail' => exact .cons (.of_fits hhead hhead') (ih htail')

theorem MeetsAt.fits {p q a : α} (h : MeetsAt hole p q) (hok : ok (meetAt hole p q a)) :
    Fits hole ok p (meetAt hole p q a) ∧ Fits hole ok q (meetAt hole p q a) := by
  rcases meetAt_cases hole p q a with ⟨hp, heq⟩ | ⟨hp, hq, heq⟩ | ⟨hp, hq, heq⟩
  · refine ⟨(fits_none hp).mpr heq.symm, ?_⟩
    -- the other one is a hole, or the same member
    cases hq : hole q with
    | some k => exact (fits_some hq).mpr hok
    | none =>
      rcases h with hp' | hq' | hpq
      · exact absurd hp hp'
      · exact absurd hq hq'
      · exact (fits_none hq).mpr (hpq.symm.trans heq.symm)
  · obtain ⟨k, hk⟩ := Option.ne_none_iff_exists'.mp hp
    exact ⟨(fits_some hk).mpr hok, (fits_none hq).mpr heq.symm⟩
  · obtain ⟨k, hk⟩ := Option.ne_none_iff_exists'.mp hp
    obtain ⟨k', hk'⟩ := Option.ne_none_iff_exists'.mp hq
    exact ⟨(fits_some hk).mpr hok, (fits_some hk').mpr hok⟩

/-- **Templates that meet have a list in common.** Induction on the places. -/
theorem Meets.fits {new : List α} (h : Meets hole p q) (hlen : p.length ≤ new.length)
    (hok : ∀ x ∈ meet hole p q new, ok x) : List.Forall₂ (Fits hole ok) p (meet hole p q new) ∧
      List.Forall₂ (Fits hole ok) q (meet hole p q new) := by
  induction h generalizing new with
  | nil => exact ⟨.nil, .nil⟩
  | cons hhead _ ih =>
    cases new with
    | nil => exact absurd hlen (Nat.not_succ_le_zero _)
    | cons a new =>
      have hfits := hhead.fits (hok _ List.mem_cons_self)
      have hrest := ih (Nat.le_of_succ_le_succ hlen) fun x hx => hok x (List.mem_cons_of_mem _ hx)
      exact ⟨.cons hfits.1 hrest.1, .cons hfits.2 hrest.2⟩

/-- A member of what two templates have in common stands for itself in one of them, or is new. -/
theorem mem_meet {p q new : List α} {x : α} (h : x ∈ meet hole p q new) :
    ((x ∈ p ∨ x ∈ q) ∧ hole x = none) ∨ x ∈ new := by
  induction p generalizing q new with
  | nil => exact absurd h List.not_mem_nil
  | cons p ps ih =>
    cases q with
    | nil => exact absurd h List.not_mem_nil
    | cons q qs =>
      cases new with
      | nil => exact absurd h List.not_mem_nil
      | cons a new =>
        rcases List.mem_cons.mp h with heq | htail
        · rcases meetAt_cases hole p q a with ⟨hp, hm⟩ | ⟨_, hq, hm⟩ | ⟨_, _, hm⟩
          · rw [heq, hm]
            exact Or.inl ⟨Or.inl List.mem_cons_self, hp⟩
          · rw [heq, hm]
            exact Or.inl ⟨Or.inr List.mem_cons_self, hq⟩
          · rw [heq, hm]
            exact Or.inr List.mem_cons_self
        · rcases ih htail with ⟨hmem, hhole⟩ | hnew
          · exact Or.inl ⟨hmem.imp (List.mem_cons_of_mem p) (List.mem_cons_of_mem q), hhole⟩
          · exact Or.inr (List.mem_cons_of_mem a hnew)

/-- **What two templates have in common is the most general list that fits both**: any other one
is made from it by putting values in for what is new. Induction on the places. -/
theorem exists_map_meet [DecidableEq α] {new t : List α} (hnodup : new.Nodup)
    (hp : List.Forall₂ (Fits hole ok) p t) (hq : List.Forall₂ (Fits hole ok) q t)
    (hlen : p.length ≤ new.length)
    (hnew : ∀ x, x ∈ p ∨ x ∈ q → hole x = none → x ∉ new) :
    ∃ σ : α → α, (meet hole p q new).map σ = t ∧ ∀ x, x ∉ new → σ x = x := by
  induction hp generalizing q new with
  | nil => exact ⟨id, rfl, fun _ _ => rfl⟩
  | @cons p t ps ts hhead _ ih =>
    cases hq with
    | @cons q _ qs _ hhead' htail' =>
      cases new with
      | nil => exact absurd hlen (Nat.not_succ_le_zero _)
      | cons a new =>
        obtain ⟨ha, hnodup⟩ := List.nodup_cons.mp hnodup
        have hrest : ∀ x, x ∈ ps ∨ x ∈ qs → hole x = none → x ∉ a :: new := fun x hx =>
          hnew x (hx.imp (List.mem_cons_of_mem p) (List.mem_cons_of_mem q))
        obtain ⟨σ, hσ, hfix⟩ := ih hnodup htail' (Nat.le_of_succ_le_succ hlen) fun x hx hhole hmem =>
          hrest x hx hhole (List.mem_cons_of_mem a hmem)
        -- the value of `a` is free: it comes in this place only
        refine ⟨Function.update σ a t, ?_, fun x hx => ?_⟩
        · have htail : (meet hole ps qs new).map (Function.update σ a t) = ts := by
            rw [← hσ]
            refine List.map_congr_left fun x hx => Function.update_of_ne (fun hxa => ?_) t σ
            rw [hxa] at hx
            rcases mem_meet hx with ⟨hmem, hhole⟩ | hmem
            · exact hrest a hmem hhole List.mem_cons_self
            · exact ha hmem
          refine congrArg₂ List.cons ?_ htail
          rcases meetAt_cases hole p q a with ⟨hp, hm⟩ | ⟨_, hq, hm⟩ | ⟨_, _, hm⟩
          · have hout := hnew p (Or.inl List.mem_cons_self) hp
            rw [hm, Function.update_of_ne (List.ne_of_not_mem_cons hout),
              hfix p (List.not_mem_of_not_mem_cons hout)]
            exact (fits_none hp).mp hhead
          · have hout := hnew q (Or.inr List.mem_cons_self) hq
            rw [hm, Function.update_of_ne (List.ne_of_not_mem_cons hout),
              hfix q (List.not_mem_of_not_mem_cons hout)]
            exact (fits_none hq).mp hhead'
          · rw [hm, Function.update_self]
        · rw [Function.update_of_ne (List.ne_of_not_mem_cons hx)]
          exact hfix x (List.not_mem_of_not_mem_cons hx)

/-- What is put in for members of the list is put in for them in the bindings. -/
theorem bindings_map (hole : α → Option κ) (p m : List α) (σ : α → α) :
    bindings hole p (m.map σ) = (bindings hole p m).map (Prod.map id σ) := by
  unfold bindings
  rw [List.zip_map_right, List.filterMap_map, List.map_filterMap]
  refine List.filterMap_congr fun x _ => ?_
  simp only [Function.comp_apply, Prod.map_fst, Prod.map_snd, id_eq, Option.map_map]
  rfl

end Template
