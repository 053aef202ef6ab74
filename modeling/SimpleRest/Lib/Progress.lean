import Mathlib.Algebra.Order.Ring.Nat
import SimpleRest.Lib.Transition

/-!
# Progress and simulation

What a rank and an abstraction say about the runs of a step function.

- `perform_append`, `perform_concat`: what `perform` does with one list of actions behind another;
- `perform_invariant`: the invariant rule for actions that are all of one kind;
- `countP_add_rank_le`, `length_add_rank_le`: where steps take the rank down there are no more of
  them than that;
- `exists_perform_to`: if some action can be taken as long as the goal is not reached, the goal is
  reached;
- `Run.simulates`, `Run.map`: a run carried to another system, step by step.
-/

namespace Transition

variable {σ τ α β : Type}

/-! ## Lists of actions -/

section Perform

variable {step : σ → α → Option σ} {s t u : σ}

theorem perform_append (as bs : List α) :
    perform step s (as ++ bs) = (perform step s as).bind fun u => perform step u bs := by
  induction as generalizing s with
  | nil => rfl
  | cons a as ih =>
    rw [List.cons_append, perform, perform, Option.bind_assoc]
    exact Option.bind_congr fun u _ => ih

theorem perform_concat {as : List α} {a : α} (h : perform step s as = some t)
    (hstep : step t a = some u) : perform step s (as ++ [a]) = some u := by
  rw [perform_append, h, Option.bind_some, perform, hstep]
  rfl

/-- **The invariant rule for a list of actions** that are all of one kind. -/
theorem perform_invariant {I : σ → Prop} {as : List α} {kind : α → Prop} (hstart : I s)
    (hkind : ∀ a ∈ as, kind a) (hstep : ∀ s a t, I s → kind a → step s a = some t → I t)
    (h : perform step s as = some t) : I t := by
  have hrun : Run step (fun _ a => kind a) s t :=
    run_of_perform_guarded (fun a ha _ => hkind a ha) h
  exact Run.invariant hstart hstep hrun

end Perform

/-! ## Ranks -/

section Rank

variable {step : σ → α → Option σ} (rank : σ → Nat) {s t : σ}

/-- **No more steps than the rank.** The steps that count take the rank down, and the others do not
take it up. Induction on the list of actions, from any state. -/
theorem countP_add_rank_le {I : σ → Prop} {kind : α → Prop} (counts : α → Bool) {as : List α}
    (hstart : I s) (hkind : ∀ a ∈ as, kind a)
    (hstep : ∀ s a t, I s → kind a → step s a = some t →
      I t ∧ rank t ≤ rank s ∧ (counts a = true → rank t < rank s))
    (h : perform step s as = some t) : as.countP counts + rank t ≤ rank s := by
  induction as generalizing s with
  | nil =>
    have hrank : rank t = rank s := by rw [Option.some.inj h]
    rw [List.countP_nil]
    omega
  | cons a as ih =>
    obtain ⟨u, hu, hrest⟩ := Option.bind_eq_some_iff.mp h
    have hhead := hstep s a u hstart (hkind a List.mem_cons_self) hu
    have htail := ih hhead.1 (fun b hb => hkind b (List.mem_cons_of_mem a hb)) hrest
    rw [List.countP_cons]
    split
    · next hcounts =>
      have hlt := hhead.2.2 hcounts
      omega
    · have hle := hhead.2.1
      omega

/-- **The goal is reached.** As long as it is not, an action of the kind can be taken and takes
the rank down. Strong induction on the rank. -/
theorem exists_perform_to {I Q : σ → Prop} {kind : α → Prop} (hstart : I s)
    (hprogress : ∀ s, I s → ¬ Q s →
      ∃ a t, kind a ∧ step s a = some t ∧ I t ∧ rank t < rank s) :
    ∃ as t, (∀ a ∈ as, kind a) ∧ perform step s as = some t ∧ I t ∧ Q t := by
  induction hrank : rank s using Nat.strongRecOn generalizing s with
  | ind k ih =>
    by_cases hgoal : Q s
    · exact ⟨[], s, nofun, rfl, hstart, hgoal⟩
    · obtain ⟨a, u, ha, hu, hinv, hlt⟩ := hprogress s hstart hgoal
      obtain ⟨as, t, has, ht, hend⟩ := ih (rank u) (hrank ▸ hlt) hinv rfl
      have hall : ∀ b ∈ a :: as, kind b := by
        intro b hb
        rcases List.mem_cons.mp hb with h | h
        · rw [h]
          exact ha
        · exact has b h
      exact ⟨a :: as, t, hall, by rw [perform, hu]; exact ht, hend⟩

/-- The rank of a family, when one member changes. Induction on the list, up to the member. -/
theorem sum_map_set (f : σ → Nat) {l : List σ} {n : Nat} (b : σ) (h : l[n]? = some s) :
    ((l.set n b).map f).sum + f s = (l.map f).sum + f b := by
  induction l generalizing n with
  | nil => cases h
  | cons a l ih =>
    cases n with
    | zero =>
      rw [List.set_cons_zero, List.map_cons, List.map_cons, List.sum_cons, List.sum_cons,
        Option.some.inj h]
      omega
    | succ n =>
      have hrest := ih h
      rw [List.set_cons_succ, List.map_cons, List.map_cons, List.sum_cons, List.sum_cons]
      omega

end Rank

/-! ## Simulation -/

/-- **The simulation rule.** Where an invariant holds, each step to a live state is a step of the
other system, or is not seen there. Only live states go on. Induction on the run, which is left at
its end. -/
theorem Run.simulates {step : σ → α → Option σ} {guard : σ → α → Prop} {step' : τ → β → Option τ}
    {guard' : τ → β → Prop} {s t : σ} {I L : σ → Prop} (abs : σ → τ) (hstart : I s)
    (hkeeps : ∀ s a t, I s → guard s a → step s a = some t → L s ∧ I t)
    (hstep : ∀ s a t, I s → guard s a → step s a = some t → L t →
      abs t = abs s ∨ Step step' guard' (abs s) (abs t))
    (h : Run step guard s t) (hlive : L t) : Run step' guard' (abs s) (abs t) := by
  have hinvariant : ∀ u, Run step guard s u → I u := fun u hrun =>
    Run.invariant hstart (fun s a t hs hguard ha => (hkeeps s a t hs hguard ha).2) hrun
  induction h with
  | refl => exact Relation.ReflTransGen.refl
  | tail hrun hlast ih =>
    obtain ⟨a, hguard, ha⟩ := hlast
    have hbefore := ih (hkeeps _ a _ (hinvariant _ hrun) hguard ha).1
    rcases hstep _ a _ (hinvariant _ hrun) hguard ha hlive with heq | hnext
    · rw [heq]
      exact hbefore
    · exact Relation.ReflTransGen.tail hbefore hnext

/-- Where every state is live and no invariant is needed. -/
theorem Run.map {step : σ → α → Option σ} {guard : σ → α → Prop} {step' : τ → β → Option τ}
    {guard' : τ → β → Prop} {s t : σ} (abs : σ → τ)
    (hstep : ∀ s a t, guard s a → step s a = some t →
      abs t = abs s ∨ Step step' guard' (abs s) (abs t))
    (h : Run step guard s t) : Run step' guard' (abs s) (abs t) :=
  Run.simulates (I := fun _ => True) (L := fun _ => True) abs trivial
    (fun _ _ _ _ _ _ => ⟨trivial, trivial⟩) (fun s a t _ hguard ha _ => hstep s a t hguard ha) h
    trivial

/-- A guarded run is a run. -/
theorem Run.unguarded {step : σ → α → Option σ} {guard : σ → α → Prop} {s t : σ}
    (h : Run step guard s t) : Run step (fun _ _ => True) s t :=
  Run.map id (fun _ a _ _ hstep => Or.inr ⟨a, trivial, hstep⟩) h

end Transition
