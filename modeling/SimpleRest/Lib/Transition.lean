import Mathlib.Logic.Relation

/-!
# Runs of a step function

A system is a function from a state and an action to the next state, undefined where the action
cannot be taken. A guard restricts which actions are considered in which states. A `Run` is any
number of guarded steps.

- `Run.invariant`: what holds at the start and is kept by every guarded step holds in every state
  of every run;
- `perform` takes a list of actions, and `run_of_perform` makes it a run.
-/

namespace Transition

variable {σ α : Type}

/-- One guarded step. -/
def Step (step : σ → α → Option σ) (guard : σ → α → Prop) (s t : σ) : Prop :=
  ∃ a, guard s a ∧ step s a = some t

/-- Any number of guarded steps. -/
abbrev Run (step : σ → α → Option σ) (guard : σ → α → Prop) (s t : σ) : Prop :=
  Relation.ReflTransGen (Step step guard) s t

variable {step : σ → α → Option σ} {guard : σ → α → Prop} {s t : σ}

/-- **The invariant rule.** Induction on the run. -/
theorem Run.invariant {I : σ → Prop} (hstart : I s)
    (hstep : ∀ s a t, I s → guard s a → step s a = some t → I t) (h : Run step guard s t) :
    I t := by
  induction h with
  | refl => exact hstart
  | tail _ hst ih =>
    obtain ⟨a, hguard, hnext⟩ := hst
    exact hstep _ a _ ih hguard hnext

/-- A run of a step function that takes at most one step from `s` goes through that step. -/
theorem run_of_next {u : σ} (hnext : ∀ v, Step step guard s v ↔ v = u) :
    Run step guard s t ↔ t = s ∨ Run step guard u t := by
  unfold Run
  rw [Relation.ReflTransGen.cases_head_iff]
  refine or_congr eq_comm ⟨fun h => ?_, fun h => ⟨u, (hnext u).mpr rfl, h⟩⟩
  obtain ⟨v, hv, hrun⟩ := h
  rw [← (hnext v).mp hv]
  exact hrun

theorem run_of_stuck (hstuck : ∀ v, ¬ Step step guard s v) : Run step guard s t ↔ t = s := by
  unfold Run
  rw [Relation.ReflTransGen.cases_head_iff]
  refine ⟨fun h => ?_, fun h => Or.inl h.symm⟩
  rcases h with h | ⟨v, hv, _⟩
  · exact h.symm
  · exact absurd hv (hstuck v)

/-- The state after some actions, if each can be taken. -/
def perform (step : σ → α → Option σ) : σ → List α → Option σ
  | s, [] => some s
  | s, a :: as => (step s a).bind fun s => perform step s as

/-- A guard that looks at the actions only lets a list of actions pass that it lets pass one by
one. -/
theorem run_of_perform_guarded {as : List α} (hguard : ∀ a ∈ as, ∀ s, guard s a)
    (h : perform step s as = some t) : Run step guard s t := by
  induction as generalizing s with
  | nil =>
    rw [Option.some.inj h]
  | cons a as ih =>
    obtain ⟨u, hu, hrest⟩ := Option.bind_eq_some_iff.mp h
    have hhead : guard s a := hguard a List.mem_cons_self s
    have htail : ∀ b ∈ as, ∀ s, guard s b := fun b hb => hguard b (List.mem_cons_of_mem a hb)
    exact Relation.ReflTransGen.head ⟨a, hhead, hu⟩ (ih htail hrest)

theorem run_of_perform {as : List α} (h : perform step s as = some t) :
    Run step (fun _ _ => True) s t :=
  run_of_perform_guarded (fun _ _ _ => trivial) h

end Transition
