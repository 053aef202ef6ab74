import SimpleRest.ServerSteps

/-!
# SimpleREST — when the accept loop has its acceptor

`stop` takes the acceptor away before it clears `listening_`, and the accept loop looks only at
`listening_` before it follows the pointer. So two statements decide:

- `reset` of the acceptor, while the accept thread is behind the test of its loop and not yet at
  `accept`;
- the test of the loop itself, when the acceptor is gone and `listening_` is still set.

`step_present` says that nothing else can make the pointer null in front of its use, and
`exists_absence` that each of the two always does. The second one is what a `start` on a running
server leaves behind: the new acceptor is gone with the `stop` inside it, and `listening_` is set.
-/

namespace Rest

open Cpp Transition

/-- Behind the test of the loop, with the use of `acceptor_` still to come. -/
def AcceptPc.committed : AcceptPc → Bool
  | .increment | .construct | .accept _ => true
  | _ => false

namespace RestServer

variable {s t : RestServer}

/-! ## What is asked for -/

/-- The pointer the accept thread is about to follow is not null. -/
def AcceptorPresent (s : RestServer) : Prop :=
  ∀ c, s.acceptingThread_ = some (.accept c) → s.acceptor_ = true

/-- The accept thread is on its way from the test to the use. -/
def Committed (s : RestServer) : Prop :=
  ∃ pc, s.acceptingThread_ = some pc ∧ pc.committed = true

/-- `acceptor_.reset()` does not come between the test and the use, and the test does not pass
without an acceptor. -/
def KeepsAcceptor (s : RestServer) : Action → Prop
  | .control => (∃ caller, s.control = .stop caller .resetAcceptor) → ¬ Committed s
  | .accept _ => s.acceptingThread_ = some .testListening → s.listening_ = true → s.acceptor_ = true
  | _ => True

/-! ## What a guarded run keeps -/

structure Present (s : RestServer) : Prop where
  coherent : Coherent s
  present : Committed s → s.acceptor_ = true

theorem present_start : Present {} where
  coherent := coherent_start
  present := by
    intro hcommitted
    obtain ⟨pc, hpc, _⟩ := hcommitted
    cases hpc

theorem Coherent.not_committed (hs : Coherent s) (hjoined : s.control.joined = true) :
    ¬ Committed s := by
  intro hcommitted
  obtain ⟨pc, hpc, _⟩ := hcommitted
  rw [hs.joined hjoined] at hpc
  cases hpc

theorem Present.acceptorPresent (hs : Present s) : AcceptorPresent s := by
  intro c hpc
  exact hs.present ⟨_, hpc, rfl⟩

/-! ## One step -/

/-- The control does not bring the accept thread past the test. -/
theorem ControlMove.committed (h : ControlMove s t) (hcommitted : Committed t) : Committed s := by
  obtain ⟨pc, hpc, hpast⟩ := hcommitted
  cases h with
  | goes next acceptor_ listening_ hlive hjoined => exact ⟨pc, hpc, hpast⟩
  | starts hstart =>
    -- a new thread is in front of the test
    have htest : AcceptPc.testListening = pc := Option.some.inj hpc
    rw [← htest] at hpast
    cases hpast
  | joins caller hstop hfinished => cases hpc
  | destroys hmembers => exact ⟨pc, hpc, hpast⟩

/-- The statements that take the acceptor away. -/
theorem controlStep_acceptor (h : s.controlStep = some t) (hs : s.acceptor_ = true) :
    t.acceptor_ = true ∨ (∃ caller, s.control = .stop caller .resetAcceptor) ∨
      s.control = .destructor .members := by
  unfold controlStep at h
  split at h
  · cases h
  · cases h
  · next pc hpc =>
    left
    cases pc with
    | resetAcceptor =>
      cases h
      rfl
    | testJoinable =>
      simp only [startStep] at h
      split at h <;> (cases h; exact hs)
    | storeListening =>
      cases h
      exact hs
    | startThread =>
      cases h
      exact hs
  · next caller pc hpc =>
    cases pc with
    | resetAcceptor => exact Or.inr (Or.inl ⟨caller, hpc⟩)
    | storeListening =>
      cases h
      exact Or.inl hs
    | join =>
      left
      simp only [stopStep] at h
      split at h
      · cases h
        exact hs
      · cases h
        exact hs
      · cases h
  · next pc hpc =>
    cases pc with
    | requests =>
      cases h
      exact Or.inl hs
    | testJoinable =>
      left
      simp only [destructorStep] at h
      split at h <;> (cases h; exact hs)
    | members => exact Or.inr (Or.inr hpc)

/-- Every step of the control that is not one of the two leaves a committed thread its acceptor. -/
theorem controlStep_present (hs : Present s) (hguard : KeepsAcceptor s .control)
    (h : s.controlStep = some t) (hcommitted : Committed t) : t.acceptor_ = true := by
  have hbefore := (controlStep_move h).committed hcommitted
  rcases controlStep_acceptor h (hs.present hbefore) with hkept | hreset | hmembers
  · exact hkept
  · exact absurd hbefore (hguard hreset)
  · -- the destructor has joined the thread
    exact absurd hbefore (hs.coherent.not_committed (by rw [hmembers]; rfl))

theorem acceptMove_present (hs : Present s) {ok : Bool} (hguard : KeepsAcceptor s (.accept ok))
    (h : AcceptMove s t) (hcommitted : Committed t) : t.acceptor_ = true := by
  obtain ⟨pc, hpc, hpast⟩ := hcommitted
  cases h with
  | test htest =>
    -- the thread is committed only if the test has passed
    by_cases hlistening : s.listening_ = true
    · exact hguard htest hlistening
    · simp only [acceptAt, if_neg hlistening] at hpc
      cases hpc
      cases hpast
  | increment hat => exact hs.present ⟨_, hat, rfl⟩
  | construct hat => exact hs.present ⟨_, hat, rfl⟩
  | accept c hat => exact hs.present ⟨_, hat, rfl⟩
  | accepted c ok' hat =>
    cases ok' <;> (cases hpc; cases hpast)
  | lock c hat hfree => cases hpc; cases hpast
  | insert c hat => cases hpc; cases hpast
  | unlock c hat => cases hpc; cases hpast
  | spawn c hat => cases hpc; cases hpast

theorem handlerStep_committed {n : Nat} {next : HandlerPc} (h : s.handlerStep n next = some t) :
    (Committed t ↔ Committed s) ∧ t.acceptor_ = s.acceptor_ := by
  obtain ⟨hd, u, _, _, hu, rfl⟩ := handlerStep_move h
  obtain ⟨_, hthread, hacceptor, _⟩ := handlerEffect_frame hu
  unfold Committed
  exact ⟨by rw [hthread], hacceptor⟩

/-- A call that begins, or that comes to nothing, leaves both threads where they are. -/
theorem Present.of_control (hs : Present s) (next : Control)
    (hcommitted : Committed { s with control := next }) : s.acceptor_ = true :=
  hs.present hcommitted

/-- **What a guarded step keeps.** -/
theorem step_present {a : Action} (hs : Present s) (hguard : KeepsAcceptor s a)
    (h : s.step a = some t) : Present t := by
  refine ⟨step_coherent h hs.coherent, fun hcommitted => ?_⟩
  cases a with
  | callStart =>
    rw [call_eq h] at hcommitted ⊢
    exact hs.of_control _ hcommitted
  | callStop =>
    rw [call_eq h] at hcommitted ⊢
    exact hs.of_control _ hcommitted
  | callDestructor =>
    rw [call_eq h] at hcommitted ⊢
    exact hs.of_control _ hcommitted
  | bindFails =>
    rw [bindFails_eq h] at hcommitted ⊢
    exact hs.of_control _ hcommitted
  | control => exact controlStep_present hs hguard h hcommitted
  | accept ok => exact acceptMove_present hs hguard (acceptStep_move h) hcommitted
  | handler n next =>
    obtain ⟨hiff, hacceptor⟩ := handlerStep_committed h
    rw [hacceptor]
    exact hs.present (hiff.mp hcommitted)

/-! ## Behind any other step -/

/-- The accept thread alone goes on from the test to the use. -/
theorem committed_reaches (hcommitted : Committed s) :
    ∃ u c, Runs s u ∧ u.acceptingThread_ = some (.accept c) ∧ u.acceptor_ = s.acceptor_ := by
  have hconstruct : ∀ v : RestServer, v.acceptingThread_ = some .construct →
      ∃ u c, Runs v u ∧ u.acceptingThread_ = some (.accept c) ∧ u.acceptor_ = v.acceptor_ := by
    intro v hv
    have hstep : v.step (.accept true) = some { v with
        constructed := v.constructed + 1
        acceptingThread_ := some (.accept ⟨v.idIncrement_, v.constructed⟩) } := by
      simp only [step, acceptStep, hv]
    exact ⟨_, _, Relation.ReflTransGen.single ⟨_, trivial, hstep⟩, rfl, rfl⟩
  obtain ⟨pc, hpc, hpast⟩ := hcommitted
  cases pc with
  | increment =>
    have hstep : s.step (.accept true) = some { s with
        idIncrement_ := s.idIncrement_ + 1, acceptingThread_ := some .construct } := by
      simp only [step, acceptStep, hpc]
    obtain ⟨u, c, hrun, hthread, hacceptor⟩ := hconstruct
      { s with idIncrement_ := s.idIncrement_ + 1, acceptingThread_ := some .construct } rfl
    exact ⟨u, c, Relation.ReflTransGen.head ⟨_, trivial, hstep⟩ hrun, hthread, hacceptor⟩
  | construct => exact hconstruct s hpc
  | accept c => exact ⟨s, c, Relation.ReflTransGen.refl, hpc, rfl⟩
  | _ => cases hpast

/-- A step that the guard excludes is followed by the use of a null pointer, whatever the other
threads have done before. -/
theorem exists_absence {a : Action} (hguard : ¬ KeepsAcceptor s a) (h : s.step a = some t) :
    ∃ u, Runs t u ∧ ¬ AcceptorPresent u := by
  have hlost : Committed t ∧ t.acceptor_ = false := by
    cases a with
    | control =>
      simp only [KeepsAcceptor, Classical.not_imp, not_not] at hguard
      obtain ⟨⟨caller, hpc⟩, hcommitted⟩ := hguard
      simp only [step, controlStep, hpc, stopStep, Option.some.injEq] at h
      rw [← h]
      exact ⟨hcommitted, rfl⟩
    | accept ok =>
      simp only [KeepsAcceptor, Classical.not_imp, Bool.not_eq_true] at hguard
      obtain ⟨htest, hlistening, hacceptor⟩ := hguard
      simp only [step, acceptStep, htest, if_pos hlistening, Option.some.injEq] at h
      rw [← h]
      exact ⟨⟨_, rfl, rfl⟩, hacceptor⟩
    | _ => exact absurd trivial hguard
  obtain ⟨u, c, hrun, hthread, hacceptor⟩ := committed_reaches hlost.1
  refine ⟨u, hrun, fun hpresent => ?_⟩
  have htrue := hpresent c hthread
  rw [hacceptor, hlost.2] at htrue
  cases htrue

/-! ## Runs -/

/-- **When the acceptor is there.** In every run, of any order of the statements of `start`, `stop`
and the destructor, of the accept thread and of the handler threads, that takes neither of the two
steps, the accept thread calls `accept` only on an acceptor. And each of the two steps, wherever a
run comes to it, goes on to a call of `accept` on a null pointer. -/
theorem acceptorPresent_of_keeps (s : RestServer) :
    (Transition.Run step KeepsAcceptor {} s → AcceptorPresent s) ∧
    ∀ a t, Reachable s → s.step a = some t → ¬ KeepsAcceptor s a →
      ∃ u, Reachable u ∧ Runs t u ∧ ¬ AcceptorPresent u := by
  refine ⟨fun hrun => ?_, fun a t hreach hstep hguard => ?_⟩
  · have hpresent : Present s :=
      Run.invariant present_start (fun _ _ _ hs hguard h => step_present hs hguard h) hrun
    exact hpresent.acceptorPresent
  · obtain ⟨u, hrun, habsent⟩ := exists_absence hguard hstep
    have hreach' : Reachable u :=
      Relation.ReflTransGen.trans (Relation.ReflTransGen.tail hreach ⟨a, trivial, hstep⟩) hrun
    exact ⟨u, hreach', hrun, habsent⟩

/-- The accept thread of a started server is behind its test, and `stop` comes to its first
statement. -/
theorem acceptor_reset : ¬ ∀ s, Reachable s → AcceptorPresent s := by
  intro hpresent
  obtain ⟨s, c, hs, hthread, hacceptor⟩ : ∃ s c, perform step {}
      [.callStart, .control, .control, .control, .control, .accept true, .callStop, .control,
        .accept true, .accept true] = some s ∧
        s.acceptingThread_ = some (.accept c) ∧ s.acceptor_ = false :=
    ⟨_, _, rfl, rfl, rfl⟩
  have htrue := hpresent s (run_of_perform hs) c hthread
  rw [hacceptor] at htrue
  cases htrue

end RestServer

end Rest
