import SimpleRest.AcceptorPresence
import SimpleRest.Lib.Progress
import SimpleRest.Shutdown
import SimpleRest.StartStop

/-!
# SimpleREST — when a `stop` returns

`stop` takes the acceptor away, clears `listening_` and waits in `join` for the end of the accept
thread. Whether that comes depends on where the thread is when `stop` has got so far:

- `Closing`: at the `join` there is no acceptor and `listening_` is not set, whoever has called;
- `Stranded`: a thread between the test of its loop and `accept` follows the null pointer, and
  `stranded_stays` says that nothing brings it to its end;
- `Leaves`: any other one leaves the loop, with the connection it may still have in hand;
- `stop_returns_iff`: so `join` can return exactly if the thread is not stranded, after no more
  than six statements of it and with one more handler thread at most.
-/

namespace Rest

open Cpp Transition

/-- The statements from which the accept thread comes to the test of its loop without `accept`. -/
def AcceptPc.leaving : AcceptPc → Bool
  | .increment | .construct | .accept _ | .crashed => false
  | _ => true

/-- The number of statements up to the end of such a thread. -/
def AcceptPc.left : AcceptPc → Nat
  | .accepting _ => 6
  | .lock _ => 5
  | .insert _ => 4
  | .unlock _ => 3
  | .spawn _ => 2
  | .testListening => 1
  | _ => 0

/-- The number of handler threads such a thread may still make. -/
def AcceptPc.owes (pc : AcceptPc) : Nat := if pc.left ≤ 1 then 0 else 1

/-- Inside `stop`, behind the `reset`. -/
def Control.closing : Control → Bool
  | .stop _ .storeListening | .stop _ .join => true
  | _ => false

namespace RestServer

variable {s t u : RestServer} {caller : StopCaller}

/-! ## What is asked for -/

/-- A step of the accept thread or of a handler thread. -/
def Others : Action → Prop
  | .accept _ | .handler _ _ => True
  | _ => False

def isAccept : Action → Bool
  | .accept _ => true
  | _ => false

/-- The accept thread is going to follow the null pointer, or has done so. -/
def Stranded (s : RestServer) : Prop := Committed s ∨ s.acceptingThread_ = some .crashed

/-! ## At the `join` -/

/-- What `stop` has done so far. -/
structure Closing (s : RestServer) : Prop where
  reset : ∀ caller, s.control = .stop caller .storeListening → s.acceptor_ = false
  stored : ∀ caller, s.control = .stop caller .join → s.acceptor_ = false ∧ s.listening_ = false

theorem Closing.of_frame (hs : Closing s) (h : Frame s t) : Closing t := by
  refine ⟨fun caller hpc => ?_, fun caller hpc => ?_⟩
  · rw [h.acceptor]
    exact hs.reset caller (h.control ▸ hpc)
  · rw [h.acceptor, h.listening]
    exact hs.stored caller (h.control ▸ hpc)

/-- The control is at neither of the two statements. -/
theorem closing_of_outside (h : t.control.closing = false) : Closing t := by
  refine ⟨fun caller hpc => ?_, fun caller hpc => ?_⟩
  · rw [hpc] at h
    cases h
  · rw [hpc] at h
    cases h

theorem controlStep_closing (hs : Closing s) (h : s.controlStep = some t) : Closing t := by
  unfold controlStep at h
  split at h
  · cases h
  · cases h
  · next pc hpc =>
    cases pc with
    | testJoinable =>
      simp only [startStep] at h
      split at h <;> (cases h; exact closing_of_outside rfl)
    | _ =>
      cases h
      exact closing_of_outside rfl
  · next caller pc hpc =>
    cases pc with
    | resetAcceptor =>
      cases h
      exact ⟨fun _ _ => rfl, fun _ hpc => by cases hpc⟩
    | storeListening =>
      cases h
      exact ⟨fun _ hnext => (by cases hnext), fun _ _ => ⟨hs.reset caller hpc, rfl⟩⟩
    | join =>
      rw [join_spec h]
      cases caller <;> exact closing_of_outside rfl
  · next pc hpc =>
    cases pc with
    | testJoinable =>
      simp only [destructorStep] at h
      split at h <;> (cases h; exact closing_of_outside rfl)
    | _ =>
      cases h
      exact closing_of_outside rfl

theorem step_closing {a : Action} (hs : Closing s) (h : s.step a = some t) : Closing t := by
  cases a with
  | control => exact controlStep_closing hs h
  | accept ok => exact hs.of_frame (acceptStep_move h).frame
  | handler n next => exact hs.of_frame (handlerStep_frame h)
  | callStart =>
    rw [call_eq h]
    exact closing_of_outside rfl
  | callStop =>
    rw [call_eq h]
    exact closing_of_outside rfl
  | callDestructor =>
    rw [call_eq h]
    exact closing_of_outside rfl
  | bindFails =>
    rw [bindFails_eq h]
    exact closing_of_outside rfl

theorem closing_start : Closing {} := closing_of_outside rfl

theorem Reachable.closing (h : Reachable s) : Closing s :=
  Transition.Run.invariant closing_start (fun _ _ _ hs _ hstep => step_closing hs hstep) h

theorem others_control {a : Action} (ha : Others a) (h : s.step a = some t) :
    t.control = s.control := by
  cases a with
  | accept ok => exact (acceptStep_move h).control_eq
  | handler n next => exact handlerStep_control h
  | _ => exact absurd ha id

/-! ## A thread that is stranded -/

/-- **Nothing helps it.** -/
theorem stranded_stays {a : Action} (ha : Others a) (hacceptor : s.acceptor_ = false)
    (hs : Stranded s) (h : s.step a = some t) : Stranded t ∧ t.acceptor_ = false := by
  cases a with
  | accept ok =>
    have hmove := acceptStep_move h
    refine ⟨?_, hmove.frame.acceptor.trans hacceptor⟩
    have hstuck : ∀ pc, s.acceptingThread_ = some pc → pc.leaving = false := by
      intro pc hpc
      rcases hs with ⟨pc', hpc', hcommitted⟩ | hcrashed
      · rw [hpc'] at hpc
        cases hpc
        cases pc <;> first | rfl | cases hcommitted
      · rw [hcrashed] at hpc
        cases hpc
        rfl
    cases hmove with
    | increment hat => exact Or.inl ⟨_, rfl, rfl⟩
    | construct hat => exact Or.inl ⟨_, rfl, rfl⟩
    | accept c hat =>
      refine Or.inr ?_
      show some (if s.acceptor_ then _ else _) = _
      rw [hacceptor]
      rfl
    -- the thread would be at a statement that leaves the loop
    | _ => exact absurd (hstuck _ ‹_›) (by simp [AcceptPc.leaving])
  | handler n next =>
    obtain ⟨hd, v, _, _, hv, rfl⟩ := handlerStep_move h
    obtain ⟨_, hthread, hacceptor', _⟩ := handlerEffect_frame hv
    refine ⟨?_, hacceptor'.trans hacceptor⟩
    unfold Stranded Committed
    rw [show v.acceptingThread_ = s.acceptingThread_ from hthread]
    exact hs
  | _ => exact absurd ha id

/-! ## A thread that leaves the loop -/

/-- The rest of the accept thread's way. -/
def left (s : RestServer) : Nat := (s.acceptingThread_.map AcceptPc.left).getD 0

/-- The handler threads it may still make. -/
def owes (s : RestServer) : Nat := (s.acceptingThread_.map AcceptPc.owes).getD 0

/-- What the steps of the other threads keep while `stop` waits for a thread that is not
stranded. -/
structure Leaves (s t : RestServer) : Prop where
  coherent : Coherent t
  control : t.control = s.control
  acceptor : t.acceptor_ = false
  listening : t.listening_ = false
  thread : ∀ pc, t.acceptingThread_ = some pc → pc.leaving = true
  constructed : t.constructed = s.constructed
  handlers : t.handlers.length + t.owes ≤ s.handlers.length + 1

theorem AcceptMove.leaves (h : Leaves s t) (hmove : AcceptMove t u) :
    (∀ pc, u.acceptingThread_ = some pc → pc.leaving = true) ∧ u.constructed = t.constructed ∧
      u.handlers.length + u.owes ≤ t.handlers.length + t.owes ∧ u.left < t.left := by
  have hlistening := h.listening
  cases hmove with
  | increment hat => exact Bool.noConfusion (h.thread _ hat)
  | construct hat => exact Bool.noConfusion (h.thread _ hat)
  | accept c hat => exact Bool.noConfusion (h.thread _ hat)
  | accepted c ok hat =>
    cases ok <;> simp [acceptAt, left, owes, hat, AcceptPc.left, AcceptPc.owes, AcceptPc.leaving]
  | _ => simp_all [acceptAt, left, owes, AcceptPc.left, AcceptPc.owes, AcceptPc.leaving]

theorem Leaves.step (h : Leaves s t) {a : Action} (ha : Others a) (hstep : t.step a = some u) :
    Leaves s u ∧ u.left ≤ t.left ∧ (isAccept a = true → u.left < t.left) := by
  have hcoherent := step_coherent hstep h.coherent
  cases a with
  | accept ok =>
    have hmove := acceptStep_move hstep
    obtain ⟨hthread, hconstructed, hhandlers, hleft⟩ := hmove.leaves h
    refine ⟨⟨hcoherent, hmove.control_eq.trans h.control, hmove.frame.acceptor.trans h.acceptor,
      hmove.frame.listening.trans h.listening, hthread, hconstructed.trans h.constructed,
      Nat.le_trans hhandlers h.handlers⟩, Nat.le_of_lt hleft, fun _ => hleft⟩
  | handler n next =>
    obtain ⟨hd, v, _, _, hv, rfl⟩ := handlerStep_move hstep
    obtain ⟨hcontrol, hthread, hacceptor, hlistening, _, hconstructed⟩ := handlerEffect_frame hv
    refine ⟨⟨hcoherent, hcontrol.trans h.control, hacceptor.trans h.acceptor,
      hlistening.trans h.listening, fun pc hpc => h.thread pc (hthread ▸ hpc),
      hconstructed.trans h.constructed, ?_⟩, ?_, nofun⟩
    · show (t.handlers.set n _).length + _ ≤ _
      rw [List.length_set, owes, show v.acceptingThread_ = t.acceptingThread_ from hthread]
      exact h.handlers
    · rw [left, show v.acceptingThread_ = t.acceptingThread_ from hthread]
      exact Nat.le_refl _
  | _ => exact absurd ha id

/-! ## The end of the wait -/

/-- How far the holder of the lock is from giving it back. -/
def heldFor (s : RestServer) : Nat :=
  match s.memberLock_ with
  | some (.handler n) => if s.handlers[n]?.map (·.pc) = some .erase then 2 else 1
  | _ => 0

/-- `join` can return. -/
def Joinable (s : RestServer) : Prop :=
  s.acceptingThread_ = none ∨ s.acceptingThread_ = some .finished

theorem controlStep_join (hjoin : s.control = .stop caller .join) :
    (∃ t, s.step .control = some t) ↔ Joinable s := by
  unfold Joinable
  simp only [RestServer.step, controlStep, hjoin, stopStep]
  cases hthread : s.acceptingThread_ with
  | none => simp
  | some pc => cases pc <;> simp

theorem heldFor_le (s : RestServer) : s.heldFor ≤ 2 := by
  unfold heldFor
  split
  · split <;> decide
  · decide

/-- A thread that leaves the loop can go on, if it has not to wait for the lock. -/
theorem acceptStep_isSome {pc : AcceptPc} (hpc : s.acceptingThread_ = some pc)
    (hleaving : pc.leaving = true) (hlive : pc ≠ .finished)
    (hlock : ∀ c, pc = .lock c → s.memberLock_ = none) :
    ∃ t, s.step (.accept false) = some t := by
  simp only [RestServer.step, acceptStep, hpc]
  cases pc with
  | finished => exact absurd rfl hlive
  | lock c => exact ⟨_, if_pos (hlock c rfl)⟩
  | crashed => cases hleaving
  | _ => exact ⟨_, rfl⟩

/-- The holder of the lock goes one step towards giving it back. -/
theorem holder_goes (hs : Coherent s) {m : Nat} (hlock : s.memberLock_ = some (.handler m)) :
    ∃ next t, s.step (.handler m next) = some t ∧ t.heldFor < s.heldFor := by
  obtain ⟨hd, hget, hinside⟩ := hs.lockedByHandler m hlock
  have hlen : m < s.handlers.length := (List.getElem?_eq_some_iff.mp hget).1
  cases hpc : hd.pc with
  | erase =>
    have hnext : HandlerPc.unlock ∈ hd.pc.successors := by rw [hpc]; decide
    obtain ⟨v, hv, hstep⟩ := handlerStep_enabled hget hnext (by rw [hpc]; nofun)
    refine ⟨.unlock, _, hstep, ?_⟩
    have hkept : v.memberLock_ = some (.handler m) := by
      rcases handlerEffect_lock hv with ⟨hat, _⟩ | ⟨hat, _⟩ | ⟨_, _, hsame⟩
      · rw [hpc] at hat
        cases hat
      · rw [hpc] at hat
        cases hat
      · rw [hsame, hlock]
    simp [heldFor, hkept, hlock, hget, hpc, List.getElem?_set_self hlen]
  | unlock =>
    have hnext : HandlerPc.done ∈ hd.pc.successors := by rw [hpc]; decide
    obtain ⟨v, hv, hstep⟩ := handlerStep_enabled hget hnext (by rw [hpc]; nofun)
    refine ⟨.done, _, hstep, ?_⟩
    have hfree : v.memberLock_ = none := by
      rcases handlerEffect_lock hv with ⟨hat, _⟩ | ⟨_, hfree⟩ | ⟨_, hne, _⟩
      · rw [hpc] at hat
        cases hat
      · exact hfree
      · exact absurd hpc hne
    simp [heldFor, hfree, hlock, hget, hpc]
  | _ =>
    rw [hpc] at hinside
    cases hinside

/-- **As long as `join` cannot return, the accept thread or the holder of the lock can go on.** -/
theorem Leaves.progress (h : Leaves s t) (hwait : ¬ Joinable t) :
    ∃ a u, Others a ∧ t.step a = some u ∧ Leaves s u ∧
      3 * u.left + u.heldFor < 3 * t.left + t.heldFor := by
  have haccept : ∀ u, t.step (.accept false) = some u → Leaves s u ∧
      3 * u.left + u.heldFor < 3 * t.left + t.heldFor := by
    intro u hstep
    obtain ⟨hleaves, _, hleft⟩ := h.step (a := .accept false) trivial hstep
    have hlt := hleft rfl
    have hle := heldFor_le u
    exact ⟨hleaves, by omega⟩
  cases hthread : t.acceptingThread_ with
  | none => exact absurd (Or.inl hthread) hwait
  | some pc =>
    have hlive : pc ≠ .finished := by
      intro hpc
      rw [hpc] at hthread
      exact hwait (Or.inr hthread)
    have hleaving := h.thread pc hthread
    by_cases hlock : ∀ c, pc = .lock c → t.memberLock_ = none
    · obtain ⟨u, hstep⟩ := acceptStep_isSome hthread hleaving hlive hlock
      exact ⟨.accept false, u, trivial, hstep, haccept u hstep⟩
    · -- the accept thread waits for the lock, and a handler thread has it
      push Not at hlock
      obtain ⟨c, hpc, htaken⟩ := hlock
      obtain ⟨holder, hholder⟩ := Option.ne_none_iff_exists'.mp htaken
      cases holder with
      | accept =>
        obtain ⟨pc', hpc', hinside⟩ := h.coherent.lockedByAccept hholder
        rw [hthread, hpc] at hpc'
        cases hpc'
        cases hinside
      | handler m =>
        obtain ⟨next, u, hstep, hlt⟩ := holder_goes h.coherent hholder
        obtain ⟨hleaves, hle, _⟩ := h.step (a := .handler m next) trivial hstep
        exact ⟨.handler m next, u, trivial, hstep, hleaves, by omega⟩

/-! ## The call -/

theorem leaves_start (hs : Reachable s) (hjoin : s.control = .stop caller .join)
    (hfree : ¬ Stranded s) : Leaves s s := by
  obtain ⟨hacceptor, hlistening⟩ := hs.closing.stored caller hjoin
  refine ⟨hs.coherent, rfl, hacceptor, hlistening, fun pc hpc => ?_, rfl, ?_⟩
  · cases pc with
    | increment => exact absurd (Or.inl ⟨_, hpc, rfl⟩) hfree
    | construct => exact absurd (Or.inl ⟨_, hpc, rfl⟩) hfree
    | accept c => exact absurd (Or.inl ⟨_, hpc, rfl⟩) hfree
    | crashed => exact absurd (Or.inr hpc) hfree
    | _ => rfl
  · have howes : s.owes ≤ 1 := by
      unfold owes AcceptPc.owes
      cases s.acceptingThread_ with
      | none => decide
      | some pc =>
        show (if _ then 0 else 1) ≤ 1
        split <;> decide
    omega

/-- **When a `stop` returns.** In every reachable state in which a `stop`, of whichever caller,
waits in `join`:

- the accept thread and the handler threads can come to a state in which the call returns if and
  only if the accept thread is not on its way from the test of its loop to `accept`, and has not
  followed the null pointer already;
- then, whatever the order of their steps is, the accept thread does at most six statements more,
  constructs no connection and makes at most one handler thread. -/
theorem stop_returns_iff (hs : Reachable s) (hjoin : s.control = .stop caller .join) :
    ((∃ as t u, (∀ a ∈ as, Others a) ∧ perform step s as = some t ∧ t.step .control = some u) ↔
      ¬ Stranded s) ∧
    (¬ Stranded s → ∀ as t, (∀ a ∈ as, Others a) → perform step s as = some t →
      as.countP isAccept ≤ 6 ∧ t.constructed = s.constructed ∧
        t.handlers.length ≤ s.handlers.length + 1) := by
  refine ⟨⟨fun hreturns hstranded => ?_, fun hfree => ?_⟩, fun hfree as t has hperform => ?_⟩
  · -- a stranded thread never comes to its end
    obtain ⟨as, t, u, has, hperform, hstep⟩ := hreturns
    obtain ⟨hacceptor, _⟩ := hs.closing.stored caller hjoin
    have hstays := perform_invariant
      (I := fun t => t.control = .stop caller .join ∧ Stranded t ∧ t.acceptor_ = false)
      ⟨hjoin, hstranded, hacceptor⟩ has
      (fun v a w hv ha hvw => ⟨(others_control ha hvw).trans hv.1,
        stranded_stays ha hv.2.2 hv.2.1 hvw⟩) hperform
    rcases (controlStep_join hstays.1).mp ⟨u, hstep⟩ with hnone | hfinished
    · rcases hstays.2.1 with ⟨pc, hpc, _⟩ | hcrashed
      · rw [hnone] at hpc
        cases hpc
      · rw [hnone] at hcrashed
        cases hcrashed
    · rcases hstays.2.1 with ⟨pc, hpc, hcommitted⟩ | hcrashed
      · rw [hfinished] at hpc
        cases hpc
        cases hcommitted
      · rw [hfinished] at hcrashed
        cases hcrashed
  · have hprogress : ∀ v, Leaves s v → ¬ Joinable v → ∃ a w, Others a ∧ v.step a = some w ∧
        Leaves s w ∧ 3 * w.left + w.heldFor < 3 * v.left + v.heldFor :=
      fun v hv hwait => hv.progress hwait
    obtain ⟨as, t, has, hperform, hleaves, hjoinable⟩ := exists_perform_to
      (fun v : RestServer => 3 * v.left + v.heldFor) (leaves_start hs hjoin hfree) hprogress
    obtain ⟨u, hstep⟩ := (controlStep_join (hleaves.control.trans hjoin)).mpr hjoinable
    exact ⟨as, t, u, has, hperform, hstep⟩
  · have hstart := leaves_start hs hjoin hfree
    have hleaves : Leaves s t := perform_invariant (I := Leaves s) hstart has
      (fun _ _ _ hv ha hvw => (hv.step ha hvw).1) hperform
    have hcount := countP_add_rank_le left isAccept hstart has
      (fun _ _ _ hv ha hvw => hv.step ha hvw) hperform
    have hleft : s.left ≤ 6 := by
      unfold left
      cases s.acceptingThread_ with
      | none => decide
      | some pc => cases pc <;> simp [AcceptPc.left]
    have hhandlers := hleaves.handlers
    exact ⟨by omega, hleaves.constructed, by omega⟩

/-- A `stop` that waits while a client is being accepted comes back. -/
theorem stop_returns_accepting : ∃ s, perform step {}
    [.callStart, .control, .control, .control, .control, .accept true, .accept true, .accept true,
      .accept true, .callStop, .control, .control] = some s ∧
    ∃ as t u, perform step s as = some t ∧ t.step .control = some u := by
  obtain ⟨s, c, hs, hjoin, hthread⟩ : ∃ s c, perform step {}
      [.callStart, .control, .control, .control, .control, .accept true, .accept true,
        .accept true, .accept true, .callStop, .control, .control] = some s ∧
      s.control = .stop .user .join ∧ s.acceptingThread_ = some (.accepting c) :=
    ⟨_, _, rfl, rfl, rfl⟩
  have hfree : ¬ Stranded s := by
    intro hstranded
    rcases hstranded with ⟨pc, hpc, hcommitted⟩ | hcrashed
    · rw [hthread] at hpc
      cases hpc
      cases hcommitted
    · rw [hthread] at hcrashed
      cases hcrashed
  obtain ⟨as, t, u, _, hperform, hstep⟩ := (stop_returns_iff (run_of_perform hs) hjoin).1.mpr hfree
  exact ⟨s, hs, as, t, u, hperform, hstep⟩

end RestServer

end Rest
