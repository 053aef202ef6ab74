import SimpleRest.Spec.Server

/-!
# SimpleREST — what a step of the server can do

The three threads change different members, so each kind of step is described once, and every
invariant of the server is read off these descriptions:

- `ControlMove`: the controlling thread changes neither the lock nor the handlers, and makes or
  gives up the accept thread in two places only;
- `AcceptMove`: one constructor for each statement of the accept loop;
- `handlerStep_move`: a handler thread changes its own position, and the members by `handlerEffect`.

From them comes `Coherent`, which holds in every reachable state: where the control has passed a
`join` there is no accept thread, and whoever holds the lock is inside a `LOCK_SCOPE`.
-/

namespace Rest

open Cpp Transition

/-! ## The controlling thread -/

/-- The accept thread has been joined, or there was none. -/
def Control.joined : Control → Bool
  | .start .storeListening | .start .startThread | .destructor .members | .destroyed => true
  | _ => false

namespace RestServer

variable {s t : RestServer}

/-- What the controlling thread, the user's calls included, can do in one step. -/
inductive ControlMove (s : RestServer) : RestServer → Prop where
  | goes (next : Control) (acceptor_ listening_ : Bool)
      (hlive : next ≠ .destroyed)
      (hjoined : next.joined = true → s.control.joined = true ∨ s.acceptingThread_ = none) :
      ControlMove s { s with control := next, acceptor_, listening_ }
  | starts (hpc : s.control = .start .startThread) :
      ControlMove s { s with acceptingThread_ := some .testListening, control := .idle }
  | joins (caller : StopCaller) (hpc : s.control = .stop caller .join)
      (hfinished : s.acceptingThread_ = some .finished) :
      ControlMove s { s with acceptingThread_ := none, control := afterStop caller }
  | destroys (hpc : s.control = .destructor .members) :
      ControlMove s { s with acceptor_ := false, connections_ := ∅, control := .destroyed }

theorem startStep_move {pc : StartPc} (hpc : s.control = .start pc) (h : s.startStep pc = some t) :
    ControlMove s t := by
  cases pc with
  | resetAcceptor =>
    cases h
    exact .goes _ _ _ nofun nofun
  | testJoinable =>
    simp only [startStep] at h
    split at h
    · cases h
      exact .goes _ _ _ nofun nofun
    · next hnone =>
      cases h
      exact .goes _ _ _ nofun fun _ => Or.inr (by simpa using hnone)
  | storeListening =>
    cases h
    exact .goes _ _ _ nofun fun _ => Or.inl (by rw [hpc]; rfl)
  | startThread =>
    cases h
    exact .starts hpc

theorem afterStop_ne_destroyed (caller : StopCaller) : afterStop caller ≠ .destroyed := by
  cases caller <;> nofun

theorem stopStep_move {caller : StopCaller} {pc : StopPc} (hpc : s.control = .stop caller pc)
    (h : s.stopStep caller pc = some t) : ControlMove s t := by
  cases pc with
  | resetAcceptor =>
    cases h
    exact .goes _ _ _ nofun nofun
  | storeListening =>
    cases h
    exact .goes _ _ _ nofun nofun
  | join =>
    simp only [stopStep] at h
    split at h
    · next hnone =>
      cases h
      exact .goes _ _ _ (afterStop_ne_destroyed caller) fun _ => Or.inr hnone
    · next hfinished =>
      cases h
      exact .joins caller hpc hfinished
    · cases h

theorem destructorStep_move {pc : DestructorPc} (hpc : s.control = .destructor pc)
    (h : s.destructorStep pc = some t) : ControlMove s t := by
  cases pc with
  | requests =>
    cases h
    exact .goes _ _ _ nofun nofun
  | testJoinable =>
    simp only [destructorStep] at h
    split at h
    · cases h
      exact .goes _ _ _ nofun nofun
    · next hnone =>
      cases h
      exact .goes _ _ _ nofun fun _ => Or.inr (by simpa using hnone)
  | members =>
    cases h
    exact .destroys hpc

theorem controlStep_move (h : s.controlStep = some t) : ControlMove s t := by
  unfold controlStep at h
  split at h
  · cases h
  · cases h
  · next hpc => exact startStep_move hpc h
  · next hpc => exact stopStep_move hpc h
  · next hpc => exact destructorStep_move hpc h

/-- The first statement of a call is still to come. -/
theorem call_eq {first : Control} (h : s.call first = some t) : t = { s with control := first } := by
  unfold call at h
  split at h
  · exact (Option.some.inj h).symm
  · cases h

theorem bindFails_eq (h : s.bindFails = some t) : t = { s with control := .idle } := by
  unfold bindFails at h
  split at h
  · exact (Option.some.inj h).symm
  · cases h

theorem call_move (first : Control) (hlive : first ≠ .destroyed) (hfirst : first.joined = false)
    (h : s.call first = some t) : ControlMove s t := by
  rw [call_eq h]
  exact .goes _ _ _ hlive (by rw [hfirst]; nofun)

theorem bindFails_move (h : s.bindFails = some t) : ControlMove s t := by
  rw [bindFails_eq h]
  exact .goes _ _ _ nofun nofun

/-- The destructor comes to its end in one statement. -/
theorem ControlMove.destroyed (h : ControlMove s t) (hpc : t.control = .destroyed) :
    s.control = .destructor .members ∧ t.handlers = s.handlers := by
  cases h with
  | goes next acceptor_ listening_ hlive hjoined => exact absurd hpc hlive
  | starts hstart => cases hpc
  | joins caller hstop hfinished => exact absurd hpc (afterStop_ne_destroyed caller)
  | destroys hmembers => exact ⟨hmembers, rfl⟩

/-! ## The accept thread -/

/-- What the accept thread can do in one step. -/
inductive AcceptMove (s : RestServer) : RestServer → Prop where
  | test (hpc : s.acceptingThread_ = some .testListening) :
      AcceptMove s (s.acceptAt (if s.listening_ then .increment else .finished))
  | increment (hpc : s.acceptingThread_ = some .increment) :
      AcceptMove s { s with
        idIncrement_ := s.idIncrement_ + 1, acceptingThread_ := some .construct }
  | construct (hpc : s.acceptingThread_ = some .construct) :
      AcceptMove s { s with
        constructed := s.constructed + 1
        acceptingThread_ := some (.accept ⟨s.idIncrement_, s.constructed⟩) }
  | accept (c : Connection) (hpc : s.acceptingThread_ = some (.accept c)) :
      AcceptMove s (s.acceptAt (if s.acceptor_ then .accepting c else .crashed))
  | accepted (c : Connection) (ok : Bool) (hpc : s.acceptingThread_ = some (.accepting c)) :
      AcceptMove s (s.acceptAt (if ok then .lock c else .testListening))
  | lock (c : Connection) (hpc : s.acceptingThread_ = some (.lock c)) (hfree : s.memberLock_ = none) :
      AcceptMove s { s with memberLock_ := some .accept, acceptingThread_ := some (.insert c) }
  | insert (c : Connection) (hpc : s.acceptingThread_ = some (.insert c)) :
      AcceptMove s { s with
        connections_ :=
          if c.id_ ∈ s.connections_ then s.connections_ else s.connections_.insert c.id_ c
        acceptingThread_ := some (.unlock c) }
  | unlock (c : Connection) (hpc : s.acceptingThread_ = some (.unlock c)) :
      AcceptMove s { s with memberLock_ := none, acceptingThread_ := some (.spawn c) }
  | spawn (c : Connection) (hpc : s.acceptingThread_ = some (.spawn c)) :
      AcceptMove s { s with
        handlers := s.handlers ++ [⟨c, .reading⟩], acceptingThread_ := some .testListening }

theorem acceptStep_move {ok : Bool} (h : s.acceptStep ok = some t) : AcceptMove s t := by
  unfold acceptStep at h
  split at h
  · cases h
  · cases h
  · cases h
  · next hpc => cases h; exact .test hpc
  · next hpc => cases h; exact .increment hpc
  · next hpc => cases h; exact .construct hpc
  · next hpc => cases h; exact .accept _ hpc
  · next hpc => cases h; exact .accepted _ ok hpc
  · next hpc =>
    split at h
    · next hfree => cases h; exact .lock _ hpc hfree
    · cases h
  · next hpc => cases h; exact .insert _ hpc
  · next hpc => cases h; exact .unlock _ hpc
  · next hpc => cases h; exact .spawn _ hpc

theorem AcceptMove.control_eq (h : AcceptMove s t) : t.control = s.control := by
  cases h with
  | _ => rfl

/-! ## The handler threads -/

/-- What a handler thread can do in one step. -/
theorem handlerStep_move {n : Nat} {next : HandlerPc} (h : s.handlerStep n next = some t) :
    ∃ hd u, s.handlers[n]? = some hd ∧ next ∈ hd.pc.successors ∧ s.handlerEffect n hd = some u ∧
      t = { u with handlers := s.handlers.set n { hd with pc := next } } := by
  unfold handlerStep at h
  split at h
  · cases h
  · next hd hget =>
    split at h
    · next hnext =>
      obtain ⟨u, hu, ht⟩ := Option.map_eq_some_iff.mp h
      exact ⟨hd, u, hget, hnext, hu, ht.symm⟩
    · cases h

/-- A handler thread is in nobody's way: it leaves the members of the other threads alone. -/
theorem handlerEffect_frame {n : Nat} {hd : Handler} {u : RestServer}
    (h : s.handlerEffect n hd = some u) :
    u.control = s.control ∧ u.acceptingThread_ = s.acceptingThread_ ∧ u.acceptor_ = s.acceptor_ ∧
      u.listening_ = s.listening_ ∧ u.idIncrement_ = s.idIncrement_ ∧
      u.constructed = s.constructed := by
  unfold handlerEffect at h
  split at h
  · split at h
    · cases h
      exact ⟨rfl, rfl, rfl, rfl, rfl, rfl⟩
    · cases h
  · cases h
    exact ⟨rfl, rfl, rfl, rfl, rfl, rfl⟩
  · cases h
    exact ⟨rfl, rfl, rfl, rfl, rfl, rfl⟩
  · cases h
    exact ⟨rfl, rfl, rfl, rfl, rfl, rfl⟩

theorem handlerStep_control {n : Nat} {next : HandlerPc} (h : s.handlerStep n next = some t) :
    t.control = s.control := by
  obtain ⟨hd, u, _, _, hu, rfl⟩ := handlerStep_move h
  exact (handlerEffect_frame hu).1

/-- The lock is taken when it is free, and given back. -/
theorem handlerEffect_lock {n : Nat} {hd : Handler} {u : RestServer}
    (h : s.handlerEffect n hd = some u) :
    (hd.pc = .lock ∧ s.memberLock_ = none ∧ u.memberLock_ = some (.handler n)) ∨
      (hd.pc = .unlock ∧ u.memberLock_ = none) ∨
      (hd.pc ≠ .lock ∧ hd.pc ≠ .unlock ∧ u.memberLock_ = s.memberLock_) := by
  unfold handlerEffect at h
  split at h
  · next hpc =>
    split at h
    · next hfree =>
      cases h
      exact Or.inl ⟨hpc, hfree, rfl⟩
    · cases h
  · next hpc =>
    cases h
    exact Or.inr (Or.inr ⟨by rw [hpc]; nofun, by rw [hpc]; nofun, rfl⟩)
  · next hpc =>
    cases h
    exact Or.inr (Or.inl ⟨hpc, rfl⟩)
  · next hlock _ hunlock =>
    cases h
    exact Or.inr (Or.inr ⟨hlock, hunlock, rfl⟩)

/-- A handler thread can go on wherever its program lets it, if it has not to wait for the lock. -/
theorem handlerStep_enabled {n : Nat} {hd : Handler} {next : HandlerPc}
    (hget : s.handlers[n]? = some hd) (hnext : next ∈ hd.pc.successors)
    (hlock : hd.pc = .lock → s.memberLock_ = none) :
    ∃ u, s.handlerEffect n hd = some u ∧
      s.step (.handler n next) =
        some { u with handlers := s.handlers.set n { hd with pc := next } } := by
  have heffect : ∃ u, s.handlerEffect n hd = some u := by
    unfold handlerEffect
    split
    · next hpc => exact ⟨_, if_pos (hlock hpc)⟩
    · exact ⟨_, rfl⟩
    · exact ⟨_, rfl⟩
    · exact ⟨_, rfl⟩
  obtain ⟨u, hu⟩ := heffect
  refine ⟨u, hu, ?_⟩
  simp only [step, handlerStep, hget, if_pos hnext, hu, Option.map_some]

/-! ## All steps -/

/-- A step is one of the controlling thread, of the accept thread, or of a handler thread. -/
theorem step_cases {a : Action} (h : s.step a = some t) :
    ControlMove s t ∨ AcceptMove s t ∨ ∃ n next, a = .handler n next ∧ s.handlerStep n next = some t := by
  cases a with
  | callStart => exact Or.inl (call_move (.start .resetAcceptor) nofun rfl h)
  | callStop => exact Or.inl (call_move (.stop .user .resetAcceptor) nofun rfl h)
  | callDestructor => exact Or.inl (call_move (.destructor .requests) nofun rfl h)
  | bindFails => exact Or.inl (bindFails_move h)
  | control => exact Or.inl (controlStep_move h)
  | accept ok => exact Or.inr (Or.inl (acceptStep_move h))
  | handler n next => exact Or.inr (Or.inr ⟨n, next, rfl, h⟩)

end RestServer

/-! ## What every reachable state has -/

/-- Inside the `LOCK_SCOPE` of the accept loop. -/
def AcceptPc.inside : AcceptPc → Bool
  | .insert _ | .unlock _ => true
  | _ => false

/-- Inside `deregisterClient`, behind the lock. -/
def HandlerPc.inside : HandlerPc → Bool
  | .erase | .unlock => true
  | _ => false

namespace RestServer

variable {s t : RestServer}

structure Coherent (s : RestServer) : Prop where
  joined : s.control.joined = true → s.acceptingThread_ = none
  lockedByAccept : s.memberLock_ = some .accept →
    ∃ pc, s.acceptingThread_ = some pc ∧ pc.inside = true
  lockedByHandler : ∀ n, s.memberLock_ = some (.handler n) →
    ∃ hd, s.handlers[n]? = some hd ∧ hd.pc.inside = true

theorem coherent_start : Coherent {} where
  joined := nofun
  lockedByAccept := nofun
  lockedByHandler := nofun

namespace Coherent

/-- As long as there is an accept thread, the control is in front of the `join`. -/
theorem joined_of_live (hs : Coherent s) {pc : AcceptPc} (hpc : s.acceptingThread_ = some pc)
    (hcontrol : t.control = s.control) : t.control.joined = true → t.acceptingThread_ = none := by
  intro hjoined
  rw [hcontrol] at hjoined
  have hnone := hs.joined hjoined
  rw [hpc] at hnone
  cases hnone

theorem not_lockedByAccept (hs : Coherent s)
    (houtside : ∀ pc, s.acceptingThread_ = some pc → pc.inside = false) :
    s.memberLock_ ≠ some .accept := by
  intro hlock
  obtain ⟨pc, hpc, hinside⟩ := hs.lockedByAccept hlock
  rw [houtside pc hpc] at hinside
  cases hinside

/-- A step outside the `LOCK_SCOPE`. -/
theorem outside (hs : Coherent s) {pc : AcceptPc} (hpc : s.acceptingThread_ = some pc)
    (houtside : pc.inside = false) (hcontrol : t.control = s.control)
    (hlock : t.memberLock_ = s.memberLock_)
    (hhandlers : ∀ (n : Nat) (hd : Handler), s.handlers[n]? = some hd → t.handlers[n]? = some hd) : Coherent t := by
  refine ⟨hs.joined_of_live hpc hcontrol, fun haccept => ?_, fun n hn => ?_⟩
  · rw [hlock] at haccept
    refine absurd haccept (hs.not_lockedByAccept fun pc' hpc' => ?_)
    rw [hpc] at hpc'
    cases hpc'
    exact houtside
  · rw [hlock] at hn
    obtain ⟨hd, hget, hinside⟩ := hs.lockedByHandler n hn
    exact ⟨hd, hhandlers n hd hget, hinside⟩

end Coherent

theorem ControlMove.coherent (h : ControlMove s t) (hs : Coherent s) : Coherent t := by
  cases h with
  | goes next acceptor_ listening_ hlive hjoined =>
    -- neither the thread nor the lock is touched
    refine ⟨fun hnext => ?_, hs.lockedByAccept, hs.lockedByHandler⟩
    rcases hjoined hnext with hbefore | hnone
    · exact hs.joined hbefore
    · exact hnone
  | starts hpc =>
    -- there was no accept thread that could hold the lock
    have hnone := hs.joined (by rw [hpc]; rfl)
    have hfree := hs.not_lockedByAccept (by rw [hnone]; nofun)
    exact ⟨nofun, fun hlock => absurd hlock hfree, hs.lockedByHandler⟩
  | joins caller hpc hfinished =>
    -- a thread that has finished is outside
    have hfree := hs.not_lockedByAccept (by rw [hfinished]; intro pc hpc; cases hpc; rfl)
    exact ⟨fun _ => rfl, fun hlock => absurd hlock hfree, hs.lockedByHandler⟩
  | destroys hpc =>
    exact ⟨fun _ => hs.joined (by rw [hpc]; rfl), hs.lockedByAccept, hs.lockedByHandler⟩

theorem AcceptMove.coherent (h : AcceptMove s t) (hs : Coherent s) : Coherent t := by
  cases h with
  | test hpc => exact hs.outside hpc rfl rfl rfl fun _ _ hget => hget
  | increment hpc => exact hs.outside hpc rfl rfl rfl fun _ _ hget => hget
  | construct hpc => exact hs.outside hpc rfl rfl rfl fun _ _ hget => hget
  | accept c hpc => exact hs.outside hpc rfl rfl rfl fun _ _ hget => hget
  | accepted c ok hpc => exact hs.outside hpc rfl rfl rfl fun _ _ hget => hget
  -- the thread goes in, is inside, and goes out
  | lock c hpc hfree => exact ⟨hs.joined_of_live hpc rfl, fun _ => ⟨_, rfl, rfl⟩, nofun⟩
  | insert c hpc => exact ⟨hs.joined_of_live hpc rfl, fun _ => ⟨_, rfl, rfl⟩, hs.lockedByHandler⟩
  | unlock c hpc => exact ⟨hs.joined_of_live hpc rfl, nofun, nofun⟩
  | spawn c hpc =>
    refine hs.outside hpc rfl rfl rfl fun n hd hget => ?_
    exact List.getElem?_append_left (List.getElem?_eq_some_iff.mp hget).1 ▸ hget

theorem handlerStep_coherent {n : Nat} {next : HandlerPc} (h : s.handlerStep n next = some t)
    (hs : Coherent s) : Coherent t := by
  obtain ⟨hd, u, hget, hnext, hu, rfl⟩ := handlerStep_move h
  obtain ⟨hcontrol, hthread, _⟩ := handlerEffect_frame hu
  have hlen : n < s.handlers.length := (List.getElem?_eq_some_iff.mp hget).1
  have hself : (s.handlers.set n { hd with pc := next })[n]? = some { hd with pc := next } := by
    rw [List.getElem?_set_self hlen]
  refine ⟨fun hjoined => ?_, fun haccept => ?_, fun m hm => ?_⟩
  · show u.acceptingThread_ = none
    rw [hthread]
    exact hs.joined (hcontrol ▸ hjoined)
  · show ∃ pc, u.acceptingThread_ = some pc ∧ _
    rw [hthread]
    rcases handlerEffect_lock hu with ⟨_, _, hlock⟩ | ⟨_, hlock⟩ | ⟨_, _, hlock⟩
    · rw [show u.memberLock_ = some .accept from haccept] at hlock
      cases hlock
    · rw [show u.memberLock_ = some .accept from haccept] at hlock
      cases hlock
    · exact hs.lockedByAccept (hlock ▸ haccept)
  · -- the holder is this thread or another one
    show ∃ hd', (s.handlers.set n { hd with pc := next })[m]? = some hd' ∧ _
    have hum : u.memberLock_ = some (.handler m) := hm
    rcases handlerEffect_lock hu with ⟨hpc, _, hlock⟩ | ⟨_, hlock⟩ | ⟨hlock₁, hlock₂, hlock⟩
    · -- the thread has taken the lock
      rw [hum] at hlock
      cases hlock
      refine ⟨_, hself, ?_⟩
      rw [hpc] at hnext
      rw [List.mem_singleton.mp hnext]
      rfl
    · rw [hum] at hlock
      cases hlock
    · obtain ⟨hd', hget', hinside⟩ := hs.lockedByHandler m (hlock ▸ hum)
      by_cases hmn : m = n
      · -- the holder goes on from the erasure to the end of the scope
        rw [hmn] at hget' ⊢
        rw [hget] at hget'
        cases hget'
        refine ⟨_, hself, ?_⟩
        show next.inside = true
        cases hpc : hd.pc with
        | erase =>
          rw [hpc] at hnext
          rw [List.mem_singleton.mp hnext]
          rfl
        | unlock => exact absurd hpc hlock₂
        | _ =>
          rw [hpc] at hinside
          cases hinside
      · refine ⟨hd', ?_, hinside⟩
        rw [List.getElem?_set_ne (fun h => hmn h.symm)]
        exact hget'

theorem step_coherent {a : Action} (h : s.step a = some t) (hs : Coherent s) : Coherent t := by
  rcases step_cases h with hmove | hmove | ⟨n, next, _, hmove⟩
  · exact hmove.coherent hs
  · exact hmove.coherent hs
  · exact handlerStep_coherent hmove hs

theorem run_coherent {guard : RestServer → Action → Prop} (hs : Coherent s)
    (h : Run step guard s t) : Coherent t :=
  Run.invariant hs (fun _ _ _ hs _ hstep => step_coherent hstep hs) h

theorem Reachable.coherent (h : Reachable s) : Coherent s := run_coherent coherent_start h

end RestServer

end Rest
