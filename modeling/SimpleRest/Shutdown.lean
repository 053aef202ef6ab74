import SimpleRest.ServerSteps

/-!
# SimpleREST — when the destruction of a server is graceful

The destructor joins the accept thread, but nobody joins the handler threads: they are detached,
and each keeps its pointer to the server up to `free`. What this comes to is exact:

- `destroyed_stuck`: behind a destruction that comes when all of them are done no thread moves;
- `exists_disturbance`: any one that is not done gets to the server again, because the one that
  holds the lock, if there is one, can go on;
- `shutdown_graceful_iff`: so a destroyed server is left alone in all that can follow exactly if
  all handler threads were done when the destructor came to its end.
-/

namespace Rest.RestServer

open Cpp Transition

variable {s t : RestServer}

/-! ## What is asked for -/

/-- A handler thread can do a statement that needs the server. -/
def Disturbed (s : RestServer) : Prop :=
  ∃ n hd next t, s.handlers[n]? = some hd ∧ hd.pc.usesServer = true ∧
    s.step (.handler n next) = some t

/-- Once the server is destroyed, no handler thread does a step that uses it. -/
def Quiet (s : RestServer) : Prop := s.control = .destroyed → ¬ Disturbed s

/-- All detached threads have come to their end. -/
def HandlersDone (s : RestServer) : Prop := ∀ hd ∈ s.handlers, hd.pc = .done

/-- The destructor comes to its end only when all handler threads have. -/
def WaitsForHandlers (s : RestServer) (a : Action) : Prop :=
  a = .control → s.control = .destructor .members → HandlersDone s

/-! ## Behind a graceful destruction -/

theorem done_stuck (hdone : HandlersDone s) (n : Nat) (next : HandlerPc) :
    s.step (.handler n next) = none := by
  show s.handlerStep n next = none
  unfold handlerStep
  split
  · rfl
  · next hd hget =>
    have hpc := hdone hd (List.mem_of_getElem? hget)
    rw [hpc]
    exact if_neg List.not_mem_nil

theorem quiet_of_done (hdone : HandlersDone s) : Quiet s := by
  intro _ hdisturbed
  obtain ⟨n, hd, next, t, _, _, hstep⟩ := hdisturbed
  rw [done_stuck hdone n next] at hstep
  cases hstep

/-- A destroyed server whose handler threads are done has no thread left that could move. -/
theorem destroyed_stuck (hs : Coherent s) (hpc : s.control = .destroyed) (hdone : HandlersDone s)
    (a : Action) : s.step a = none := by
  have hnone := hs.joined (by rw [hpc]; rfl)
  cases a with
  | callStart => simp only [step, call, hpc]
  | callStop => simp only [step, call, hpc]
  | callDestructor => simp only [step, call, hpc]
  | bindFails => simp only [step, bindFails, hpc]
  | control => simp only [step, controlStep, hpc]
  | accept ok => simp only [step, acceptStep, hnone]
  | handler n next => exact done_stuck hdone n next

/-! ## Behind any other one -/

/-- From every position but the last one a handler thread gets to a statement that needs the
server, at once or in one step that does not wait. -/
theorem exists_usesServer {pc : HandlerPc} (hpc : pc ≠ .done) :
    pc.usesServer = true ∨
      pc ≠ .lock ∧ ∃ next ∈ pc.successors, next.usesServer = true := by
  cases pc with
  | reading => exact Or.inr ⟨nofun, .callHandler, by decide, rfl⟩
  | handling => exact Or.inr ⟨nofun, .routing, by decide, rfl⟩
  | answering => exact Or.inr ⟨nofun, .lock, by decide, rfl⟩
  | done => exact absurd rfl hpc
  | _ => exact Or.inl rfl

theorem exists_successor {pc : HandlerPc} (hpc : pc ≠ .done) : ∃ next, next ∈ pc.successors := by
  cases pc with
  | done => exact absurd rfl hpc
  | _ => exact ⟨_, List.mem_cons_self⟩

theorem disturbed_of_free {n : Nat} {hd : Handler} (hget : s.handlers[n]? = some hd)
    (huses : hd.pc.usesServer = true) (hlock : hd.pc = .lock → s.memberLock_ = none) :
    Disturbed s := by
  have hpc : hd.pc ≠ .done := by
    intro hpc
    rw [hpc] at huses
    cases huses
  obtain ⟨next, hnext⟩ := exists_successor hpc
  obtain ⟨u, _, hstep⟩ := handlerStep_enabled hget hnext hlock
  exact ⟨n, hd, next, _, hget, huses, hstep⟩

/-- When the accept thread is gone, a lock that is taken is taken by a handler thread, and that
one can go on. -/
theorem disturbed_of_usesServer (hs : Coherent s) (hjoined : s.control.joined = true) {n : Nat}
    {hd : Handler} (hget : s.handlers[n]? = some hd) (huses : hd.pc.usesServer = true) :
    Disturbed s := by
  cases hlock : s.memberLock_ with
  | none => exact disturbed_of_free hget huses fun _ => hlock
  | some holder =>
    cases holder with
    | accept =>
      -- the accept thread has been joined
      have hnone := hs.joined hjoined
      exact absurd hlock (hs.not_lockedByAccept (by rw [hnone]; nofun))
    | handler m =>
      -- the holder itself is at a statement that needs the server, and does not wait
      obtain ⟨hd', hget', hinside⟩ := hs.lockedByHandler m hlock
      cases hpc : hd'.pc with
      | erase => exact disturbed_of_free hget' (by rw [hpc]; rfl) (by rw [hpc]; nofun)
      | unlock => exact disturbed_of_free hget' (by rw [hpc]; rfl) (by rw [hpc]; nofun)
      | _ =>
        rw [hpc] at hinside
        cases hinside

/-- A handler thread that is not done when the server is gone comes back to it. -/
theorem exists_disturbance (hs : Coherent s) (hpc : s.control = .destroyed)
    (hdone : ¬ HandlersDone s) : ∃ u, Runs s u ∧ u.control = .destroyed ∧ Disturbed u := by
  unfold HandlersDone at hdone
  push Not at hdone
  obtain ⟨hd, hmem, hlive⟩ := hdone
  obtain ⟨n, hget⟩ := List.mem_iff_getElem?.mp hmem
  rcases exists_usesServer hlive with huses | ⟨hlock, next, hnext, huses⟩
  · exact ⟨s, Relation.ReflTransGen.refl, hpc,
      disturbed_of_usesServer hs (by rw [hpc]; rfl) hget huses⟩
  · -- one step of its own brings it there
    obtain ⟨u, hu, hstep⟩ := handlerStep_enabled hget hnext fun h => absurd h hlock
    have hcontrol : u.control = .destroyed := (handlerEffect_frame hu).1.trans hpc
    have hlen : n < s.handlers.length := (List.getElem?_eq_some_iff.mp hget).1
    refine ⟨_, Relation.ReflTransGen.single ⟨_, trivial, hstep⟩, hcontrol, ?_⟩
    refine disturbed_of_usesServer (step_coherent hstep hs) ?_ (n := n)
      (List.getElem?_set_self hlen) huses
    show u.control.joined = true
    rw [hcontrol]
    rfl

/-! ## Runs -/

/-- What a run keeps whose destructor waits: a destroyed server has no handler thread left. -/
structure Graceful (s : RestServer) : Prop where
  coherent : Coherent s
  done : s.control = .destroyed → HandlersDone s

/-- A server is destroyed by the last statement of its destructor. -/
theorem destroyed_step {a : Action} (h : s.step a = some t) (hlive : s.control ≠ .destroyed)
    (hpc : t.control = .destroyed) :
    a = .control ∧ s.control = .destructor .members ∧ t.handlers = s.handlers := by
  cases a with
  | control =>
    obtain ⟨hmembers, hhandlers⟩ := (controlStep_move h).destroyed hpc
    exact ⟨rfl, hmembers, hhandlers⟩
  | accept ok => exact absurd ((acceptStep_move h).control_eq ▸ hpc) hlive
  | handler n next => exact absurd (handlerStep_control h ▸ hpc) hlive
  -- behind the first statement of a call the server is still there
  | callStart =>
    rw [call_eq h] at hpc
    cases hpc
  | callStop =>
    rw [call_eq h] at hpc
    cases hpc
  | callDestructor =>
    rw [call_eq h] at hpc
    cases hpc
  | bindFails =>
    rw [bindFails_eq h] at hpc
    cases hpc

theorem step_graceful {a : Action} (hs : Graceful s) (hguard : WaitsForHandlers s a)
    (h : s.step a = some t) : Graceful t := by
  refine ⟨step_coherent h hs.coherent, fun hpc => ?_⟩
  by_cases hlive : s.control = .destroyed
  · rw [destroyed_stuck hs.coherent hlive (hs.done hlive) a] at h
    cases h
  · obtain ⟨ha, hmembers, hhandlers⟩ := destroyed_step h hlive hpc
    unfold HandlersDone
    rw [hhandlers]
    exact hguard ha hmembers

theorem graceful_start : Graceful {} where
  coherent := coherent_start
  done := nofun

/-- **When a shutdown is graceful.** In every run, of any number of handler threads and any order
of steps, whose destructor comes to its end only when all handler threads have, no handler thread
uses the server once it is destroyed. And for every destruction that this is asked of it is exact:
the server is left alone in everything that can follow if and only if all handler threads are
done when the destructor does its last statement. -/
theorem shutdown_graceful_iff (s : RestServer) :
    (Run step WaitsForHandlers {} s → Quiet s) ∧
    ∀ t, Reachable s → s.control = .destructor .members → s.step .control = some t →
      ((∀ u, Runs t u → Quiet u) ↔ HandlersDone s) := by
  refine ⟨fun hrun => ?_, fun t hreach hpc hstep => ?_⟩
  · have hgraceful : Graceful s :=
      Run.invariant graceful_start (fun _ _ _ hs hguard h => step_graceful hs hguard h) hrun
    intro hdestroyed
    exact quiet_of_done (hgraceful.done hdestroyed) hdestroyed
  · have ht : t = { s with acceptor_ := false, connections_ := ∅, control := .destroyed } := by
      simp only [step, controlStep, hpc, destructorStep] at hstep
      exact (Option.some.inj hstep).symm
    have hcoherent := step_coherent hstep hreach.coherent
    have hdestroyed : t.control = .destroyed := by rw [ht]
    have hhandlers : HandlersDone t ↔ HandlersDone s := by rw [ht]; rfl
    rw [← hhandlers]
    refine ⟨fun hquiet => ?_, fun hdone u hrun => ?_⟩
    · -- a thread that is not done would come back
      by_contra hlive
      obtain ⟨u, hrun, hpcu, hdisturbed⟩ := exists_disturbance hcoherent hdestroyed hlive
      exact hquiet u hrun hpcu hdisturbed
    · have hstuck : ∀ v, ¬ Step step (fun _ _ => True) t v := by
        intro v hv
        obtain ⟨a, _, ha⟩ := hv
        rw [destroyed_stuck hcoherent hdestroyed hdone a] at ha
        cases ha
      rw [(run_of_stuck hstuck).mp hrun]
      exact quiet_of_done hdone

/-- A server that is started, accepts one connection and is destroyed. -/
def oneClient : List Action :=
  [.callStart, .control, .control, .control, .control] ++ List.replicate 9 (.accept true) ++
    [.callDestructor, .control, .control, .control, .control, .accept true, .control]

/-- The handler thread of that connection, from its first statement to its last. -/
def wholeHandler : List Action :=
  [.handler 0 .callHandler, .handler 0 .handling, .handler 0 .lock, .handler 0 .erase,
    .handler 0 .unlock, .handler 0 .done]

/-- When the client has been answered, the destruction that follows is graceful. -/
theorem shutdown_graceful_answered :
    ∃ s t, perform step {} (oneClient ++ wholeHandler) = some s ∧ s.step .control = some t ∧
      t.control = .destroyed ∧ ∀ u, Runs t u → Quiet u := by
  obtain ⟨s, t, hs, hpc, hhandlers, ht, hdestroyed⟩ : ∃ s t,
      perform step {} (oneClient ++ wholeHandler) = some s ∧ s.control = .destructor .members ∧
        s.handlers = [⟨⟨1, 0⟩, .done⟩] ∧ s.step .control = some t ∧ t.control = .destroyed :=
    ⟨_, _, rfl, rfl, rfl, rfl, rfl⟩
  refine ⟨s, t, hs, ht, hdestroyed, ((shutdown_graceful_iff s).2 t (run_of_perform hs) hpc ht).mpr ?_⟩
  intro hd hmem
  rw [hhandlers] at hmem
  rw [List.mem_singleton.mp hmem]

/-- While the client is still sending its head, the server is destroyed; then the thread calls
`handler_`. -/
theorem shutdown_reading : ¬ ∀ s, Reachable s → Quiet s := by
  intro hquiet
  obtain ⟨s, hs, hpc, hdisturbed⟩ : ∃ s,
      perform step {} (oneClient ++ [.control, .handler 0 .callHandler]) = some s ∧
        s.control = .destroyed ∧ Disturbed s :=
    ⟨_, rfl, rfl, 0, _, .handling, _, rfl, rfl, rfl⟩
  exact hquiet s (run_of_perform hs) hpc hdisturbed

end Rest.RestServer
