import SimpleRest.ServerSteps

/-!
# SimpleREST — `start` and `stop` as a machine with two states

A caller that waits for every call sees the server between calls only. `start` on a server that is
running stops it first, and this `stop` takes away the acceptor that the same `start` has just
made. What a sequence of calls comes to follows from one invariant for each kind of call, which
says for every position of the control inside the call what the members are:

- `StartCall` depends on whether the call has found an accept thread to join;
- `StopCall` does not depend on anything;
- `after_calls_iff`: so the last call has done what it should exactly if it is not a `start`
  directly behind a `start`.
-/

namespace Rest

open Cpp Transition

/-- The calls a user makes. -/
inductive Call where
  | start
  | stop
deriving DecidableEq

namespace Call

def action : Call → Action
  | start => .callStart
  | stop => .callStop

end Call

namespace RestServer

variable {s t u : RestServer}

/-! ## What is asked for -/

/-- The server listens, has an acceptor, which is bound to the endpoint from its construction on,
and an accept thread that can be joined. -/
structure Running (s : RestServer) : Prop where
  listening : s.listening_ = true
  acceptor : s.acceptor_ = true
  thread : s.acceptingThread_.isSome = true

structure Stopped (s : RestServer) : Prop where
  listening : s.listening_ = false
  acceptor : s.acceptor_ = false
  thread : s.acceptingThread_ = none

/-- What a call is for. -/
def Establishes : Call → RestServer → Prop
  | .start => Running
  | .stop => Stopped

/-- Until a call returns the user makes no other one, and a port can be bound. -/
def WithinCall (_ : RestServer) : Action → Prop
  | .control | .accept _ | .handler _ _ => True
  | _ => False

/-- The call `c` is made in `s`, and has returned in `t`. What the other threads do behind its
return is a part of this, too. -/
def Completes (c : Call) (s t : RestServer) : Prop :=
  ∃ u, s.step c.action = some u ∧ Transition.Run step WithinCall u t ∧ t.control = .idle

/-- The states behind a sequence of calls on a constructed server. -/
inductive After : List Call → RestServer → Prop where
  | nil : After [] {}
  | call {calls : List Call} {s t : RestServer} (c : Call) (hbefore : After calls s)
      (hcall : Completes c s t) : After (calls ++ [c]) t

/-! ## The other threads -/

/-- What a call can be sure of: the other threads leave the members it looks at alone. -/
structure Frame (s t : RestServer) : Prop where
  control : t.control = s.control
  acceptor : t.acceptor_ = s.acceptor_
  listening : t.listening_ = s.listening_
  joinable : t.acceptingThread_.isSome = s.acceptingThread_.isSome

theorem AcceptMove.frame (h : AcceptMove s t) : Frame s t := by
  cases h with
  | test hpc => exact ⟨rfl, rfl, rfl, by rw [hpc]; rfl⟩
  | increment hpc => exact ⟨rfl, rfl, rfl, by rw [hpc]; rfl⟩
  | construct hpc => exact ⟨rfl, rfl, rfl, by rw [hpc]; rfl⟩
  | accept c hpc => exact ⟨rfl, rfl, rfl, by rw [hpc]; rfl⟩
  | accepted c ok hpc => exact ⟨rfl, rfl, rfl, by rw [hpc]; rfl⟩
  | lock c hpc hfree => exact ⟨rfl, rfl, rfl, by rw [hpc]; rfl⟩
  | insert c hpc => exact ⟨rfl, rfl, rfl, by rw [hpc]; rfl⟩
  | unlock c hpc => exact ⟨rfl, rfl, rfl, by rw [hpc]; rfl⟩
  | spawn c hpc => exact ⟨rfl, rfl, rfl, by rw [hpc]; rfl⟩

theorem handlerStep_frame {n : Nat} {next : HandlerPc} (h : s.handlerStep n next = some t) :
    Frame s t := by
  obtain ⟨hd, u, _, _, hu, rfl⟩ := handlerStep_move h
  obtain ⟨hcontrol, hthread, hacceptor, hlistening, _⟩ := handlerEffect_frame hu
  exact ⟨hcontrol, hacceptor, hlistening, congrArg Option.isSome hthread⟩

/-- What the control keeps, and what does not depend on more than a `Frame` shows, holds during the
whole call. -/
theorem call_invariant {I : RestServer → Prop} (hframe : ∀ s t, Frame s t → I s → I t)
    (hcontrol : ∀ s t, I s → s.controlStep = some t → I t) (hstart : I s)
    (h : Transition.Run step WithinCall s t) : I t := by
  refine Run.invariant hstart (fun s a t hs hguard hstep => ?_) h
  cases a with
  | control => exact hcontrol s t hs hstep
  | accept ok => exact hframe s t (acceptStep_move hstep).frame hs
  | handler n next => exact hframe s t (handlerStep_frame hstep) hs
  | _ => exact absurd hguard id

/-! ## The two calls -/

/-- The members while `stop` is running. -/
def StopCall (s : RestServer) : Prop :=
  match s.control with
  | .stop .user .resetAcceptor => True
  | .stop .user .storeListening => s.acceptor_ = false
  | .stop .user .join => s.acceptor_ = false ∧ s.listening_ = false
  | .idle => s.acceptor_ = false ∧ s.listening_ = false ∧ s.acceptingThread_.isSome = false
  | _ => False

/-- The members while `start` is running. `joinable` is whether the call has found an accept
thread. If so, the `stop` inside it has left no acceptor. -/
def StartCall (joinable : Bool) (s : RestServer) : Prop :=
  match s.control with
  | .start .resetAcceptor => s.acceptingThread_.isSome = joinable
  | .start .testJoinable => s.acceptor_ = true ∧ s.acceptingThread_.isSome = joinable
  | .stop .start .resetAcceptor => joinable = true
  | .stop .start .storeListening => joinable = true ∧ s.acceptor_ = false
  | .stop .start .join => joinable = true ∧ s.acceptor_ = false
  | .start .storeListening => s.acceptor_ = !joinable
  | .start .startThread => s.acceptor_ = !joinable ∧ s.listening_ = true
  | .idle => s.acceptor_ = !joinable ∧ s.listening_ = true ∧ s.acceptingThread_.isSome = true
  | _ => False

theorem Frame.stopCall (h : Frame s t) (hs : StopCall s) : StopCall t := by
  unfold StopCall at hs ⊢
  rw [h.control, h.acceptor, h.listening, h.joinable]
  exact hs

theorem Frame.startCall {joinable : Bool} (h : Frame s t) (hs : StartCall joinable s) :
    StartCall joinable t := by
  unfold StartCall at hs ⊢
  rw [h.control, h.acceptor, h.listening, h.joinable]
  exact hs

/-- `join` returns with no thread left. -/
theorem join_spec {caller : StopCaller} (h : s.stopStep caller .join = some t) :
    t = { s with acceptingThread_ := none, control := afterStop caller } := by
  simp only [stopStep] at h
  split at h
  · next hnone =>
    rw [← Option.some.inj h, ← hnone]
  · exact (Option.some.inj h).symm
  · cases h

theorem controlStep_stopCall (hs : StopCall s) (h : s.controlStep = some t) : StopCall t := by
  unfold StopCall at hs
  split at hs
  · next hpc =>
    simp only [controlStep, hpc, stopStep, Option.some.injEq] at h
    rw [← h]
    rfl
  · next hpc =>
    simp only [controlStep, hpc, stopStep, Option.some.injEq] at h
    rw [← h]
    exact ⟨hs, rfl⟩
  · next hpc =>
    simp only [controlStep, hpc] at h
    rw [join_spec h]
    exact ⟨hs.1, hs.2, rfl⟩
  · next hpc =>
    simp only [controlStep, hpc] at h
    cases h
  · exact absurd hs id

theorem controlStep_startCall {joinable : Bool} (hs : StartCall joinable s)
    (h : s.controlStep = some t) : StartCall joinable t := by
  unfold StartCall at hs
  split at hs
  · next hpc =>
    simp only [controlStep, hpc, startStep, Option.some.injEq] at h
    rw [← h]
    exact ⟨rfl, hs⟩
  · next hpc =>
    simp only [controlStep, hpc, startStep] at h
    split at h
    · -- there is a thread to join
      next hsome =>
      rw [← Option.some.inj h]
      show joinable = true
      rw [← hs.2, hsome]
    · next hnone =>
      rw [← Option.some.inj h]
      show s.acceptor_ = !joinable
      rw [hs.1, ← hs.2, Bool.eq_false_iff.mpr hnone]
      rfl
  · next hpc =>
    simp only [controlStep, hpc, stopStep, Option.some.injEq] at h
    rw [← h]
    exact ⟨hs, rfl⟩
  · next hpc =>
    simp only [controlStep, hpc, stopStep, Option.some.injEq] at h
    rw [← h]
    exact hs
  · next hpc =>
    -- back from the `stop` inside
    simp only [controlStep, hpc] at h
    rw [join_spec h]
    show s.acceptor_ = !joinable
    rw [hs.1, hs.2]
    rfl
  · next hpc =>
    simp only [controlStep, hpc, startStep, Option.some.injEq] at h
    rw [← h]
    exact ⟨hs, rfl⟩
  · next hpc =>
    simp only [controlStep, hpc, startStep, Option.some.injEq] at h
    rw [← h]
    exact ⟨hs.1, hs.2, rfl⟩
  · next hpc =>
    simp only [controlStep, hpc] at h
    cases h
  · exact absurd hs id

/-- **A `stop` that has returned.** -/
theorem Completes.stopped (h : Completes .stop s t) : Stopped t := by
  obtain ⟨u, hcall, hrun, hidle⟩ := h
  have hfirst : StopCall u := by
    rw [call_eq hcall]
    trivial
  have hlast := call_invariant (fun _ _ h hs => h.stopCall hs)
    (fun _ _ hs h => controlStep_stopCall hs h) hfirst hrun
  unfold StopCall at hlast
  rw [hidle] at hlast
  exact ⟨hlast.2.1, hlast.1, Option.isSome_eq_false_iff.mp hlast.2.2 |> Option.isNone_iff_eq_none.mp⟩

/-- **A `start` that has returned.** It leaves an acceptor exactly if it has found no thread. -/
theorem Completes.started (h : Completes .start s t) :
    t.listening_ = true ∧ t.acceptingThread_.isSome = true ∧
      t.acceptor_ = !s.acceptingThread_.isSome := by
  obtain ⟨u, hcall, hrun, hidle⟩ := h
  have hfirst : StartCall s.acceptingThread_.isSome u := by
    rw [call_eq hcall]
    rfl
  have hlast := call_invariant (fun _ _ h hs => h.startCall hs)
    (fun _ _ hs h => controlStep_startCall hs h) hfirst hrun
  unfold StartCall at hlast
  rw [hidle] at hlast
  exact ⟨hlast.2.1, hlast.2.2, hlast.1⟩

/-! ## Sequences of calls -/

/-- There is a thread to join behind a `start`, and none behind a `stop`. -/
theorem After.joinable {calls : List Call} (h : After calls s) :
    s.acceptingThread_.isSome = true ↔ calls.getLast? = some .start := by
  cases h with
  | nil => exact ⟨nofun, nofun⟩
  | call c hbefore hcall =>
    rw [List.getLast?_append_of_ne_nil _ (List.cons_ne_nil c []), List.getLast?_singleton]
    cases c with
    | start => exact iff_of_true hcall.started.2.1 rfl
    | stop =>
      refine iff_of_false ?_ nofun
      rw [hcall.stopped.thread]
      nofun

theorem running_iff (h : Completes .start s t) :
    Running t ↔ s.acceptingThread_.isSome = false := by
  obtain ⟨hlistening, hthread, hacceptor⟩ := h.started
  refine ⟨fun hrunning => ?_, fun hnone => ?_⟩
  · rw [hrunning.acceptor] at hacceptor
    exact (Bool.not_eq_true' _).mp hacceptor.symm
  · exact ⟨hlistening, by rw [hacceptor, hnone]; rfl, hthread⟩

theorem start_start_suffix_iff {calls : List Call} {c : Call} :
    [Call.start, Call.start] <:+ calls ++ [c] ↔ calls.getLast? = some .start ∧ c = .start := by
  rw [List.getLast?_eq_some_iff]
  constructor
  · intro h
    obtain ⟨pre, hpre⟩ := h
    have hsplit : pre ++ [Call.start] ++ [Call.start] = calls ++ [c] := by
      rw [← hpre, List.append_assoc]
      rfl
    obtain ⟨hcalls, hc⟩ := List.append_inj' hsplit rfl
    exact ⟨⟨pre, hcalls.symm⟩, (List.singleton_inj.mp hc).symm⟩
  · intro h
    obtain ⟨⟨pre, hpre⟩, hc⟩ := h
    refine ⟨pre, ?_⟩
    rw [hpre, hc, List.append_assoc]
    rfl

/-! ## The calls come to their end -/

/-- A call, if `as` is what is done until it returns. -/
theorem completes_of_perform {c : Call} {as : List Action}
    (hwithin : ∀ a ∈ as, ∀ s, WithinCall s a) (h : perform step s (c.action :: as) = some t)
    (hidle : t.control = .idle) : Completes c s t := by
  obtain ⟨u, hu, hrest⟩ := Option.bind_eq_some_iff.mp h
  exact ⟨u, hu, run_of_perform_guarded hwithin hrest, hidle⟩

/-- What is done while a call runs, if the accept thread comes only to the test of its loop. -/
def callActions : Call → Option AcceptPc → List Action
  | .start, none => List.replicate 4 .control
  | .start, some _ => List.replicate 4 .control ++ [.accept true] ++ List.replicate 3 .control
  | .stop, none => List.replicate 3 .control
  | .stop, some _ => List.replicate 2 .control ++ [.accept true, .control]

theorem callActions_within (c : Call) (thread : Option AcceptPc) :
    ∀ a ∈ callActions c thread, ∀ s, WithinCall s a := by
  intro a ha s
  cases c <;> cases thread <;> simp [callActions] at ha <;> grind [WithinCall]

/-- Every sequence of calls can be run to its end. -/
theorem exists_after (calls : List Call) : ∃ s, After calls s ∧ s.control = .idle ∧
    (s.acceptingThread_ = none ∨ s.acceptingThread_ = some .testListening) := by
  induction calls using List.reverseRecOn with
  | nil => exact ⟨{}, .nil, rfl, Or.inl rfl⟩
  | append_singleton calls c ih =>
    obtain ⟨s, hafter, hidle, hthread⟩ := ih
    obtain ⟨control, acceptor_, acceptingThread_, listening_, idIncrement_, memberLock_,
      connections_, handlers, constructed⟩ := s
    simp only at hidle hthread
    rw [hidle] at hafter
    have hwithin := callActions_within c acceptingThread_
    rcases hthread with hnone | htest
    · rw [hnone] at hafter hwithin
      cases c with
      | start => exact ⟨_, hafter.call _ (completes_of_perform hwithin rfl rfl), rfl, Or.inr rfl⟩
      | stop => exact ⟨_, hafter.call _ (completes_of_perform hwithin rfl rfl), rfl, Or.inl rfl⟩
    · rw [htest] at hafter hwithin
      cases c with
      | start => exact ⟨_, hafter.call _ (completes_of_perform hwithin rfl rfl), rfl, Or.inr rfl⟩
      | stop => exact ⟨_, hafter.call _ (completes_of_perform hwithin rfl rfl), rfl, Or.inl rfl⟩

/-! ## What the calls establish -/

/-- **When the last call has done what it is for.** For every sequence of `start` and `stop`, each
run to its return with any steps of the other threads in between, the server is running behind a
`start` and stopped behind a `stop` if and only if the sequence does not end in two `start`. -/
theorem after_calls_iff {calls : List Call} (h : After calls s) :
    (∀ c, calls.getLast? = some c → Establishes c s) ↔ ¬ [Call.start, Call.start] <:+ calls := by
  cases h with
  | nil => exact iff_of_true nofun (fun h => absurd (List.suffix_nil.mp h) nofun)
  | @call calls u _ c hbefore hcall =>
    have hlast : (calls ++ [c]).getLast? = some c := by
      rw [List.getLast?_append_of_ne_nil _ (List.cons_ne_nil c []), List.getLast?_singleton]
    have honly : (∀ d, (calls ++ [c]).getLast? = some d → Establishes d s) ↔ Establishes c s := by
      refine ⟨fun hall => hall c hlast, fun hc d hd => ?_⟩
      rw [hlast] at hd
      rw [← Option.some.inj hd]
      exact hc
    rw [honly, start_start_suffix_iff, ← hbefore.joinable]
    cases c with
    | start =>
      -- a `start` depends on the thread it has found
      show Running s ↔ _
      rw [running_iff hcall]
      simp
    | stop => exact iff_of_true hcall.stopped (fun h => absurd h.2 nofun)

/-- A server that has been started once. -/
theorem after_calls_start : ∃ s, After [.start] s ∧
    ∀ c, [Call.start].getLast? = some c → Establishes c s := by
  have h : After [.start]
      { acceptor_ := true, acceptingThread_ := some .testListening, listening_ := true } :=
    After.nil.call .start (completes_of_perform (callActions_within .start none) rfl rfl)
  exact ⟨_, h, (after_calls_iff h).mpr (by decide)⟩

/-- A server that has been started twice has an accept thread and no acceptor. -/
theorem start_start : ¬ ∀ calls s, After calls s →
    ∀ c, calls.getLast? = some c → Establishes c s := by
  intro hall
  have hone : After [.start]
      { acceptor_ := true, acceptingThread_ := some .testListening, listening_ := true } :=
    After.nil.call .start (completes_of_perform (callActions_within .start none) rfl rfl)
  have htwo : After [.start, .start]
      { acceptingThread_ := some .testListening, listening_ := true } :=
    hone.call .start
      (completes_of_perform (callActions_within .start (some .testListening)) rfl rfl)
  cases (hall _ _ htwo .start rfl).acceptor

end RestServer

end Rest
