import SimpleRest.Draining
import SimpleRest.FileRoutes
import SimpleRest.Spec.Program

/-!
# SimpleREST — a program until it ends

What a callback throws as an `InvalidRequest` is caught in its thread and answered with the status
400. So up to its end, a program whose callbacks throw is a system whose callbacks return:

- `caught`: the same threads, when the answer of the error handler is part of the call before it;
- `Proceeds.simulates`, `Moves.simulates`: under this abstraction a statement is one of the system,
  or is not seen there;
- `Steady`: what every reachable state of a program has;
- `refines`: so what every run of a system has, every run of a program has until it ends.
-/

namespace Rest

open Cpp Transition InterfaceProvider

variable {κ : Type}

/-! ## A server with other handler threads -/

namespace RestServer

variable {s t : RestServer}

theorem call_exchange {first : Control} (h : s.call first = some t) (handlers : List Handler) :
    t.handlers = s.handlers ∧
    ({ s with handlers } : RestServer).call first = some { t with handlers } := by
  unfold call at h ⊢
  split at h
  · next hidle =>
    cases h
    refine ⟨rfl, ?_⟩
    simp only [hidle]
  · cases h

theorem bindFails_exchange (h : s.bindFails = some t) (handlers : List Handler) :
    t.handlers = s.handlers ∧
    ({ s with handlers } : RestServer).bindFails = some { t with handlers } := by
  unfold bindFails at h ⊢
  split at h
  · next hat =>
    cases h
    refine ⟨rfl, ?_⟩
    simp only [hat]
  · cases h

theorem controlStep_exchange (h : s.controlStep = some t) (handlers : List Handler) :
    t.handlers = s.handlers ∧
    ({ s with handlers } : RestServer).controlStep = some { t with handlers } := by
  unfold controlStep at h ⊢
  split at h
  · cases h
  · cases h
  · next pc hpc =>
    simp only [hpc]
    cases pc with
    | testJoinable =>
      simp only [startStep] at h ⊢
      split at h <;> cases h <;> exact ⟨rfl, by simp [*]⟩
    | _ => cases h; exact ⟨rfl, rfl⟩
  · next caller pc hpc =>
    simp only [hpc]
    cases pc with
    | join =>
      simp only [stopStep] at h ⊢
      split at h
      · next hnone => cases h; exact ⟨rfl, by simp only [hnone]⟩
      · next hfinished => cases h; exact ⟨rfl, rfl⟩
      · cases h
    | _ => cases h; exact ⟨rfl, rfl⟩
  · next pc hpc =>
    simp only [hpc]
    cases pc with
    | testJoinable =>
      simp only [destructorStep] at h ⊢
      split at h <;> cases h <;> exact ⟨rfl, by simp [*]⟩
    | _ => cases h; exact ⟨rfl, rfl⟩

theorem acceptStep_exchange {ok : Bool} (h : s.acceptStep ok = some t) (handlers : List Handler) :
    ∃ made, t.handlers = s.handlers ++ made ∧ (made = [] ∨ ∃ c, made = [⟨c, .reading⟩]) ∧
      ({ s with handlers } : RestServer).acceptStep ok =
        some { t with handlers := handlers ++ made } := by
  cases hpc : s.acceptingThread_ with
  | none => simp [acceptStep, hpc] at h
  | some pc =>
    cases pc with
    | finished => simp [acceptStep, hpc] at h
    | crashed => simp [acceptStep, hpc] at h
    | lock c =>
      by_cases hfree : s.memberLock_ = none
      · simp only [acceptStep, hpc, if_pos hfree] at h
        cases h
        refine ⟨[], (List.append_nil _).symm, Or.inl rfl, ?_⟩
        simp only [acceptStep, if_pos hfree, List.append_nil]
      · simp only [acceptStep, hpc, if_neg hfree] at h
        cases h
    | spawn c =>
      simp only [acceptStep, hpc] at h
      cases h
      refine ⟨[⟨c, .reading⟩], rfl, Or.inr ⟨c, rfl⟩, ?_⟩
      simp only [acceptStep]
    | _ =>
      simp only [acceptStep, hpc] at h
      cases h
      refine ⟨[], (List.append_nil _).symm, Or.inl rfl, ?_⟩
      simp only [acceptStep, acceptAt, List.append_nil]

/-- **The user's thread and the accept thread do not look at the handler threads.** -/
theorem step_exchange {a : Action} (hother : ∀ n next, a ≠ .handler n next)
    (h : s.step a = some t) (handlers : List Handler) :
    ∃ made, t.handlers = s.handlers ++ made ∧ (made = [] ∨ ∃ c, made = [⟨c, .reading⟩]) ∧
      ({ s with handlers } : RestServer).step a = some { t with handlers := handlers ++ made } := by
  have hnone : t.handlers = s.handlers ∧
      ({ s with handlers } : RestServer).step a = some { t with handlers } →
      ∃ made, t.handlers = s.handlers ++ made ∧ (made = [] ∨ ∃ c, made = [⟨c, .reading⟩]) ∧
        ({ s with handlers } : RestServer).step a =
          some { t with handlers := handlers ++ made } := by
    rintro ⟨hsame, hstep⟩
    exact ⟨[], by rw [hsame, List.append_nil], Or.inl rfl, by rw [hstep, List.append_nil]⟩
  cases a with
  | callStart => exact hnone (call_exchange h handlers)
  | callStop => exact hnone (call_exchange h handlers)
  | callDestructor => exact hnone (call_exchange h handlers)
  | bindFails => exact hnone (bindFails_exchange h handlers)
  | control => exact hnone (controlStep_exchange h handlers)
  | accept ok => exact acceptStep_exchange h handlers
  | handler n next => exact absurd rfl (hother n next)

/-- Nor does what a handler thread does to the other members. -/
theorem handlerEffect_exchange {n : Nat} {hd : Handler} (h : s.handlerEffect n hd = some t)
    (handlers : List Handler) :
    ({ s with handlers } : RestServer).handlerEffect n hd = some { t with handlers } := by
  unfold handlerEffect at h ⊢
  split at h
  · split at h
    · next hfree =>
      cases h
      simp only [if_pos hfree]
    · cases h
  · cases h
    rfl
  · cases h
    rfl
  · cases h
    rfl

end RestServer

/-! ## One thread -/

/-- Callbacks that return: what has been thrown to the error handler has been answered. -/
def Throwing.caught (order : IterationOrder Str Str) (run : Throwing κ) : Run κ :=
  fun callback request response c =>
    match run callback request response c with
    | (c, .error (.invalidRequest message)) => errorHandler order c (.invalidRequest message)
    | (c, _) => c

/-- A thread goes on behind a call that ends so. -/
def Survives (result : Except Fault Unit) : Prop :=
  result = .ok () ∨ ∃ message, result = .error (.invalidRequest message)

/-- The event ends the program. -/
def Event.isEnd : Event κ → Bool
  | terminate _ | crash _ => true
  | _ => false

namespace Job

variable {order : IterationOrder Str Str} {run : Throwing κ} {requests_ : Requests κ}
  {j j' : Job κ}

/-- The program has ended in this thread. -/
def terminated (j : Job κ) : Bool := j.events.any Event.isEnd

/-- The same thread, when the answer of the error handler is part of the call before it. -/
def caught (order : IterationOrder Str Str) (j : Job κ) : Job κ :=
  match j.stage with
  | .callError fault | .answering fault =>
    if j.events.isEmpty then j
    else { j with connection := errorHandler order j.connection fault, stage := .lock }
  | _ => j

/-- What a handler thread can do in one statement when callbacks may throw. -/
inductive Proceeds (order : IterationOrder Str Str) (run : Throwing κ) (requests_ : Requests κ)
    (j : Job κ) : Statement κ → Prop where
  | next (j' : Job κ) (hplain : ∀ i, j.stage ≠ .acting (.callback i))
      (hnext : j.next order run.returning requests_ = some j') :
      Proceeds order run requests_ j (.goes j')
  | returns (i : Invocation κ) (c : RestConnection) (hat : j.stage = .acting (.callback i))
      (hcall : run i.callback i.request i.response j.connection = (c, .ok ())) :
      Proceeds order run requests_ j
        (.goes { j with connection := c, events := j.events ++ [.invoke i], stage := .lock })
  | throws (i : Invocation κ) (c : RestConnection) (message : Str)
      (hat : j.stage = .acting (.callback i))
      (hcall : run i.callback i.request i.response j.connection =
        (c, .error (.invalidRequest message))) :
      Proceeds order run requests_ j (.goes { j with
        connection := c
        events := j.events ++ [.invoke i]
        stage := .callError (.invalidRequest message) })
  | ends (i : Invocation κ) (c : RestConnection) (fault : Fault) (e : Event κ)
      (hat : j.stage = .acting (.callback i))
      (hcall : run i.callback i.request i.response j.connection = (c, .error fault))
      (hfatal : ¬ Survives (.error fault)) (hend : e.isEnd = true)
      (hended : ∀ id, ended order id i (c, .error fault) = ⟨c, [.invoke i, e]⟩) :
      Proceeds order run requests_ j
        (.ends { j with connection := c, events := j.events ++ [.invoke i] ++ [e] })

theorem proceed_proceeds {statement : Statement κ}
    (h : j.proceed order run requests_ = some statement) :
    Proceeds order run requests_ j statement := by
  unfold proceed at h
  split at h
  · next i hat =>
    simp only [Option.some.injEq] at h
    subst h
    generalize hcall : run i.callback i.request i.response j.connection = left
    obtain ⟨c, result⟩ := left
    cases result with
    | ok => exact .returns i c hat hcall
    | error fault =>
      cases fault with
      | invalidRequest message => exact .throws i c message hat hcall
      | _ => exact .ends i c _ _ hat hcall (by simp [Survives]) rfl fun _ => rfl
  · next hother =>
    obtain ⟨j', hnext, rfl⟩ := Option.map_eq_some_iff.mp h
    exact .next j' hother hnext

/-- A thread that is not done has a next statement, and may end the program in it. -/
theorem proceed_isSome {s : Str} (hread : j.stage = .reading → j.connection = .accepted j.peer.id_ s)
    (hlive : j.stage ≠ .done) (order : IterationOrder Str Str) (run : Throwing κ)
    (requests_ : Requests κ) : ∃ statement, j.proceed order run requests_ = some statement := by
  unfold proceed
  split
  · exact ⟨_, rfl⟩
  · obtain ⟨j', hnext⟩ := next_isSome hread hlive order run.returning requests_
    rw [hnext]
    exact ⟨_, rfl⟩

/-- Only the call of a callback depends on the callbacks. -/
theorem next_run (hplain : ∀ i, j.stage ≠ .acting (.callback i)) (run run' : Run κ) :
    j.next order run requests_ = j.next order run' requests_ := by
  unfold next
  split
  case h_5 task hat =>
    cases task with
    | callback i => exact absurd hat (hplain i)
    | _ => rfl
  all_goals rfl

/-- Only a thread that is about to answer looks different. -/
theorem caught_eq {stage : Stage κ} (hat : j.stage = stage)
    (hstage : ∀ fault, stage ≠ .callError fault ∧ stage ≠ .answering fault) :
    j.caught order = j := by
  subst hat
  unfold caught
  split
  · next fault hat => exact absurd hat (hstage fault).1
  · next fault hat => exact absurd hat (hstage fault).2
  · rfl

theorem caught_of_uncalled (hevents : j.events = []) : j.caught order = j := by
  unfold caught
  rw [hevents]
  split <;> rfl

/-- It looks as if it had answered. -/
theorem caught_answering {fault : Fault} (hcalled : j.events ≠ [])
    (hat : j.stage = .callError fault ∨ j.stage = .answering fault) :
    j.caught order =
      { j with connection := errorHandler order j.connection fault, stage := .lock } := by
  unfold caught
  have hempty : j.events.isEmpty = false := by
    cases hevents : j.events with
    | nil => exact absurd hevents hcalled
    | cons e es => rfl
  rcases hat with hat | hat
  · simp only [hat, hempty]
    rfl
  · simp only [hat, hempty]
    rfl

/-- **Under the abstraction a statement is one of a thread whose callbacks return**, or is not seen:
the statements between the throw and the end of the answer. -/
theorem Proceeds.simulates (hread : j.stage = .reading → j.events = [])
    (h : Proceeds order run requests_ j (.goes j')) :
    (j'.caught order = j.caught order ∧
      ∀ (s : RestServer) (n : Nat), s.handlerEffect n j.handler = some s) ∨
    (j.caught order = j ∧
      j.next order (run.caught order) requests_ = some (j'.caught order)) := by
  cases h with
  | next _ hplain hnext =>
    have hsame : j.next order (run.caught order) requests_ = some j' :=
      (next_run hplain _ _).trans hnext
    have hmove := next_move hnext
    rw [hsame]
    cases hmove with
    | rejects c message hat hfails =>
      refine Or.inr ⟨caught_eq hat (by simp), ?_⟩
      refine congrArg some (caught_of_uncalled ?_).symm
      exact hread hat
    | callsError fault hat =>
      by_cases hevents : j.events = []
      · refine Or.inr ⟨caught_of_uncalled hevents, congrArg some (caught_of_uncalled ?_).symm⟩
        exact hevents
      · refine Or.inl ⟨?_, fun s n => ?_⟩
        · refine Eq.trans (caught_answering ?_ (Or.inr rfl))
            (caught_answering hevents (Or.inl hat)).symm
          exact hevents
        · simp only [RestServer.handlerEffect, handler, hat, Stage.pc]
    | answers fault hat =>
      by_cases hevents : j.events = []
      · refine Or.inr ⟨caught_of_uncalled hevents, congrArg some (caught_of_uncalled ?_).symm⟩
        exact hevents
      · refine Or.inl ⟨?_, fun s n => ?_⟩
        · rw [caught_answering hevents (Or.inr hat)]
          exact caught_eq rfl (by simp)
        · simp only [RestServer.handlerEffect, handler, hat, Stage.pc]
    | _ =>
      -- neither the throw nor the answer
      exact Or.inr ⟨caught_eq rfl (by simp [*]), congrArg some (caught_eq rfl (by simp)).symm⟩
  | returns i c hat hcall =>
    refine Or.inr ⟨caught_eq hat (by simp), ?_⟩
    refine Eq.trans ?_ (congrArg some (caught_eq rfl ?_).symm)
    · simp only [Job.next, hat, Task.run, Task.invoked, Throwing.caught, hcall]
      rfl
    · simp
  | throws i c message hat hcall =>
    refine Or.inr ⟨caught_eq hat (by simp), ?_⟩
    rw [caught_answering (List.append_ne_nil_of_right_ne_nil _ (List.cons_ne_nil _ _))
      (Or.inl rfl)]
    simp only [Job.next, hat, Task.run, Task.invoked, Throwing.caught, hcall]
    rfl

theorem Proceeds.peer_eq (h : Proceeds order run requests_ j (.goes j')) : j'.peer = j.peer := by
  cases h with
  | next _ _ hnext => exact (next_move hnext).goes.peer
  | _ => rfl

theorem Proceeds.successor (h : Proceeds order run requests_ j (.goes j')) :
    j'.stage.pc ∈ j.stage.pc.successors := by
  cases h with
  | next _ hplain hnext => exact (next_move hnext).goes.successor
  | returns i c hat hcall =>
    rw [hat]
    simp [Stage.pc, HandlerPc.successors]
  | throws i c message hat hcall =>
    rw [hat]
    simp [Stage.pc, HandlerPc.successors]

theorem caught_frame (order : IterationOrder Str Str) (j : Job κ) :
    (j.caught order).peer = j.peer ∧ (j.caught order).events = j.events := by
  unfold caught
  split
  · split <;> exact ⟨rfl, rfl⟩
  · split <;> exact ⟨rfl, rfl⟩
  · exact ⟨rfl, rfl⟩

/-- The user's thread sees no difference. -/
theorem calling_caught (order : IterationOrder Str Str) (j : Job κ) (method : Str) :
    (j.caught order).calling method = j.calling method := by
  unfold caught
  split
  · next hat =>
    split
    · rfl
    · simp only [calling, hat]
  · next hat =>
    split
    · rfl
    · simp only [calling, hat]
  · rfl

/-- What is known of the calls a thread has made, and of the one it makes next. -/
structure Called (run : Throwing κ) (j : Job κ) : Prop where
  reading : j.stage = .reading → j.events = []
  calling : j.terminated = false → ∀ i, j.stage = .acting (.callback i) →
    i.request.connection_ = j.connection
  called : j.terminated = false → ∀ i, .invoke i ∈ j.events →
    Survives (run i.callback i.request i.response i.request.connection_).2

theorem called_accepted (peer : Connection) (s : Str) (log : List (Registration κ)) :
    Called run (accepted peer s log) :=
  ⟨fun _ => rfl, fun _ _ => nofun, fun _ _ => nofun⟩

theorem terminated_append (events : List (Event κ)) {e : Event κ} (hend : e.isEnd = false) :
    (events ++ [e]).any Event.isEnd = events.any Event.isEnd := by
  rw [List.any_append, List.any_cons, hend]
  exact Bool.or_false _

/-- A statement that goes on does not end the program. -/
theorem Proceeds.terminated_eq (h : Proceeds order run requests_ j (.goes j')) :
    j'.terminated = j.terminated := by
  cases h with
  | next _ hplain hnext =>
    cases next_move hnext with
    | acts task hat =>
      cases task with
      | callback i => exact absurd hat (hplain i)
      | _ => exact congrArg (List.any · Event.isEnd) (List.append_nil j.events)
    | erases hat => exact terminated_append j.events rfl
    | _ => rfl
  | _ => exact terminated_append j.events rfl

theorem Proceeds.called (hj : Called run j) (hlive : j.terminated = false)
    (h : Proceeds order run requests_ j (.goes j')) : Called run j' := by
  have hcalls : ∀ i, j.stage = .acting (.callback i) →
      Survives (run i.callback i.request i.response j.connection).2 → ∀ i',
        .invoke i' ∈ j.events ++ [.invoke i] →
          Survives (run i'.callback i'.request i'.response i'.request.connection_).2 := by
    intro i hat hsurvives i' hi'
    rcases List.mem_append.mp hi' with hold | hnew
    · exact hj.called hlive i' hold
    · cases List.mem_singleton.mp hnew
      rw [hj.calling hlive i hat]
      exact hsurvives
  cases h with
  | next _ hplain hnext =>
    have hmove := next_move hnext
    have hcalling : ∀ i, j'.stage = .acting (.callback i) →
        i.request.connection_ = j'.connection := by
      cases hmove with
      | looks url task hat hlook =>
        rintro i ⟨rfl⟩
        exact lookUp_connection hlook
      | _ => simp
    have hevents : ∀ i, .invoke i ∈ j'.events → .invoke i ∈ j.events := by
      cases hmove with
      | acts task hat =>
        cases task with
        | callback i => exact absurd hat (hplain i)
        | _ => simp [Task.invoked]
      | erases hat => simp
      | _ => exact fun i hi => hi
    exact ⟨fun hat => absurd hat hmove.goes.read, fun _ => hcalling,
      fun _ i hi => hj.called hlive i (hevents i hi)⟩
  | returns i c hat hcall =>
    refine ⟨by simp, by simp, fun _ => hcalls i hat ?_⟩
    rw [hcall]
    exact Or.inl rfl
  | throws i c message hat hcall =>
    refine ⟨by simp, by simp, fun _ => hcalls i hat ?_⟩
    rw [hcall]
    exact Or.inr ⟨message, rfl⟩

/-- A thread that has ended the program is left at its call. -/
theorem Proceeds.terminated (h : Proceeds order run requests_ j (.ends j')) :
    j'.terminated = true ∧ j'.handler = j.handler ∧ Called run j' := by
  cases h with
  | ends i c fault e hat hcall hfatal hend hended =>
    have hterminated : (j.events ++ [Event.invoke i] ++ [e]).any Event.isEnd = true := by
      rw [List.any_append, List.any_cons, hend]
      exact Bool.or_true _
    refine ⟨hterminated, rfl, ⟨fun hreading => ?_, fun hlive => ?_, fun hlive => ?_⟩⟩
    · rw [show j.stage = .reading from hreading] at hat
      cases hat
    · exact absurd hterminated (Bool.eq_false_iff.mp hlive)
    · exact absurd hterminated (Bool.eq_false_iff.mp hlive)

end Job

/-! ## All threads -/

/-- The same system, when the answers of the error handlers are part of the calls before them. -/
def System.caught (order : IterationOrder Str Str) (s : System κ) : System κ :=
  let jobs := s.jobs.map (Job.caught order)
  { s with server := { s.server with handlers := jobs.map Job.handler }, jobs }

namespace System

variable {order : IterationOrder Str Str} {client : Nat → Str} {s t : System κ}

/-- A thread that looks the same is there. -/
theorem caught_getElem? {n : Nat} {j : Job κ} (hget : s.jobs[n]? = some j)
    (hj : j.caught order = j) : (s.caught order).jobs[n]? = some j := by
  rw [System.caught, List.getElem?_map, hget, Option.map_some, hj]

theorem caught_length : (s.caught order).jobs.length = s.jobs.length := List.length_map _

theorem registerStep_caught {r : Registration κ} (h : s.registerStep r = some t) :
    (s.caught order).registerStep r = some (t.caught order) := by
  have hcalling : (s.caught order).jobs.all (fun j => !j.calling r.verb.method) =
      s.jobs.all (fun j => !j.calling r.verb.method) := by
    rw [System.caught, List.all_map]
    refine congrArg s.jobs.all (funext fun j => ?_)
    rw [Function.comp_apply, Job.calling_caught]
  unfold registerStep at h ⊢
  rw [hcalling]
  split at h
  · next hcan =>
    cases h
    exact if_pos hcan
  · cases h

theorem serverStep_caught (hpaired : s.server.handlers = s.jobs.map Job.handler) {a : Action}
    (h : s.serverStep client a = some t) :
    (s.caught order).serverStep client a = some (t.caught order) := by
  have hmain : (∀ n next, a ≠ .handler n next) → ∀ u, s.server.step a = some u →
      ((s.caught order).server.step a).map ((s.caught order).after client) =
        some ((s.after client u).caught order) := by
    intro hother u hu
    obtain ⟨made, hmade, hcases, hstep⟩ :=
      RestServer.step_exchange hother hu ((s.jobs.map (Job.caught order)).map Job.handler)
    have hserver : (s.caught order).server.step a = some { u with
        handlers := (s.jobs.map (Job.caught order)).map Job.handler ++ made } := hstep
    rw [hserver, Option.map_some]
    rcases hcases with rfl | ⟨c, rfl⟩
    · rw [after_same hpaired (hmade.trans (List.append_nil _)),
        after_same (s := s.caught order) rfl (List.append_nil _), List.append_nil]
      rfl
    · rw [after_made hpaired hmade, after_made (s := s.caught order) rfl rfl]
      simp only [System.caught, List.map_append]
      rfl
  cases a with
  | handler n next => cases h
  | _ =>
    obtain ⟨u, hu, rfl⟩ := Option.map_eq_some_iff.mp h
    exact hmain nofun u hu

/-- A statement that is seen is the same statement in the other system. -/
theorem handlerStep_caught {run : Run κ} {n : Nat} {j j' : Job κ} {v : RestServer}
    (hget : s.jobs[n]? = some j)
    (huses : (j.stage.pc.usesServer → s.server.control.hasServer) ∧
      (j.usesTable → s.server.control.hasTable))
    (hv : s.server.handlerEffect n j.handler = some v) (hj : j.caught order = j)
    (hnext : j.next order run s.requests_ = some (j'.caught order)) (handlers : List Handler) :
    (s.caught order).handlerStep order run n = some (System.caught order
      { s with server := { v with handlers }, jobs := s.jobs.set n j' }) := by
  have hgoes := (Job.next_move hnext).goes
  have hjob : (s.caught order).jobs[n]? = some j := caught_getElem? hget hj
  have hhandler : (s.caught order).server.handlers[n]? = some j.handler := by
    show ((s.caught order).jobs.map Job.handler)[n]? = _
    rw [List.getElem?_map, hjob]
    rfl
  have heffect : (s.caught order).server.handlerEffect n j.handler =
      some { v with handlers := (s.caught order).server.handlers } :=
    RestServer.handlerEffect_exchange hv _
  have hpeer : (j'.caught order).handler =
      { j.handler with pc := (j'.caught order).stage.pc } := by
    rw [Job.handler, hgoes.peer]
    rfl
  have hserver : (s.caught order).server.handlerStep n (j'.caught order).stage.pc =
      some { v with handlers :=
        ((s.caught order).jobs.set n (j'.caught order)).map Job.handler } := by
    have hsuccessor : (j'.caught order).stage.pc ∈ j.handler.pc.successors := hgoes.successor
    simp only [RestServer.handlerStep, hhandler, if_pos hsuccessor, heffect, Option.map_some,
      List.map_set, hpeer]
    rfl
  have hjobs : (s.jobs.set n j').map (Job.caught order) =
      (s.caught order).jobs.set n (j'.caught order) := List.map_set
  have hnext' : j.next order run (s.caught order).requests_ = some (j'.caught order) := hnext
  unfold System.handlerStep
  simp only [hjob, hnext', hserver, Option.map_some]
  refine (if_pos ?_).trans ?_
  · exact huses
  · simp only [System.caught, hjobs]

end System

namespace Program

variable {order : IterationOrder Str Str} {run : Throwing κ} {client : Nat → Str}
  {p q : Program κ}

/-- What the program can do in one step. -/
inductive Moves (order : IterationOrder Str Str) (run : Throwing κ) (client : Nat → Str)
    (p : Program κ) : SystemAction κ → Program κ → Prop where
  | registers (r : Registration κ) (s : System κ) (hstep : p.registerStep r = some s) :
      Moves order run client p (.register r) { p with toSystem := s }
  | server (a : Action) (s : System κ) (hstep : p.serverStep client a = some s) :
      Moves order run client p (.server a) { p with toSystem := s }
  | goes (n : Nat) (j j' : Job κ) (u : RestServer) (hget : p.jobs[n]? = some j)
      (huses : (j.stage.pc.usesServer → p.server.control.hasServer) ∧
        (j.usesTable → p.server.control.hasTable))
      (hproceed : j.Proceeds order run p.requests_ (.goes j'))
      (hstep : p.server.handlerStep n j'.stage.pc = some u) :
      Moves order run client p (.handler n) { p with server := u, jobs := p.jobs.set n j' }
  | ends (n : Nat) (j j' : Job κ) (hget : p.jobs[n]? = some j)
      (hproceed : j.Proceeds order run p.requests_ (.ends j')) :
      Moves order run client p (.handler n) { p with jobs := p.jobs.set n j', ended := true }

theorem step_moves {a : SystemAction κ} (h : p.step order run client a = some q) :
    p.ended = false ∧ Moves order run client p a q := by
  unfold step at h
  split at h
  · cases h
  · next hlive =>
    refine ⟨by simpa using hlive, ?_⟩
    cases a with
    | register r =>
      obtain ⟨s, hs, rfl⟩ := Option.map_eq_some_iff.mp h
      exact .registers r s hs
    | server a =>
      obtain ⟨s, hs, rfl⟩ := Option.map_eq_some_iff.mp h
      exact .server a s hs
    | handler n =>
      simp only [handlerStep] at h
      split at h
      · cases h
      · next j hget =>
        split at h
        · next huses =>
          split at h
          · cases h
          · next j' hproceed =>
            obtain ⟨u, hu, rfl⟩ := Option.map_eq_some_iff.mp h
            exact .goes n j j' u hget huses (Job.proceed_proceeds hproceed) hu
          · next j' hproceed =>
            cases h
            exact .ends n j j' hget (Job.proceed_proceeds hproceed)
        · cases h

/-- **Under the abstraction a step of the program is one of the system**, or is not seen there. -/
theorem Moves.simulates (hpaired : p.server.handlers = p.jobs.map Job.handler)
    (hread : ∀ j ∈ p.jobs, j.stage = .reading → j.events = []) {a : SystemAction κ}
    (h : Moves order run client p a q) (hlive : q.ended = false) :
    q.caught order = p.caught order ∨
      (p.caught order).step order (run.caught order) client a = some (q.caught order) := by
  cases h with
  | registers r s hstep => exact Or.inr (System.registerStep_caught hstep)
  | server a s hstep => exact Or.inr (System.serverStep_caught hpaired hstep)
  | ends n j j' hget hproceed => cases hlive
  | goes n j j' u hget huses hproceed hstep =>
    obtain ⟨hd, v, hhd, hsucc, hv, rfl⟩ := RestServer.handlerStep_move hstep
    rw [hpaired, List.getElem?_map, hget] at hhd
    cases hhd
    rcases hproceed.simulates (hread j (List.mem_of_getElem? hget)) with
      ⟨hsame, hnone⟩ | ⟨hj, hnext⟩
    · refine Or.inl ?_
      have hjobs : (p.jobs.set n j').map (Job.caught order) = p.jobs.map (Job.caught order) := by
        rw [List.map_set, hsame]
        exact System.set_getElem?_self (by rw [List.getElem?_map, hget]; rfl)
      rw [hnone] at hv
      cases hv
      simp only [System.caught, hjobs]
    · exact Or.inr (System.handlerStep_caught hget huses hv hj hnext _)

/-- What every reachable state of a program has. -/
structure Steady (run : Throwing κ) (p : Program κ) : Prop where
  /-- the server sees the jobs -/
  paired : p.server.handlers = p.jobs.map Job.handler
  called : ∀ j ∈ p.jobs, j.Called run
  /-- the program has ended in one of its threads -/
  terminated : p.ended = p.jobs.any Job.terminated

theorem steady_start (run : Throwing κ) : Steady run {} where
  paired := rfl
  called := nofun
  terminated := rfl

theorem Steady.alive (h : Steady run p) (hlive : p.ended = false) :
    ∀ j ∈ p.jobs, j.terminated = false := by
  intro j hj
  have hnone := h.terminated.symm.trans hlive
  rw [List.any_eq_false] at hnone
  simpa using hnone j hj

/-- **Every step keeps it.** -/
theorem Moves.steady (hp : Steady run p) (hlive : p.ended = false) {a : SystemAction κ}
    (h : Moves order run client p a q) : Steady run q := by
  cases h with
  | registers r s hstep =>
    have hmoves : System.Moves order run.returning client p.toSystem (.register r) s :=
      System.step_moves hstep
    cases hmoves with
    | registers r => exact ⟨hp.paired, hp.called, hp.terminated⟩
  | server a s hstep =>
    have hmoves : System.Moves order run.returning client p.toSystem (.server a) s :=
      System.step_moves hstep
    cases hmoves with
    | server a u hother hu =>
      rcases RestServer.handlers_of_step hother hu with hsame | ⟨c, hmade⟩
      · rw [System.after_same hp.paired hsame]
        exact ⟨hsame.trans hp.paired, hp.called, hp.terminated⟩
      · rw [System.after_made hp.paired hmade]
        refine ⟨?_, fun j hj => ?_, ?_⟩
        · rw [hmade, hp.paired, List.map_append]
          rfl
        · rcases List.mem_append.mp hj with hold | hnew
          · exact hp.called j hold
          · rw [List.mem_singleton.mp hnew]
            exact Job.called_accepted c _ _
        · show p.ended = (p.jobs ++ [_]).any Job.terminated
          rw [List.any_append, ← hp.terminated]
          exact (Bool.or_false _).symm
  | goes n j j' u hget huses hproceed hstep =>
    have hmem := List.mem_of_getElem? hget
    have hterminated := hp.alive hlive j hmem
    refine ⟨System.handlers_set hp.paired hget hproceed.peer_eq hstep, fun i hi => ?_, ?_⟩
    · rcases List.mem_or_eq_of_mem_set hi with hold | rfl
      · exact hp.called i hold
      · exact hproceed.called (hp.called j hmem) hterminated
    · show p.ended = _
      rw [hlive, eq_comm, List.any_eq_false]
      intro i hi
      rcases List.mem_or_eq_of_mem_set hi with hold | rfl
      · simpa using hp.alive hlive i hold
      · simpa using hproceed.terminated_eq.trans hterminated
  | ends n j j' hget hproceed =>
    have hlength : n < p.jobs.length := (List.getElem?_eq_some_iff.mp hget).1
    obtain ⟨hterminated, hhandler, hcalled⟩ := hproceed.terminated
    refine ⟨?_, fun i hi => ?_, ?_⟩
    · show p.server.handlers = _
      rw [hp.paired, List.map_set, hhandler]
      exact (System.set_getElem?_self (by rw [List.getElem?_map, hget]; rfl)).symm
    · rcases List.mem_or_eq_of_mem_set hi with hold | rfl
      · exact hp.called i hold
      · exact hcalled
    · exact (List.any_eq_true.mpr ⟨j', List.mem_set hlength j', hterminated⟩).symm

theorem Reachable.steady (h : Reachable order run client p) : Steady run p :=
  Transition.Run.invariant (steady_start run)
    (fun _ _ _ hp _ hstep => (step_moves hstep).2.steady hp (step_moves hstep).1) h

/-! ## The program as a system -/

theorem caught_run {kind : SystemAction κ → Prop} (hp : Steady run p)
    (hrun : Transition.Run (step order run client) (fun _ => kind) p q) (hlive : q.ended = false) :
    Transition.Run (System.step order (run.caught order) client) (fun _ => kind)
      (p.caught order) (q.caught order) := by
  refine Run.simulates (I := Steady run) (L := fun p => p.ended = false)
    (fun p : Program κ => p.caught order) hp (fun _ _ _ hs _ hstep => ?_)
    (fun s a t hs hkind hstep ht => ?_) hrun hlive
  · obtain ⟨hs', hmoves⟩ := step_moves hstep
    exact ⟨hs', hmoves.steady hs hs'⟩
  · have hreading : ∀ j ∈ s.jobs, j.stage = .reading → j.events = [] := fun j hj =>
      (hs.called j hj).reading
    exact ((step_moves hstep).2.simulates hs.paired hreading ht).imp_right fun h => ⟨a, hkind, h⟩

/-- A program that has not ended had not ended before. -/
theorem alive_before {kind : SystemAction κ → Prop}
    (hrun : Transition.Run (step order run client) (fun _ => kind) p q) (hlive : q.ended = false) :
    p.ended = false := by
  rcases Relation.ReflTransGen.cases_head hrun with rfl | ⟨u, ⟨a, _, hstep⟩, _⟩
  · exact hlive
  · exact (step_moves hstep).1

theorem Reachable.caught (h : Reachable order run client p) (hlive : p.ended = false) :
    System.Reachable order (run.caught order) client (p.caught order) :=
  caught_run (steady_start run) h hlive

/-- Where the callbacks return, a program is a system. -/
theorem step_returning
    (hreturn : ∀ callback request response c, (run callback request response c).2 = .ok ())
    (s : System κ) (a : SystemAction κ) :
    step order run client ⟨s, false⟩ a =
      (s.step order run.returning client a).map fun t => ⟨t, false⟩ := by
  have hproceed : ∀ j : Job κ, j.proceed order run s.requests_ =
      (j.next order run.returning s.requests_).map .goes := by
    intro j
    unfold Job.proceed
    split
    · next i hat =>
      have hok := hreturn i.callback i.request i.response j.connection
      generalize hcall : run i.callback i.request i.response j.connection = left at hok
      obtain ⟨c, result⟩ := left
      cases hok
      simp only [Job.next, hat, Task.run, Task.invoked, Throwing.returning, hcall]
      rfl
    · rfl
  cases a with
  | register r => rfl
  | server a => rfl
  | handler n =>
    show handlerStep order run ⟨s, false⟩ n = (s.handlerStep order run.returning n).map _
    unfold handlerStep System.handlerStep
    cases hget : s.jobs[n]? with
    | none => rfl
    | some j =>
      simp only [hproceed]
      by_cases huses : (j.stage.pc.usesServer = true → s.server.control.hasServer = true) ∧
          (j.usesTable = true → s.server.control.hasTable = true)
      · rw [if_pos huses, if_pos huses]
        cases j.next order run.returning s.requests_ with
        | none => rfl
        | some j' =>
          simp only [Option.map_some, Option.map_map]
          rfl
      · rw [if_neg huses, if_neg huses]
        rfl

/-- **A program is a system until it ends.** For all callbacks, whatever they throw, and for all
clients and orders of steps:

- every run that has not ended the program is a run of a system whose callbacks return, where the
  answer of the error handler to what a callback has thrown is part of the call. Every thread is
  that of the same peer in both, with the same calls and deregistrations behind it, and is the same
  when it is done;
- where no callback throws, the program and the system do the same steps. -/
theorem refines (hp : Reachable order run client p) (hrun : Runs order run client p q)
    (hlive : q.ended = false) :
    System.Reachable order (run.caught order) client (p.caught order) ∧
    System.Runs order (run.caught order) client (p.caught order) (q.caught order) ∧
    (∀ (n : Nat) (j : Job κ), q.jobs[n]? = some j → ∃ j', (q.caught order).jobs[n]? = some j' ∧
      j'.peer = j.peer ∧ j'.events = j.events ∧ (j.stage = .done → j' = j)) ∧
    ((∀ callback request response c, (run callback request response c).2 = .ok ()) →
      ∀ s a, step order run client ⟨s, false⟩ a =
        (s.step order run.returning client a).map fun t => ⟨t, false⟩) := by
  refine ⟨hp.caught (alive_before hrun hlive), caught_run hp.steady hrun hlive,
    fun n j hget => ⟨j.caught order, ?_, ?_⟩, step_returning⟩
  · rw [System.caught, List.getElem?_map, hget, Option.map_some]
  · obtain ⟨hpeer, hevents⟩ := Job.caught_frame order j
    exact ⟨hpeer, hevents, fun hdone =>
      Job.caught_eq hdone (by simp)⟩

/-- Callbacks that throw. -/
def failing (fault : Fault) : Throwing Unit := fun _ _ _ c => (c, .error fault)

/-- A program whose callback throws an invalid request, and whose thread comes to its end. -/
theorem refines_rejecting : ∃ (q : Program Unit) (j : Job Unit), q.jobs[0]? = some j ∧
    j.stage = .done ∧
    System.Reachable .arbitrary ((failing (.invalidRequest [])).caught .arbitrary)
      (fun _ => rootHead) (q.caught .arbitrary) := by
  obtain ⟨q, j, hq, hget, hdone, hlive⟩ : ∃ (q : Program Unit) (j : Job Unit),
      perform (step .arbitrary (failing (.invalidRequest [])) fun _ => rootHead) {}
        (.register ⟨.get, "/".toList, ()⟩ :: System.oneAccepted ++
          List.replicate 10 (.handler 0)) = some q ∧
      q.jobs[0]? = some j ∧ j.stage = .done ∧ q.ended = false :=
    ⟨_, _, rfl, rfl, rfl, rfl⟩
  obtain ⟨hreach, hruns, _⟩ := refines Relation.ReflTransGen.refl (run_of_perform hq) hlive
  exact ⟨q, j, hget, hdone, Relation.ReflTransGen.trans hreach hruns⟩

end Program

end Rest
