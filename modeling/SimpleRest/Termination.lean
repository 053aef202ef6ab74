import SimpleRest.Catching

/-!
# SimpleREST — what ends the program

A callback that throws ends the program for all clients, unless it throws an `InvalidRequest`:

- `step_isSome`: every other thread can go on, unless it waits for the lock;
- `Called.alone`, `Proceeds.alone`: a thread that is done, and one that ends the program, do what
  they do alone;
- `terminates`: so the program only ends where a client ends it alone;
- `Doomed`: a thread that will call such a callback goes on to it;
- `ends_iff`: a client can end the program exactly if it does so alone, and then nobody can keep it
  from that.
-/

namespace Rest

open Cpp Transition InterfaceProvider

variable {κ : Type}

/-! ## One thread -/

namespace Job

variable {order : IterationOrder Str Str} {run : Throwing κ} {requests_ : Requests κ}
  {j j' : Job κ}

/-- A call that its thread goes on behind is one of a callback that returns. -/
theorem ended_caught (order : IterationOrder Str Str) (id : UserId) {i : Invocation κ}
    {c : RestConnection} (h : Survives (run i.callback i.request i.response c).2) :
    ended order id i (run i.callback i.request i.response c) =
      ⟨run.caught order i.callback i.request i.response c, [.invoke i, .deregister id]⟩ := by
  unfold Throwing.caught
  generalize run i.callback i.request i.response c = left at h
  obtain ⟨c, result⟩ := left
  rcases h with rfl | ⟨message, rfl⟩
  · rfl
  · rfl

/-- A thread that is done has done what it does alone, if it does so with the answers as parts of
the calls. -/
theorem Called.alone (hj : Called run j) (hlive : j.terminated = false) {id : UserId} {s : Str}
    {requests_ : Requests κ} (h : (⟨j.connection, j.events⟩ : Finished κ) =
      InterfaceProvider.handlerThread order (run.caught order) requests_ (.accepted id s)) :
    (⟨j.connection, j.events⟩ : Finished κ) =
      throwingThread order run requests_ (.accepted id s) := by
  rcases throwingThread_cases order run requests_ id s with ⟨c, hreturns, heq⟩ |
    ⟨i, _, hreturns, heq⟩
  · rw [heq, h, hreturns]
  · rw [hreturns] at h
    have hcalls : .invoke i ∈ j.events := by
      rw [show j.events = [.invoke i, .deregister id] from congrArg Finished.events h]
      exact List.mem_cons_self
    rw [heq, ended_caught order id (hj.called hlive i hcalls), h]

/-- So has a thread that ends the program. -/
theorem Proceeds.alone (hj : Called run j) (hlive : j.terminated = false)
    (h : Proceeds order run requests_ j (.ends j')) {id : UserId} {s : Str}
    {table : Requests κ} (hout : j.outcome order (run.caught order) table =
      InterfaceProvider.handlerThread order (run.caught order) table (.accepted id s)) :
    (⟨j'.connection, j'.events⟩ : Finished κ) =
      throwingThread order run table (.accepted id s) := by
  cases h with
  | ends i c fault e hat hcall hfatal hend hended =>
    have hevents : (j.outcome order (run.caught order) table).events =
        j.events ++ [.invoke i] ++ [.deregister j.peer.id_] := by
      simp only [outcome, hat]
      rfl
    rw [hout] at hevents
    rcases throwingThread_cases order run table id s with ⟨_, hreturns, _⟩ |
      ⟨i', _, hreturns, heq⟩
    · -- alone it would call nobody
      rw [hreturns] at hevents
      have hlength := congrArg List.length hevents
      simp at hlength
    · rw [hreturns] at hevents
      have hnone : j.events = [] := by
        have hlength := congrArg List.length hevents
        simpa using hlength
      rw [hnone] at hevents
      have hsame : i' = i := Event.invoke.inj (List.cons.inj hevents).1
      rw [heq, hsame, hj.calling hlive i hat, hcall, hended, hnone]
      rfl

end Job

/-! ## What the other threads leave as it is -/

namespace System

variable {order : IterationOrder Str Str} {client : Nat → Str} {s t : System κ}

end System

namespace Program

variable {order : IterationOrder Str Str} {run : Throwing κ} {client : Nat → Str}
  {p q : Program κ}

/-! ## Progress -/

/-- A thread that still reads has read nothing. -/
theorem fresh (hp : Reachable order run client p) (hlive : p.ended = false) {n : Nat} {j : Job κ}
    (hget : p.jobs[n]? = some j) : j.Fresh (client j.peer.serial) := by
  intro hat
  have hcalled := hp.steady.called j (List.mem_of_getElem? hget)
  have hget' : (p.caught order).jobs[n]? = some j :=
    System.caught_getElem? hget (Job.caught_of_uncalled (hcalled.reading hat))
  exact ((hp.caught hlive).serves.serial j (List.mem_of_getElem? hget')).fresh hat

/-- What the next statement of a thread needs has not been destroyed. -/
def Uses (p : Program κ) (j : Job κ) : Prop :=
  (j.stage.pc.usesServer = true → p.server.control.hasServer = true) ∧
    (j.usesTable = true → p.server.control.hasTable = true)

theorem step_ends (hlive : p.ended = false) {n : Nat} {j j' : Job κ} (hget : p.jobs[n]? = some j)
    (huses : Uses p j) (hproceed : j.proceed order run p.requests_ = some (.ends j')) :
    p.step order run client (.handler n) =
      some { p with jobs := p.jobs.set n j', ended := true } := by
  unfold step
  rw [if_neg (Bool.eq_false_iff.mp hlive)]
  simp only [handlerStep, hget, hproceed]
  exact if_pos huses

theorem step_goes (hsteady : Steady run p) (hlive : p.ended = false) {n : Nat} {j j' : Job κ}
    (hget : p.jobs[n]? = some j) (huses : Uses p j)
    (hproceed : j.proceed order run p.requests_ = some (.goes j'))
    (hlock : j.stage = .lock → p.server.memberLock_ = none) :
    ∃ u, p.server.handlerStep n j'.stage.pc = some u ∧
      p.step order run client (.handler n) =
        some { p with server := u, jobs := p.jobs.set n j' } := by
  have hhandler : p.server.handlers[n]? = some j.handler := by
    rw [hsteady.paired, List.getElem?_map, hget]
    rfl
  obtain ⟨u, hu⟩ : ∃ u, p.server.handlerStep n j'.stage.pc = some u := by
    obtain ⟨_, _, hu⟩ := RestServer.handlerStep_enabled hhandler
      (Job.proceed_proceeds hproceed).successor fun hpc => hlock (Stage.eq_lock hpc)
    exact ⟨_, hu⟩
  refine ⟨u, hu, ?_⟩
  unfold step
  rw [if_neg (Bool.eq_false_iff.mp hlive)]
  simp only [handlerStep, hget, hproceed, hu]
  exact if_pos huses

/-- **A thread that is not done can do its next statement**, if it has not to wait for the lock and
what it needs has not been destroyed. -/
theorem step_isSome (hp : Reachable order run client p) (hlive : p.ended = false) {n : Nat}
    {j : Job κ} (hget : p.jobs[n]? = some j) (hdone : j.stage ≠ .done) (huses : Uses p j)
    (hlock : j.stage = .lock → p.server.memberLock_ = none) :
    ∃ u, p.step order run client (.handler n) = some u := by
  obtain ⟨statement, hproceed⟩ :=
    Job.proceed_isSome (fun hat => (fresh hp hlive hget hat).1) hdone order run p.requests_
  cases statement with
  | ends j' => exact ⟨_, step_ends hlive hget huses hproceed⟩
  | goes j' =>
    obtain ⟨u, _, hstep⟩ := step_goes hp.steady hlive hget huses hproceed hlock
    exact ⟨_, hstep⟩

/-! ## What ends it -/

/-- A run that has ended the program has ended it in its last step. -/
theorem ends_last {kind : SystemAction κ → Prop}
    (hrun : Transition.Run (step order run client) (fun _ => kind) p q) (hlive : p.ended = false)
    (hended : q.ended = true) :
    ∃ u n j j', Transition.Run (step order run client) (fun _ => kind) p u ∧ u.ended = false ∧
      kind (.handler n) ∧ u.jobs[n]? = some j ∧ j.Proceeds order run u.requests_ (.ends j') ∧
      q = { u with jobs := u.jobs.set n j', ended := true } := by
  rcases Relation.ReflTransGen.cases_tail hrun with rfl | ⟨u, hu, a, hkind, hstep⟩
  · rw [hlive] at hended
    cases hended
  · obtain ⟨halive, hmoves⟩ := step_moves hstep
    cases hmoves with
    | ends n j j' hget hproceed => exact ⟨u, n, j, j', hu, halive, hkind, hget, hproceed, rfl⟩
    | _ => exact absurd hended (Bool.eq_false_iff.mp halive)

/-- What a thread has done that was made behind `p`, and has come to its end before the program. -/
theorem finished_alone (hp : Reachable order run client p) (hrun : Runs order run client p q)
    (hlive : q.ended = false) {n : Nat} {j : Job κ} (hnew : p.jobs.length ≤ n)
    (hget : q.jobs[n]? = some j) (hdone : j.stage = .done) :
    ∃ seen, p.log <+: seen ∧ seen <+: q.log ∧ (⟨j.connection, j.events⟩ : Finished κ) =
      throwingThread order run (registerAll seen)
        (.accepted j.peer.id_ (client j.peer.serial)) := by
  have hlength : (p.caught order).jobs.length ≤ n := System.caught_length.trans_le hnew
  have hget' : (q.caught order).jobs[n]? = some j :=
    System.caught_getElem? hget (Job.caught_eq hdone (by simp))
  obtain ⟨seen, hbefore, hafter, halone⟩ :=
    System.finished_between (hp.caught (alive_before hrun hlive)) (caught_run hp.steady hrun hlive)
      hlength hget' hdone
  have hsteady : Steady run q := Reachable.steady (Relation.ReflTransGen.trans hp hrun)
  have hmem := List.mem_of_getElem? hget
  exact ⟨seen, hbefore, hafter,
    (hsteady.called j hmem).alone (hsteady.alive hlive j hmem) halone⟩

/-- What a thread has done that was made behind `p` and ends the program in its next statement. -/
theorem ends_alone (hp : Reachable order run client p) (hrun : Runs order run client p q)
    (hlive : q.ended = false) {n : Nat} {j j' : Job κ} (hnew : p.jobs.length ≤ n)
    (hget : q.jobs[n]? = some j) (hends : j.Proceeds order run q.requests_ (.ends j')) :
    ∃ seen, p.log <+: seen ∧ seen <+: q.log ∧ (⟨j'.connection, j'.events⟩ : Finished κ) =
      throwingThread order run (registerAll seen)
        (.accepted j.peer.id_ (client j.peer.serial)) := by
  have hreach := hp.caught (alive_before hrun hlive)
  have hruns := caught_run hp.steady hrun hlive
  have hsteady : Steady run q := Reachable.steady (Relation.ReflTransGen.trans hp hrun)
  have hmem := List.mem_of_getElem? hget
  have hacting : ∃ i, j.stage = .acting (.callback i) := by
    cases hends with
    | ends i c fault e hat => exact ⟨i, hat⟩
  obtain ⟨i, hat⟩ := hacting
  have hget' : (q.caught order).jobs[n]? = some j :=
    System.caught_getElem? hget (Job.caught_eq hat (by simp))
  have hlength : (p.caught order).jobs.length ≤ n := System.caught_length.trans_le hnew
  have hserial := (System.Reachable.serves (Relation.ReflTransGen.trans hreach hruns)).serial j
    (List.mem_of_getElem? hget')
  obtain ⟨seen, hknown, hafter, houtcome⟩ := hserial.asked (by rw [hat]; rfl)
  exact ⟨seen, (System.known_of_new hruns hlength hget').trans hknown, hafter,
    hends.alone (hsteady.called j hmem) (hsteady.alive hlive j hmem) (houtcome _)⟩

/-- What a thread has done that is done, or has ended the program. -/
theorem over_alone (hp : Reachable order run client p) (hrun : Runs order run client p q) {n : Nat}
    {j : Job κ} (hnew : p.jobs.length ≤ n) (hget : q.jobs[n]? = some j)
    (hend : j.stage = .done ∨ j.terminated = true) :
    ∃ seen, p.log <+: seen ∧ seen <+: q.log ∧ (⟨j.connection, j.events⟩ : Finished κ) =
      throwingThread order run (registerAll seen)
        (.accepted j.peer.id_ (client j.peer.serial)) := by
  have hdone : ∀ {u : Program κ}, Runs order run client p u → u.ended = false →
      u.jobs[n]? = some j → j.stage = .done := by
    intro u hu hlive hold
    have hsteady : Steady run u := Reachable.steady (Relation.ReflTransGen.trans hp hu)
    refine hend.resolve_right ?_
    rw [hsteady.alive hlive j (List.mem_of_getElem? hold)]
    exact Bool.false_ne_true
  cases hended : q.ended with
  | false => exact finished_alone hp hrun hended hnew hget (hdone hrun hended hget)
  | true =>
    cases hstart : p.ended with
    | true =>
      -- behind the end no thread is made
      rcases Relation.ReflTransGen.cases_head hrun with rfl | ⟨u, ⟨a, _, hstep⟩, _⟩
      · rw [List.getElem?_eq_none hnew] at hget
        cases hget
      · exact absurd hstart (Bool.eq_false_iff.mp (step_moves hstep).1)
    | false =>
      obtain ⟨u, m, i, i', hu, hlive, _, hi, hends, rfl⟩ := ends_last hrun hstart hended
      rcases System.getElem?_set_cases hget with ⟨rfl, rfl⟩ | ⟨_, hold⟩
      · have hpeer : i'.peer = i.peer := congrArg Handler.connection hends.terminated.2.1
        rw [hpeer]
        exact ends_alone hp hu hlive hnew hi hends
      · exact finished_alone hp hu hlive hnew hold (hdone hu hlive hold)

/-- Callbacks that throw nothing but what is caught do not end the program. -/
theorem ended_of_survives (hp : Reachable order run client p)
    (hall : ∀ callback request response c, Survives (run callback request response c).2) :
    p.ended = false := by
  rw [Bool.eq_false_iff]
  intro hended
  obtain ⟨u, n, j, j', _, _, _, _, hends, _⟩ := ends_last hp rfl hended
  cases hends with
  | ends i c fault e hat hcall hfatal =>
    have hsurvives := hall i.callback i.request i.response j.connection
    rw [hcall] at hsurvives
    exact hfatal hsurvives

/-- **What ends the program.** For all callbacks, whatever they throw, and for every run, with all
threads in any order:

- the program has ended exactly if the call of a callback has ended it, in one of the threads;
- this thread has done what it does alone, with the table of one moment behind its start, and so has
  every thread that is done;
- so callbacks that throw nothing but an `InvalidRequest` never end it, whatever clients send;
- and as long as it has not ended, every thread that is not done can do its next statement. It waits
  for nothing but the lock, as long as the server and the table have not been destroyed. -/
theorem terminates (hp : Reachable order run client p) (hrun : Runs order run client p q) :
    (q.ended = true ↔ ∃ j ∈ q.jobs, j.terminated = true) ∧
    (∀ (n : Nat) (j : Job κ), p.jobs.length ≤ n → q.jobs[n]? = some j →
      j.stage = .done ∨ j.terminated = true →
      ∃ seen, p.log <+: seen ∧ seen <+: q.log ∧ (⟨j.connection, j.events⟩ : Finished κ) =
        throwingThread order run (registerAll seen)
          (.accepted j.peer.id_ (client j.peer.serial))) ∧
    ((∀ callback request response c, Survives (run callback request response c).2) →
      q.ended = false) ∧
    ∀ (n : Nat) (j : Job κ), q.ended = false → q.jobs[n]? = some j → j.stage ≠ .done → Uses q j →
      (j.stage = .lock → q.server.memberLock_ = none) →
      ∃ u, q.step order run client (.handler n) = some u := by
  have hq : Reachable order run client q := Relation.ReflTransGen.trans hp hrun
  refine ⟨?_, fun n j hnew hget hend => over_alone hp hrun hnew hget hend,
    fun hall => ended_of_survives hq hall, fun n j hlive hget hdone huses hlock =>
      step_isSome hq hlive hget hdone huses hlock⟩
  rw [hq.steady.terminated, List.any_eq_true]

/-- The thread that has ended this program has done what it does alone. -/
theorem terminates_failing : ∃ (q : Program Unit) (j : Job Unit) (seen : List (Registration Unit)),
    q.ended = true ∧ q.jobs[0]? = some j ∧ [⟨.get, "/".toList, ()⟩] <+: seen ∧
    (⟨j.connection, j.events⟩ : Finished Unit) =
      throwingThread .arbitrary (failing (.runtimeError [])) (registerAll seen)
        (.accepted j.peer.id_ rootHead) := by
  obtain ⟨p, q, j, hp, hq, hlog, hnew, hget, hterminated, hended⟩ :
      ∃ (p q : Program Unit) (j : Job Unit),
      perform (step .arbitrary (failing (.runtimeError [])) fun _ => rootHead) {}
        [.register ⟨.get, "/".toList, ()⟩] = some p ∧
      perform (step .arbitrary (failing (.runtimeError [])) fun _ => rootHead) p
        (System.oneAccepted ++ List.replicate 5 (.handler 0)) = some q ∧
      p.log = [⟨.get, "/".toList, ()⟩] ∧ p.jobs.length ≤ 0 ∧ q.jobs[0]? = some j ∧
      j.terminated = true ∧ q.ended = true :=
    ⟨_, _, _, rfl, rfl, rfl, Nat.le_refl 0, rfl, rfl, rfl⟩
  obtain ⟨_, hthreads, _⟩ := terminates (run_of_perform hp) (run_of_perform hq)
  obtain ⟨seen, hbefore, _, halone⟩ := hthreads 0 j hnew hget (Or.inr hterminated)
  exact ⟨q, j, seen, hended, hget, hlog ▸ hbefore, halone⟩

/-- No request is registered. -/
def Quiet : SystemAction κ → Prop
  | .register _ => False
  | _ => True

/-- How much one thread has still to do. -/
def left (n : Nat) (p : Program κ) : Nat :=
  if p.ended then 0 else 1 + ((p.jobs[n]?).map fun j => j.stage.rank).getD 0

end Program

end Rest
