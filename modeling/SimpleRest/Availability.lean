import SimpleRest.Draining
import SimpleRest.StartStop

/-!
# SimpleREST — clients that stall

A client that keeps silent keeps its thread in `readHead`, and a callback may never return. What
this does to the other clients depends on the one thing the threads share, the lock of the registry:

- `Awake`: the steps of all other threads, those of the accept thread among them;
- `Withstands`: what they keep. The server goes on taking clients (`comes`), and the threads that do
  not stall come to their end (`settles`);
- `Shut`: behind a thread that stalls inside its `LOCK_SCOPE` nobody is served;
- `available`: so the stalled threads keep nobody from being served exactly if none has the lock.
-/

namespace Rest

open Cpp Transition

variable {κ : Type}

/-- The thread is in the loop. -/
def AcceptPc.looping : AcceptPc → Bool
  | .finished | .crashed => false
  | _ => true

/-- The number of statements in front of the next handler thread, if the `accept` succeeds. -/
def AcceptPc.ahead : AcceptPc → Nat
  | .testListening => 8
  | .increment => 7
  | .construct => 6
  | .accept _ => 5
  | .accepting _ => 4
  | .lock _ => 3
  | .insert _ => 2
  | .unlock _ => 1
  | _ => 0

namespace RestServer

variable {s t : RestServer}

/-- The server takes clients: it is running, and its accept thread is in the loop. -/
structure Takes (s : RestServer) : Prop extends Running s where
  looping : ∀ pc, s.acceptingThread_ = some pc → pc.looping = true

/-- Where there is an acceptor and `listening_` is set, the loop goes on. -/
theorem AcceptMove.takes (h : AcceptMove s t) (hs : Takes s) : Takes t := by
  have hframe := h.frame
  have hthread : ∃ pc, t.acceptingThread_ = some pc ∧ pc.looping = true := by
    cases h with
    | test hpc => exact ⟨.increment, by rw [hs.listening]; rfl, rfl⟩
    | accept c hpc => exact ⟨.accepting c, by rw [hs.acceptor]; rfl, rfl⟩
    | accepted c ok hpc =>
      cases ok with
      | false => exact ⟨_, rfl, rfl⟩
      | true => exact ⟨_, rfl, rfl⟩
    | _ => exact ⟨_, rfl, rfl⟩
  obtain ⟨pc, hpc, hlooping⟩ := hthread
  refine ⟨⟨hframe.listening.trans hs.listening, hframe.acceptor.trans hs.acceptor, ?_⟩, ?_⟩
  · rw [hpc]
    rfl
  · intro pc' hpc'
    rw [hpc] at hpc'
    rw [← Option.some.inj hpc']
    exact hlooping

theorem handlerStep_takes {n : Nat} {next : HandlerPc} (h : s.handlerStep n next = some t)
    (hs : Takes s) : Takes t := by
  obtain ⟨hd, u, _, _, hu, rfl⟩ := handlerStep_move h
  obtain ⟨_, hthread, hacceptor, hlistening, _⟩ := handlerEffect_frame hu
  exact ⟨⟨hlistening.trans hs.listening, hacceptor.trans hs.acceptor, hthread ▸ hs.thread⟩,
    fun pc hpc => hs.looping pc (hthread ▸ hpc)⟩

/-- A step towards the next handler thread: an `accept` that succeeds, and whatever else there is
to do, if the lock is free where it is needed. -/
theorem Takes.advances (hs : Takes s) {pc : AcceptPc} (hpc : s.acceptingThread_ = some pc)
    (hspawn : ∀ c, pc ≠ .spawn c) (hlock : ∀ c, pc = .lock c → s.memberLock_ = none) :
    ∃ t pc', s.step (.accept true) = some t ∧ t.handlers = s.handlers ∧
      t.acceptingThread_ = some pc' ∧ pc'.ahead < pc.ahead := by
  simp only [RestServer.step, acceptStep, hpc]
  cases pc with
  | testListening =>
    rw [hs.listening]
    exact ⟨_, .increment, rfl, rfl, rfl, by decide⟩
  | accept c =>
    rw [hs.acceptor]
    exact ⟨_, .accepting c, rfl, rfl, rfl, Nat.lt_succ_self 4⟩
  | lock c => exact ⟨_, .insert c, if_pos (hlock c rfl), rfl, rfl, Nat.lt_succ_self 2⟩
  | spawn c => exact absurd rfl (hspawn c)
  | finished => exact Bool.noConfusion (hs.looping _ hpc)
  | crashed => exact Bool.noConfusion (hs.looping _ hpc)
  | _ => exact ⟨_, _, rfl, rfl, rfl, Nat.lt_succ_self _⟩

end RestServer

namespace System

variable {order : IterationOrder Str Str} {run : Run κ} {client : Nat → Str}
  {stalled : Nat → Prop} {s t u : System κ}

/-! ## What is asked for -/

/-- A step of the accept thread, or of a handler thread that does not stall. -/
def Awake (stalled : Nat → Prop) : SystemAction κ → Prop
  | .handler n => ¬ stalled n
  | .server (.accept _) => True
  | _ => False

/-- The provider takes clients. -/
structure Open (s : System κ) : Prop where
  table : s.server.control.hasTable = true
  takes : s.server.Takes

/-- Not one of the stalled threads is inside its `LOCK_SCOPE`. -/
def Outside (stalled : Nat → Prop) (s : System κ) : Prop :=
  ∀ n j, stalled n → s.jobs[n]? = some j → j.stage.pc.inside = false

/-- The threads that do not stall are done, and no connection is waiting for its thread. -/
structure Settled (stalled : Nat → Prop) (s : System κ) : Prop where
  done : ∀ n j, s.jobs[n]? = some j → ¬ stalled n → j.stage = .done
  testing : s.server.acceptingThread_ = some .testListening

/-! ## What the steps of the other threads keep -/

structure Withstands (order : IterationOrder Str Str) (run : Run κ) (client : Nat → Str)
    (stalled : Nat → Prop) (s t : System κ) : Prop where
  run : Transition.Run (step order run client) Unregistered s t
  isOpen : Open t
  kept : ∀ n, stalled n → t.jobs[n]? = s.jobs[n]?

theorem Withstands.reachable (h : Withstands order run client stalled s t)
    (hs : Reachable order run client s) : Reachable order run client t :=
  Relation.ReflTransGen.trans hs h.run.unguarded

theorem Withstands.refl (hopen : Open s) : Withstands order run client stalled s s :=
  ⟨Relation.ReflTransGen.refl, hopen, fun _ _ => rfl⟩

/-- **What one step of another thread keeps.** -/
theorem Withstands.step (hthere : ∀ n, stalled n → n < s.jobs.length)
    (h : Withstands order run client stalled s t) {a : SystemAction κ}
    (ha : Awake stalled a) (hstep : t.step order run client a = some u) :
    Withstands order run client stalled s u := by
  have hunregistered : Unregistered t a := by
    cases a with
    | register r => exact ha
    | _ => trivial
  have hrun := Relation.ReflTransGen.tail h.run ⟨a, hunregistered, hstep⟩
  cases step_moves hstep with
  | registers r => exact absurd ha id
  | server a w hother hw =>
    cases a with
    | accept ok =>
      have hmove := RestServer.acceptStep_move hw
      have hopen : w.control.hasTable = true := by
        rw [hmove.control_eq]
        exact h.isOpen.table
      refine ⟨hrun, ⟨hopen, hmove.takes h.isOpen.takes⟩, fun n hn => ?_⟩
      -- what has been made stands behind the threads that there are
      have hlt : n < t.jobs.length := by
        obtain ⟨j, hget⟩ : ∃ j, s.jobs[n]? = some j :=
          ⟨_, List.getElem?_eq_getElem (hthere n hn)⟩
        exact (List.getElem?_eq_some_iff.mp ((h.kept n hn).trans hget)).1
      exact (List.getElem?_append_left hlt).trans (h.kept n hn)
    | _ => exact absurd ha id
  | handles n j j' w hget hnext hw =>
    have hopen : w.control.hasTable = true := by
      rw [RestServer.handlerStep_control hw]
      exact h.isOpen.table
    refine ⟨hrun, ⟨hopen, RestServer.handlerStep_takes hw h.isOpen.takes⟩, fun m hm => ?_⟩
    have hmn : n ≠ m := by
      intro heq
      exact ha (heq ▸ hm)
    exact (List.getElem?_set_ne hmn).trans (h.kept m hm)

theorem Withstands.perform (hthere : ∀ n, stalled n → n < s.jobs.length)
    (h : Withstands order run client stalled s t) {as : List (SystemAction κ)}
    (has : ∀ a ∈ as, Awake stalled a)
    (hperform : Transition.perform (System.step order run client) t as = some u) :
    Withstands order run client stalled s u :=
  perform_invariant (I := Withstands order run client stalled s) h has
    (fun _ _ _ hv ha hstep => hv.step hthere ha hstep) hperform

/-- Who has the lock does not stall. -/
theorem Withstands.holder (hs : Reachable order run client s) (houtside : Outside stalled s)
    (h : Withstands order run client stalled s t) {n : Nat}
    (hlock : t.server.memberLock_ = some (.handler n)) :
    ¬ stalled n ∧ ∃ u, t.step order run client (.handler n) = some u := by
  have hreach := h.reachable hs
  obtain ⟨j, hget, hinside, hsteps⟩ := holder_steps hreach h.isOpen.table hlock
  refine ⟨fun hn => ?_, hsteps⟩
  rw [houtside n j hn ((h.kept n hn).symm.trans hget)] at hinside
  cases hinside

/-! ## The next thread -/

/-- How much there is to do before the next thread is made. -/
def ahead (s : System κ) : Nat := (s.server.acceptingThread_.map AcceptPc.ahead).getD 0

/-- At the statement that makes the next thread. -/
def AtSpawn (s : System κ) : Prop := ∃ c, s.server.acceptingThread_ = some (.spawn c)

/-- **As long as the accept thread is not there, it can go on, or the holder of the lock can.** -/
theorem Withstands.advances (hs : Reachable order run client s)
    (hthere : ∀ n, stalled n → n < s.jobs.length) (houtside : Outside stalled s)
    (h : Withstands order run client stalled s t) (hspawn : ¬ AtSpawn t) :
    ∃ a u, Awake stalled a ∧ t.step order run client a = some u ∧
      (Withstands order run client stalled s u ∧ u.jobs.length = t.jobs.length) ∧
      u.ahead + u.rank < t.ahead + t.rank := by
  have hreach := h.reachable hs
  obtain ⟨pc, hpc⟩ := Option.isSome_iff_exists.mp h.isOpen.takes.thread
  by_cases hlock : ∀ c, pc = .lock c → t.server.memberLock_ = none
  · obtain ⟨w, pc', hw, hhandlers, hpc', hlt⟩ := h.isOpen.takes.advances hpc
      (fun c hat => hspawn ⟨c, hat ▸ hpc⟩) hlock
    have hstep : t.step order run client (.server (.accept true)) = some { t with server := w } := by
      rw [← after_same hreach.serves.paired hhandlers]
      exact Option.map_eq_some_iff.mpr ⟨w, hw, rfl⟩
    refine ⟨.server (.accept true), _, trivial, hstep,
      ⟨h.step hthere (a := .server (.accept true)) trivial hstep, rfl⟩, ?_⟩
    simp only [ahead, hpc, hpc', Option.map_some, Option.getD_some, rank]
    omega
  · -- the accept thread waits for the lock, and a handler thread has it
    push Not at hlock
    obtain ⟨c, hat, htaken⟩ := hlock
    obtain ⟨holder, hholder⟩ := Option.ne_none_iff_exists'.mp htaken
    cases holder with
    | accept =>
      obtain ⟨pc', hpc', hinside⟩ := hreach.server.coherent.lockedByAccept hholder
      rw [hpc, hat] at hpc'
      cases hpc'
      cases hinside
    | handler m =>
      obtain ⟨hawake, u, hstep⟩ := h.holder hs houtside hholder
      obtain ⟨hrank, hlength, hthread⟩ := handler_step hstep
      refine ⟨.handler m, u, hawake, hstep,
        ⟨h.step hthere (a := .handler m) hawake hstep, hlength⟩, ?_⟩
      rw [ahead, ahead, hthread]
      omega

/-- **The next client comes in.** The accept thread makes a thread for it and tests its loop. -/
theorem Withstands.comes (hs : Reachable order run client s)
    (hthere : ∀ n, stalled n → n < s.jobs.length) (houtside : Outside stalled s)
    (h : Withstands order run client stalled s t) :
    ∃ as u, (∀ a ∈ as, Awake stalled a) ∧
      Transition.perform (System.step order run client) t as = some u ∧
      u.jobs.length = t.jobs.length + 1 ∧
      u.server.acceptingThread_ = some .testListening := by
  have hprogress : ∀ v, Withstands order run client stalled s v ∧ v.jobs.length = t.jobs.length →
      ¬ AtSpawn v → ∃ a w, Awake stalled a ∧ v.step order run client a = some w ∧
        (Withstands order run client stalled s w ∧ w.jobs.length = t.jobs.length) ∧
        w.ahead + w.rank < v.ahead + v.rank := by
    intro v ⟨hv, hlength⟩ hspawn
    obtain ⟨a, w, ha, hstep, ⟨hw, hsame⟩, hlt⟩ := hv.advances hs hthere houtside hspawn
    exact ⟨a, w, ha, hstep, ⟨hw, hsame.trans hlength⟩, hlt⟩
  obtain ⟨as, v, has, hperform, ⟨hv, hlength⟩, c, hspawn⟩ := exists_perform_to
    (fun v : System κ => v.ahead + v.rank)
    (I := fun v => Withstands order run client stalled s v ∧ v.jobs.length = t.jobs.length)
    ⟨h, rfl⟩ hprogress
  have hreach := hv.reachable hs
  obtain ⟨w, hw, hhandlers, hthread⟩ : ∃ w, v.server.step (.accept true) = some w ∧
      w.handlers = v.server.handlers ++ [⟨c, .reading⟩] ∧
      w.acceptingThread_ = some .testListening := by
    simp only [RestServer.step, RestServer.acceptStep, hspawn]
    exact ⟨_, rfl, rfl, rfl⟩
  have hstep : v.step order run client (.server (.accept true)) = some { v with
      server := w, jobs := v.jobs ++ [.accepted c (client c.serial) v.log] } := by
    rw [← after_made hreach.serves.paired hhandlers]
    exact Option.map_eq_some_iff.mpr ⟨w, hw, rfl⟩
  refine ⟨as ++ [.server (.accept true)], _, ?_, perform_concat hperform hstep, ?_, hthread⟩
  · intro a ha
    rcases List.mem_append.mp ha with hold | hlast
    · exact has a hold
    · rw [List.mem_singleton.mp hlast]
      trivial
  · show (v.jobs ++ [_]).length = _
    rw [List.length_append, hlength]
    rfl

/-! ## The threads that do not stall -/

/-- One of them goes on, or waits for one that does. -/
theorem Withstands.progress (hs : Reachable order run client s) (houtside : Outside stalled s)
    (h : Withstands order run client stalled s t)
    (htesting : t.server.acceptingThread_ = some .testListening)
    (hlive : ¬ ∀ n j, t.jobs[n]? = some j → ¬ stalled n → j.stage = .done) :
    ∃ n u, ¬ stalled n ∧ t.step order run client (.handler n) = some u := by
  have hreach := h.reachable hs
  push Not at hlive
  obtain ⟨n, j, hget, hn, hj⟩ := hlive
  cases hlock : t.server.memberLock_ with
  | none =>
    obtain ⟨_, _, _, hstep⟩ := hreach.serves.step_isSome hget hj
      (fun _ => Control.hasServer_of_hasTable h.isOpen.table) (fun _ => h.isOpen.table)
      (fun _ => hlock)
    exact ⟨n, _, hn, hstep⟩
  | some holder =>
    cases holder with
    | accept =>
      obtain ⟨pc, hpc, hinside⟩ := hreach.server.coherent.lockedByAccept hlock
      rw [htesting] at hpc
      cases hpc
      cases hinside
    | handler m =>
      obtain ⟨hawake, u, hstep⟩ := h.holder hs houtside hlock
      exact ⟨m, u, hawake, hstep⟩

/-- **They come to their end**, if the accept thread is at the test of its loop. -/
theorem Withstands.settles (hs : Reachable order run client s)
    (hthere : ∀ n, stalled n → n < s.jobs.length) (houtside : Outside stalled s)
    (h : Withstands order run client stalled s t)
    (htesting : t.server.acceptingThread_ = some .testListening) :
    ∃ as u, (∀ a ∈ as, Awake stalled a) ∧
      Transition.perform (System.step order run client) t as = some u ∧
      u.jobs.length = t.jobs.length ∧ Settled stalled u := by
  have hprogress : ∀ v, (Withstands order run client stalled s v ∧ v.jobs.length = t.jobs.length ∧
        v.server.acceptingThread_ = some .testListening) →
      ¬ (∀ n j, v.jobs[n]? = some j → ¬ stalled n → j.stage = .done) →
      ∃ a w, Awake stalled a ∧ v.step order run client a = some w ∧
        (Withstands order run client stalled s w ∧ w.jobs.length = t.jobs.length ∧
          w.server.acceptingThread_ = some .testListening) ∧ w.rank < v.rank := by
    intro v ⟨hv, hlength, htesting⟩ hlive
    obtain ⟨n, w, hn, hstep⟩ := hv.progress hs houtside htesting hlive
    obtain ⟨hrank, hsame, hthread⟩ := handler_step hstep
    exact ⟨.handler n, w, hn, hstep, ⟨hv.step hthere (a := .handler n) hn hstep,
      hsame.trans hlength, hthread.trans htesting⟩, hrank⟩
  obtain ⟨as, u, has, hperform, ⟨_, hlength, htesting'⟩, hdone⟩ := exists_perform_to rank
    (I := fun v => Withstands order run client stalled s v ∧ v.jobs.length = t.jobs.length ∧
      v.server.acceptingThread_ = some .testListening)
    ⟨h, rfl, htesting⟩ hprogress
  exact ⟨as, u, has, hperform, hlength, hdone, htesting'⟩

/-- **Any number of clients come in and are served.** -/
theorem Withstands.serves (hs : Reachable order run client s)
    (hthere : ∀ n, stalled n → n < s.jobs.length) (houtside : Outside stalled s)
    (h : Withstands order run client stalled s t) (k : Nat) :
    ∃ as u, (∀ a ∈ as, Awake stalled a) ∧
      Transition.perform (System.step order run client) t as = some u ∧
      u.jobs.length = t.jobs.length + (k + 1) ∧ Settled stalled u := by
  have hcome : ∃ as u, (∀ a ∈ as, Awake stalled a) ∧
      Transition.perform (System.step order run client) t as = some u ∧
      u.jobs.length = t.jobs.length + (k + 1) ∧
      u.server.acceptingThread_ = some .testListening := by
    induction k with
    | zero => exact h.comes hs hthere houtside
    | succ k ih =>
      obtain ⟨as, v, has, hv, hlength, _⟩ := ih
      obtain ⟨bs, u, hbs, hu, hnext, htesting⟩ :=
        (h.perform hthere has hv).comes hs hthere houtside
      refine ⟨as ++ bs, u, fun a ha => (List.mem_append.mp ha).elim (has a) (hbs a), ?_, ?_,
        htesting⟩
      · rw [perform_append, hv]
        exact hu
      · omega
  obtain ⟨as, v, has, hv, hlength, htesting⟩ := hcome
  obtain ⟨bs, u, hbs, hu, hsame, hsettled⟩ :=
    (h.perform hthere has hv).settles hs hthere houtside htesting
  refine ⟨as ++ bs, u, fun a ha => (List.mem_append.mp ha).elim (has a) (hbs a), ?_,
    hsame.trans hlength, hsettled⟩
  rw [perform_append, hv]
  exact hu

/-- What a thread that has been made since comes to is what it comes to alone, with the table as it
was. -/
theorem Withstands.alone (hs : Reachable order run client s)
    (h : Withstands order run client stalled s t) {n : Nat} {j : Job κ}
    (hnew : s.jobs.length ≤ n) (hget : t.jobs[n]? = some j) (hdone : j.stage = .done) :
    (⟨j.connection, j.events⟩ : Finished κ) =
      InterfaceProvider.handlerThread order run s.requests_
        (.accepted j.peer.id_ (client j.peer.serial)) := by
  have hreach := h.reachable hs
  rw [finished_settled hs h.run hnew hget hdone, hs.serves.table,
    hreach.peer_id (List.mem_of_getElem? hget)]

/-- When the others are done the registry holds the connections of the threads that stall, and no
others. -/
theorem Withstands.registry (hs : Reachable order run client s) (houtside : Outside stalled s)
    (h : Withstands order run client stalled s t) (hsettled : Settled stalled t)
    (hfew : t.server.constructed ≤ 2 ^ 64) (k : UserId) (c : Connection) :
    t.server.connections_.lookup k = some c ↔
      (∃ n j, stalled n ∧ s.jobs[n]? = some j ∧ j.stage ≠ .done ∧ j.peer = c) ∧ c.id_ = k := by
  have hreach := h.reachable hs
  have hnone : t.server.unhandled ≠ some c := by
    unfold RestServer.unhandled
    rw [hsettled.testing]
    nofun
  rw [lookup_connections hreach h.isOpen.table hfew, or_iff_left hnone]
  refine and_congr_left fun _ => ⟨?_, ?_⟩
  · rintro ⟨n, j, hget, hin, hpeer⟩
    have hlive : j.stage ≠ .done := by
      intro hat
      rw [hat] at hin
      cases hin
    by_cases hn : stalled n
    · exact ⟨n, j, hn, (h.kept n hn).symm.trans hget, hlive, hpeer⟩
    · exact absurd (hsettled.done n j hget hn) hlive
  · rintro ⟨n, j, hn, hget, hlive, hpeer⟩
    refine ⟨n, j, (h.kept n hn).trans hget, ?_, hpeer⟩
    -- neither at its end nor behind its erasure
    have hout := houtside n j hn hget
    cases hat : j.stage with
    | done => exact absurd hat hlive
    | unlock =>
      rw [hat] at hout
      cases hout
    | _ => rfl

/-! ## A thread that stalls with the lock -/

theorem inside_of_done {pc : HandlerPc} (h : HandlerPc.done ∈ pc.successors) : pc.inside = true := by
  cases pc <;> simp_all [HandlerPc.successors, HandlerPc.inside]

/-- Thread `m` has the lock, and no thread from number `k` on is done. -/
structure Shut (m k : Nat) (s : System κ) : Prop where
  lock : s.server.memberLock_ = some (.handler m)
  unserved : ∀ n j, k ≤ n → s.jobs[n]? = some j → j.stage ≠ .done

/-- **Nobody gets past it.** A thread that comes to its end has given the lock back. -/
theorem Shut.step {m k : Nat} (hs : Reachable order run client s) (h : Shut m k s) (hm : stalled m)
    {a : SystemAction κ} (ha : Awake stalled a)
    (hstep : s.step order run client a = some t) : Shut m k t := by
  have hlocked := hs.server.locked
  cases step_moves hstep with
  | registers r => exact absurd ha id
  | server a w hother hw =>
    cases a with
    | accept ok =>
      refine ⟨?_, fun n j hn hget => ?_⟩
      · show w.memberLock_ = _
        cases RestServer.acceptStep_move hw with
        | lock c hpc hfree =>
          rw [h.lock] at hfree
          cases hfree
        | unlock c hpc =>
          have haccept := hlocked.accept _ hpc rfl
          rw [h.lock] at haccept
          cases haccept
        | _ => exact h.lock
      · rcases RestServer.handlers_of_step hother hw with hsame | ⟨c, hmade⟩
        · rw [after_same hs.serves.paired hsame] at hget
          exact h.unserved n j hn hget
        · rw [after_made hs.serves.paired hmade] at hget
          by_cases hold : n < s.jobs.length
          · exact h.unserved n j hn ((List.getElem?_append_left hold).symm.trans hget)
          · have hlast := List.mem_of_getElem?
              ((List.getElem?_append_right (Nat.le_of_not_lt hold)).symm.trans hget)
            rw [List.mem_singleton.mp hlast]
            nofun
    | _ => exact absurd ha id
  | handles n j j' w hget hnext hw =>
    have hhandler : s.server.handlers[n]? = some j.handler := by
      rw [hs.serves.paired, List.getElem?_map, hget]
      rfl
    have houtside : j.stage.pc.inside ≠ true := by
      intro hinside
      have hlock := hlocked.handler n j.handler hhandler hinside
      rw [h.lock] at hlock
      cases hlock
      exact ha hm
    obtain ⟨hd, v, hhd, hsuccessor, hv, rfl⟩ := RestServer.handlerStep_move hw
    rw [hhandler] at hhd
    cases hhd
    refine ⟨?_, fun i j₁ hi hget₁ => ?_⟩
    · show v.memberLock_ = _
      rcases RestServer.handlerEffect_lock hv with ⟨_, hfree, _⟩ | ⟨hat, _⟩ | ⟨_, _, hsame⟩
      · rw [h.lock] at hfree
        cases hfree
      · exact absurd (by rw [show j.stage.pc = _ from hat]; rfl) houtside
      · exact hsame.trans h.lock
    · rcases getElem?_set_cases hget₁ with ⟨_, rfl⟩ | ⟨_, hold⟩
      · intro hdone
        rw [hdone] at hsuccessor
        exact houtside (inside_of_done hsuccessor)
      · exact h.unserved i j₁ hi hold

theorem Shut.of_inside (hs : Reachable order run client s) (hinside : ¬ Outside stalled s) :
    ∃ m, stalled m ∧ Shut m s.jobs.length s := by
  unfold Outside at hinside
  push Not at hinside
  obtain ⟨m, j, hm, hget, hin⟩ := hinside
  have hhandler : s.server.handlers[m]? = some j.handler := by
    rw [hs.serves.paired, List.getElem?_map, hget]
    rfl
  refine ⟨m, hm, hs.server.locked.handler m j.handler hhandler ?_, ?_⟩
  · exact Bool.eq_true_of_not_eq_false hin
  · intro n j' hn hget'
    rw [List.getElem?_eq_none hn] at hget'
    cases hget'

/-! ## The other clients -/

/-- **Clients that stall keep nobody from being served.** In every reachable state in which the
provider takes clients, some of the handler threads stall: they do no further statement, while the
accept thread and the other handler threads go on.

- The next client can be served to its end if and only if no stalled thread is inside its
  `LOCK_SCOPE`.
- Then this is so whatever the others have done, in any order, and for any number of clients: the
  others can go on to a state in which so many more have come in and every thread that does not
  stall is done. The stalled threads are where they were, each new client has got what its thread
  does alone on the table, and the registry holds the connections of the stalled threads and no
  others, if no more than 2⁶⁴ connections have been constructed. -/
theorem available (hs : Reachable order run client s) (hopen : Open s)
    (hthere : ∀ n, stalled n → n < s.jobs.length) :
    ((∃ as t j, (∀ a ∈ as, Awake stalled a) ∧
        Transition.perform (System.step order run client) s as = some t ∧
        t.jobs[s.jobs.length]? = some j ∧ j.stage = .done) ↔ Outside stalled s) ∧
    (Outside stalled s → ∀ as t, (∀ a ∈ as, Awake stalled a) →
      Transition.perform (System.step order run client) s as = some t → ∀ k,
      ∃ bs u, (∀ b ∈ bs, Awake stalled b) ∧
        Transition.perform (System.step order run client) t bs = some u ∧
        u.jobs.length = t.jobs.length + (k + 1) ∧
        (∀ n, stalled n → u.jobs[n]? = s.jobs[n]?) ∧
        (∀ n j, u.jobs[n]? = some j → ¬ stalled n → j.stage = .done ∧
          (s.jobs.length ≤ n → (⟨j.connection, j.events⟩ : Finished κ) =
            InterfaceProvider.handlerThread order run s.requests_
              (.accepted j.peer.id_ (client j.peer.serial)))) ∧
        (u.server.constructed ≤ 2 ^ 64 → ∀ key c, u.server.connections_.lookup key = some c ↔
          (∃ n j, stalled n ∧ s.jobs[n]? = some j ∧ j.stage ≠ .done ∧ j.peer = c) ∧
            c.id_ = key)) := by
  have hstart : Withstands order run client stalled s s := Withstands.refl hopen
  refine ⟨⟨fun ⟨as, t, j, has, hperform, hget, hdone⟩ => ?_, fun houtside => ?_⟩,
    fun houtside as t has hperform k => ?_⟩
  · -- a thread that stalls with the lock would keep the new one from its end
    by_contra hinside
    obtain ⟨m, hm, hshut⟩ := Shut.of_inside hs hinside
    have hboth := perform_invariant
      (I := fun u => Reachable order run client u ∧ Shut m s.jobs.length u) ⟨hs, hshut⟩ has
      (fun u a v hu ha hstep => ⟨Relation.ReflTransGen.tail hu.1 ⟨a, trivial, hstep⟩,
        hu.2.step hu.1 hm ha hstep⟩) hperform
    exact hboth.2.unserved _ j (Nat.le_refl _) hget hdone
  · obtain ⟨as, t, has, hperform, hlength, hsettled⟩ := hstart.serves hs hthere houtside 0
    have hlt : s.jobs.length < t.jobs.length := by omega
    have hfresh : ¬ stalled s.jobs.length := fun hn => Nat.lt_irrefl _ (hthere _ hn)
    exact ⟨as, t, _, has, hperform, List.getElem?_eq_getElem hlt,
      hsettled.done _ _ (List.getElem?_eq_getElem hlt) hfresh⟩
  · have hnow := hstart.perform hthere has hperform
    obtain ⟨bs, u, hbs, hu, hlength, hsettled⟩ := hnow.serves hs hthere houtside k
    have hthen := hnow.perform hthere hbs hu
    refine ⟨bs, u, hbs, hu, hlength, hthen.kept, fun n j hget hn => ?_, fun hfew =>
      hthen.registry hs houtside hsettled hfew⟩
    have hdone := hsettled.done n j hget hn
    exact ⟨hdone, fun hnew => hthen.alone hs hnew hget hdone⟩

/-- The thread of the first client stalls, and the second client is served. -/
theorem available_second : ∃ (s t : System Unit) (j : Job Unit), s.jobs.length = 1 ∧
    t.jobs[1]? = some j ∧ j.stage = .done ∧ ∃ as, (∀ a ∈ as, Awake (· = 0) a) ∧
      Transition.perform (System.step IterationOrder.arbitrary (fun _ _ _ c => c) rootFirst) s as =
        some t := by
  obtain ⟨s, j, hs, hone, hget, hstage, htable, hrunning, hthread⟩ :
      ∃ (s : System Unit) (j : Job Unit),
        Transition.perform (System.step IterationOrder.arbitrary (fun _ _ _ c => c) rootFirst) {}
          oneAccepted = some s ∧ s.jobs.length = 1 ∧ s.jobs[0]? = some j ∧ j.stage = .reading ∧
        s.server.control.hasTable = true ∧ RestServer.Running s.server ∧
        s.server.acceptingThread_ = some .testListening :=
    ⟨_, _, rfl, rfl, rfl, rfl, rfl, ⟨rfl, rfl, rfl⟩, rfl⟩
  have hopen : Open s := by
    refine ⟨htable, hrunning, fun pc hpc => ?_⟩
    rw [hthread] at hpc
    cases hpc
    rfl
  have houtside : Outside (· = 0) s := by
    rintro n i rfl hi
    rw [hget] at hi
    cases hi
    rw [hstage]
    rfl
  have hthere : ∀ n, n = 0 → n < s.jobs.length := by omega
  obtain ⟨as, t, i, has, hperform, hi, hdone⟩ :=
    (available (run_of_perform hs) hopen hthere).1.mpr houtside
  exact ⟨s, t, i, hone, hone ▸ hi, hdone, as, has, hperform⟩

end System

end Rest
