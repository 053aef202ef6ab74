import SimpleRest.HandlerOutcome
import SimpleRest.Spec.System

/-!
# SimpleREST — a handler thread in steps, and as a whole

`Job.next` is a handler thread statement by statement, `handlerThread` the same thread as one
function. `Job.outcome` says for every statement what the thread comes to from there, if the table
stays as it is.

- `lookUp_spec`: the part of the handler that looks at the table, and the part behind, which alone
  depends on what callbacks do (`connectionHandler_task`);
- `Move`: one constructor for each statement; `Move.goes` is what all of them have in common;
- `next_isSome`: a thread that is not done has a next statement;
- `Move.outcome_eq`: no statement changes what the thread comes to;
- `next_congr`, `outcome_congr`: the table is looked at once, and behind that look it does not
  matter.
-/

namespace Rest

open Cpp RestConnection InterfaceProvider

variable {κ : Type}

/-- The number of statements a thread can still have in front of it. -/
def Stage.rank : Stage κ → Nat
  | reading => 8
  | callHandler => 7
  | parsing => 6
  | routing _ | callError _ => 5
  | acting _ | answering _ => 4
  | lock => 3
  | erase => 2
  | unlock => 1
  | done => 0

/-- The thread may still look at the table. -/
def Stage.asks : Stage κ → Bool
  | reading | callHandler | parsing | routing _ => true
  | _ => false

/-! ## The look at the table -/

namespace Job

variable {order : IterationOrder Str Str} {run : Run κ} {requests_ : Requests κ} {j j' : Job κ}

/-- The look always comes to a task, and for a target that has been parsed the handler is this look
and the task behind it. -/
theorem lookUp_spec (order : IterationOrder Str Str) (run : Run κ) (requests_ : Requests κ)
    (c : RestConnection) (url : Url) :
    ∃ task, lookUp requests_ c url = some task ∧
      (ReducedUrlParser.parse c.request_.url = .ok url →
        connectionHandler order run requests_ c =
          ⟨task.run order run c, task.invoked, .ok ()⟩) := by
  cases hlookup : requests_.lookup c.request_.requestType with
  | none =>
    by_cases hother : c.request_.requestType ≠ "GET".toList ∧ c.request_.requestType ≠ "POST".toList ∧
        c.request_.requestType ≠ "PUT".toList ∧ c.request_.requestType ≠ "DELETE".toList ∧
        c.request_.requestType ≠ "PATCH".toList
    · refine ⟨.sendStatus 501, ?_, fun hparse => ?_⟩
      · simp only [lookUp, hlookup, if_pos hother]
      · simp only [connectionHandler, hparse, hlookup, if_pos hother]
        rfl
    · by_cases hhead : c.request_.requestType ≠ "HEAD".toList
      · refine ⟨.sendStatus 404, ?_, fun hparse => ?_⟩
        · simp only [lookUp, hlookup, if_neg hother, if_pos hhead]
        · simp only [connectionHandler, hparse, hlookup, if_neg hother, if_pos hhead]
          rfl
      · refine ⟨.sendEmpty, ?_, fun hparse => ?_⟩
        · simp only [lookUp, hlookup, if_neg hother, if_neg hhead]
        · simp only [connectionHandler, hparse, hlookup, if_neg hother, if_neg hhead]
          rfl
  | some requestList =>
    have hscan := findIf_eq (fun b : BuiltRequest κ => matching_eq url b.url) requestList
    cases hfind : requestList.find? fun b => decide (PathMatches b.url.path url.path) with
    | none =>
      refine ⟨.sendStatus 404, ?_, fun hparse => ?_⟩
      · simp only [lookUp, hlookup, hscan, hfind]
      · simp only [connectionHandler, hparse, hlookup, hscan, hfind]
        rfl
    | some b =>
      have hmatch : PathMatches b.url.path url.path := by simpa using List.find?_some hfind
      refine ⟨.callback (invocation c url b), ?_, fun hparse => ?_⟩
      · simp only [lookUp, hlookup, hscan, hfind, extractParameters_eq hmatch]
        rfl
      · simp only [connectionHandler, hparse, hlookup, hscan, hfind, extractParameters_eq hmatch]
        rfl

/-- What a callback gets is the connection as it is then. -/
theorem lookUp_connection {c : RestConnection} {url : Url} {i : Invocation κ}
    (h : lookUp requests_ c url = some (.callback i)) : i.request.connection_ = c := by
  simp only [lookUp] at h
  split at h
  · split at h
    · cases h
    · split at h
      · cases h
      · cases h
  · split at h
    · cases h
    · cases h
    · split at h
      · cases h
      · cases h
        rfl

/-- **Which task it is does not depend on what callbacks do.** A target that does not parse has one
too. -/
theorem connectionHandler_task (requests_ : Requests κ) (c : RestConnection) :
    ∃ task : Task κ, (∀ i, task = .callback i → i.request.connection_ = c) ∧
      ∀ (order : IterationOrder Str Str) (run : Run κ), connectionHandler order run requests_ c =
        ⟨task.run order run c, task.invoked, .ok ()⟩ := by
  cases hparse : ReducedUrlParser.parse c.request_.url with
  | error fault =>
    exact ⟨.sendStatus 400, nofun, fun order run => connectionHandler_rejected hparse order run _⟩
  | ok url =>
    cases hlook : lookUp requests_ c url with
    | none =>
      obtain ⟨_, htask, _⟩ := lookUp_spec .arbitrary (fun _ _ _ c => c) requests_ c url
      rw [hlook] at htask
      cases htask
    | some task =>
      refine ⟨task, fun i hi => lookUp_connection (hi ▸ hlook), fun order run => ?_⟩
      obtain ⟨_, htask, hhandler⟩ := lookUp_spec order run requests_ c url
      rw [hlook] at htask
      rw [hhandler hparse, Option.some.inj htask]

/-! ## One statement -/

/-- What a handler thread can do in one statement. -/
inductive Move (order : IterationOrder Str Str) (run : Run κ) (requests_ : Requests κ)
    (j : Job κ) : Job κ → Prop where
  | reads (c : RestConnection) (hat : j.stage = .reading)
      (hread : j.connection.readHead = (c, .ok ())) :
      Move order run requests_ j { j with connection := c, stage := .callHandler }
  | rejects (c : RestConnection) (message : Str) (hat : j.stage = .reading)
      (hread : j.connection.readHead = (c, .error (.invalidRequest message))) :
      Move order run requests_ j
        { j with connection := c, stage := .callError (.invalidRequest message) }
  | calls (hat : j.stage = .callHandler) :
      Move order run requests_ j { j with stage := .parsing }
  | refuses (fault : Fault) (hat : j.stage = .parsing)
      (hparse : ReducedUrlParser.parse j.connection.request_.url = .error fault) :
      Move order run requests_ j { j with stage := .acting (.sendStatus 400) }
  | parses (url : Url) (hat : j.stage = .parsing)
      (hparse : ReducedUrlParser.parse j.connection.request_.url = .ok url) :
      Move order run requests_ j { j with stage := .routing url }
  | looks (url : Url) (task : Task κ) (hat : j.stage = .routing url)
      (hlook : lookUp requests_ j.connection url = some task) :
      Move order run requests_ j { j with stage := .acting task }
  | acts (task : Task κ) (hat : j.stage = .acting task) :
      Move order run requests_ j { j with
        connection := task.run order run j.connection
        events := j.events ++ task.invoked.map .invoke
        stage := .lock }
  | callsError (fault : Fault) (hat : j.stage = .callError fault) :
      Move order run requests_ j { j with stage := .answering fault }
  | answers (fault : Fault) (hat : j.stage = .answering fault) :
      Move order run requests_ j
        { j with connection := errorHandler order j.connection fault, stage := .lock }
  | locks (hat : j.stage = .lock) : Move order run requests_ j { j with stage := .erase }
  | erases (hat : j.stage = .erase) :
      Move order run requests_ j
        { j with events := j.events ++ [.deregister j.peer.id_], stage := .unlock }
  | unlocks (hat : j.stage = .unlock) : Move order run requests_ j { j with stage := .done }

theorem next_move (h : j.next order run requests_ = some j') : Move order run requests_ j j' := by
  unfold next at h
  split at h
  · next hat =>
    split at h
    · next hread => cases h; exact .reads _ hat hread
    · next hread => cases h; exact .rejects _ _ hat hread
    · cases h
  · next hat => cases h; exact .calls hat
  · next hat =>
    split at h
    · next hparse =>
      split at h
      · cases h; exact .refuses _ hat hparse
      · cases h
    · next hparse => cases h; exact .parses _ hat hparse
  · next hat =>
    obtain ⟨task, hlook, rfl⟩ := Option.map_eq_some_iff.mp h
    exact .looks _ task hat hlook
  · next hat => cases h; exact .acts _ hat
  · next hat => cases h; exact .callsError _ hat
  · next hat => cases h; exact .answers _ hat
  · next hat => cases h; exact .locks hat
  · next hat => cases h; exact .erases hat
  · next hat => cases h; exact .unlocks hat
  · cases h

/-- **A thread that is not done can go on.** Nothing in it ends the program: the head of a
connection that has been accepted is read or thrown back as invalid, the parser rejects with an
exception, and the look at the table comes to its end. -/
theorem next_isSome {s : Str} (hread : j.stage = .reading → j.connection = .accepted j.peer.id_ s)
    (hlive : j.stage ≠ .done) (order : IterationOrder Str Str) (run : Run κ)
    (requests_ : Requests κ) : ∃ j', j.next order run requests_ = some j' := by
  unfold next
  split
  · next hat =>
    rw [hread hat]
    have heta : (RestConnection.accepted j.peer.id_ s).readHead =
        ((RestConnection.accepted j.peer.id_ s).readHead.1,
          (RestConnection.accepted j.peer.id_ s).readHead.2) := rfl
    rcases readHead_result j.peer.id_ s with hok | ⟨message, herror⟩
    · rw [heta, hok]
      exact ⟨_, rfl⟩
    · rw [heta, herror]
      exact ⟨_, rfl⟩
  · exact ⟨_, rfl⟩
  · split
    · next hparse =>
      rw [if_pos (parse_error_isException hparse)]
      exact ⟨_, rfl⟩
    · exact ⟨_, rfl⟩
  · next url hat =>
    obtain ⟨task, htask, _⟩ := lookUp_spec order run requests_ j.connection url
    rw [htask]
    exact ⟨_, rfl⟩
  · exact ⟨_, rfl⟩
  · exact ⟨_, rfl⟩
  · exact ⟨_, rfl⟩
  · exact ⟨_, rfl⟩
  · exact ⟨_, rfl⟩
  · exact ⟨_, rfl⟩
  · next hat => exact absurd hat hlive

/-- What does not depend on the statement: it leads where the server lets a handler thread go, and
takes the rank down. Whose thread it is does not change. -/
structure Goes (j j' : Job κ) : Prop where
  successor : j'.stage.pc ∈ j.stage.pc.successors
  rank : j'.stage.rank < j.stage.rank
  peer : j'.peer = j.peer
  known : j'.known = j.known
  read : j'.stage ≠ .reading

theorem Move.goes (h : Move order run requests_ j j') : Goes j j' := by
  cases h <;> refine ⟨?_, ?_, rfl, rfl, nofun⟩ <;>
    simp [*, Stage.pc, Stage.rank, HandlerPc.successors]

/-! ## The whole thread -/

/-- What the thread comes to from here, if the table stays as it is. -/
def outcome (order : IterationOrder Str Str) (run : Run κ) (requests_ : Requests κ) (j : Job κ) :
    Finished κ :=
  let closed (c : RestConnection) (invoked : List (Invocation κ)) : Finished κ :=
    ⟨c, j.events ++ invoked.map .invoke ++ [.deregister j.peer.id_]⟩
  match j.stage with
  | .reading => InterfaceProvider.handlerThread order run requests_ j.connection
  | .callHandler | .parsing =>
    let handled := connectionHandler order run requests_ j.connection
    closed handled.connection handled.invoked
  | .routing url =>
    match lookUp requests_ j.connection url with
    | none => ⟨j.connection, j.events⟩
    | some task => closed (task.run order run j.connection) task.invoked
  | .acting task => closed (task.run order run j.connection) task.invoked
  | .callError fault | .answering fault => closed (errorHandler order j.connection fault) []
  | .lock | .erase => closed j.connection []
  | .unlock | .done => ⟨j.connection, j.events⟩

/-- A thread that is still reading has a connection as it was accepted, and nothing has happened. -/
def Fresh (s : Str) (j : Job κ) : Prop :=
  j.stage = .reading → j.connection = .accepted j.peer.id_ s ∧ j.events = []

/-- **No statement changes what the thread comes to**, as long as it sees the same table. -/
theorem Move.outcome_eq {s : Str} (hfresh : Fresh s j) (h : Move order run requests_ j j') :
    j'.outcome order run requests_ = j.outcome order run requests_ := by
  cases h with
  | reads c hat hread =>
    obtain ⟨hconnection, hevents⟩ := hfresh hat
    have hok : j.connection.readHead.2 = .ok () := by rw [hread]
    have hid : j.connection.id_ = j.peer.id_ := by rw [hconnection]; rfl
    have hresult : (connectionHandler order run requests_ c).result = .ok () := by
      rcases connectionHandler_cases order run requests_ c with ⟨_, _, _, _, heq⟩ | ⟨_, _, _, heq⟩
      · rw [heq]; rfl
      · rw [heq]
    simp only [outcome, hat, hevents]
    rw [handlerThread_goodHead hok (by rw [hread]) hresult, hid]
    rfl
  | rejects c message hat hread =>
    obtain ⟨hconnection, hevents⟩ := hfresh hat
    have herror : j.connection.readHead.2 = .error (.invalidRequest message) := by rw [hread]
    have hid : j.connection.id_ = j.peer.id_ := by rw [hconnection]; rfl
    simp only [outcome, hat, hevents]
    rw [handlerThread_badHead herror, hread, hid]
    rfl
  | calls hat => simp only [outcome, hat]
  | refuses fault hat hparse =>
    simp only [outcome, hat]
    rw [connectionHandler_rejected hparse]
    rfl
  | parses url hat hparse =>
    obtain ⟨task, htask, hhandler⟩ := lookUp_spec order run requests_ j.connection url
    simp only [outcome, hat, htask, hhandler hparse]
  | looks url task hat hlook => simp only [outcome, hat, hlook]
  | acts task hat => simp only [outcome, hat, List.map_nil, List.append_nil]
  | callsError fault hat => simp only [outcome, hat]
  | answers fault hat => simp only [outcome, hat]
  | locks hat => simp only [outcome, hat]
  | erases hat => simp only [outcome, hat, List.map_nil, List.append_nil]
  | unlocks hat => simp only [outcome, hat]

/-! ## What depends on the table -/

/-- Only the look at the table depends on the table. -/
theorem next_congr (hat : ∀ url, j.stage ≠ .routing url) (requests_ requests_' : Requests κ) :
    j.next order run requests_ = j.next order run requests_' := by
  unfold next
  split
  case h_4 url hstage => exact absurd hstage (hat url)
  all_goals rfl

/-- Behind it nothing does. -/
theorem outcome_congr (hasked : j.stage.asks = false) (requests_ requests_' : Requests κ) :
    j.outcome order run requests_ = j.outcome order run requests_' := by
  cases hat : j.stage <;> simp_all [outcome, Stage.asks]

/-- A thread that may still look has been in front of the look before. -/
theorem Move.asks (h : Move order run requests_ j j') (hasks : j'.stage.asks = true) :
    j.stage.asks = true ∧ ∀ url, j.stage ≠ .routing url := by
  cases h <;> simp_all [Stage.asks]

theorem outcome_done (hat : j.stage = .done) :
    j.outcome order run requests_ = ⟨j.connection, j.events⟩ := by
  simp only [outcome, hat]

end Job

end Rest
