import SimpleRest.Delivery
import SimpleRest.ResponseDecoding

/-!
# SimpleREST — what the client gets back

The callbacks of a provider are to answer: each one builds a header with the calls of a `Response`
and sends one message. The other requests the library answers itself. A client reads the bytes of
its connection by the rules of HTTP.

- `Reply.isResponse`: what an answer comes to on a stream that takes it;
- `one_response`: every client gets one response, with its length, or nothing at all if its stream
  ends inside its head, whatever it sends and whatever the other clients do;
- `exchanged`: a client that fills the template of a registered path gets the answer of the callback
  to what it has sent.
-/

namespace Rest

open Cpp FirstMatch Template Transition InterfaceProvider RestConnection

variable {κ : Type}

/-! ## Answers -/

/-- What a callback answers: the calls that make its header, and its message. The parts of the
header keep to their places, and a code that lets no message through has none. -/
structure Reply where
  calls : List BuilderCall
  message : Str
  decodable : Decodable (build calls).header_
  noContent : (build calls).header_.responseCode = 204 → message = []

/-- The calls, and the `send` behind them. -/
def Reply.run (order : IterationOrder Str Str) (a : Reply) (response : Response)
    (c : RestConnection) : RestConnection :=
  (a.calls.foldl BuilderCall.apply response).send order a.message c

/-- Callbacks that answer. -/
def answering (order : IterationOrder Str Str) (answer : κ → Request → Reply) : Run κ :=
  fun callback request response c => (answer callback request).run order response c

/-- The bytes are one response: a header, and a body of the length it announces. -/
def IsResponse (sent : Str) (header : ResponseHeader) (body : Str) : Prop :=
  decode sent = some (header, body) ∧ Framed sent

/-- On a stream nothing has been written to, what is sent is one response, or nothing. -/
theorem sendString_response (order : IterationOrder Str Str) {c : RestConnection}
    (hsent : c.stream_.sent = []) {h : ResponseHeader} (hdecodable : Decodable h) (text : Str)
    (hcode : h.responseCode = 204 → text = []) :
    (c.stream_.good = true →
      IsResponse (c.sendString order text h).stream_.sent (stringHeader text h) text) ∧
    (c.stream_.good = false → (c.sendString order text h).stream_.sent = []) := by
  refine ⟨fun hgood => ?_, fun hgood => ?_⟩
  · have hwritten :
        (c.sendString order text h).stream_.sent = written c (c.sendString order text h) := by
      unfold written
      rw [hsent]
      rfl
    have htext : (if h.responseCode ≠ 204 then text else []) = text := by
      by_cases h204 : h.responseCode = 204
      · rw [if_neg (not_not.mpr h204), hcode h204]
      · rw [if_pos h204]
    rw [hwritten]
    refine ⟨?_, (sendString_framed_iff order hgood text hdecodable.toClean).mpr ?_⟩
    · rw [written_sendString order hgood, htext]
      exact decode_toString (decodable_stringHeader hdecodable text) order text
    · by_cases h204 : h.responseCode = 204
      · exact Or.inr (hcode h204)
      · exact Or.inl h204
  · rw [(sendString_not_good order hgood text h).1, hsent]

/-- **What an answer comes to**: it is read back as it was made, from a stream that takes it. -/
theorem Reply.isResponse (a : Reply) (order : IterationOrder Str Str) {c : RestConnection}
    (hsent : c.stream_.sent = []) :
    (c.stream_.good = true → IsResponse (a.run order {} c).stream_.sent
      (stringHeader a.message (build a.calls).header_) a.message) ∧
    (c.stream_.good = false → (a.run order {} c).stream_.sent = []) :=
  sendString_response order hsent a.decodable a.message a.noContent

/-- The library's own answers. -/
theorem sendStatus_replies (order : IterationOrder Str Str) {code : Int}
    (hcode : UInt16.ofInt code ≠ 204) {c : RestConnection} (hsent : c.stream_.sent = []) :
    (c.stream_.good = true → ∃ header body,
      IsResponse (({} : Response).sendStatus order code c).2.stream_.sent header body) ∧
    (c.stream_.good = false → (({} : Response).sendStatus order code c).2.stream_.sent = []) := by
  obtain ⟨hgood, hbad⟩ := sendString_response order hsent (decodable_status decodable_fresh code)
    (translateResponseCode code) fun h204 => absurd h204 hcode
  exact ⟨fun h => ⟨_, _, hgood h⟩, hbad⟩

/-! ## One response -/

/-- Behind the head the stream takes an answer if it goes on past the head, or past its fault. -/
theorem readHead_good_iff (id : UserId) (s : Str) :
    (accepted id s).readHead.1.stream_.good = true ↔ EndsHead s ∨ GoesWrong s := by
  refine ⟨fun hgood => ?_, fun h => ?_⟩
  · rcases readHead_cases s with h | h | h | h
    · exact Or.inl h
    · rw [(readHead_cutHead h id).2] at hgood
      cases hgood
    · exact Or.inr h
    · rw [(readHead_endsEarly h id).2] at hgood
      cases hgood
  · rcases h with h | h
    · exact (readHead_endsHead h id).2
    · exact (readHead_goesWrong h id).2

/-- Every thread answers once, on the stream as its head has left it. -/
theorem handlerThread_replies (order : IterationOrder Str Str) (answer : κ → Request → Reply)
    (requests_ : Requests κ) (id : UserId) (s : Str) :
    let finished :=
      InterfaceProvider.handlerThread order (answering order answer) requests_ (accepted id s)
    ((accepted id s).readHead.1.stream_.good = true → ∃ header body,
      IsResponse finished.connection.stream_.sent header body) ∧
    ((accepted id s).readHead.1.stream_.good = false → finished.connection.stream_.sent = []) := by
  have hsent : (accepted id s).readHead.1.stream_.sent = [] := (readHead_frame id s).2
  intro finished
  rcases readHead_result id s with hok | ⟨message, herror⟩
  · rcases connectionHandler_cases order (answering order answer) requests_
      (accepted id s).readHead.1 with ⟨_, code, hcode, _, heq⟩ | ⟨_, i, _, heq⟩
    · have hcode204 : UInt16.ofInt code ≠ 204 := by
        rcases hcode with h | h | h
        · rw [h]; decide
        · rw [h]; decide
        · rw [h]; decide
      have hfinished := handlerThread_goodHead hok heq rfl
      rw [show finished = _ from hfinished]
      exact sendStatus_replies order hcode204 hsent
    · have hinvoked : i ∈ (connectionHandler order (answering order answer) requests_
          (accepted id s).readHead.1).invoked := by
        rw [heq]
        exact List.mem_singleton.mpr rfl
      have hfinished := handlerThread_goodHead hok heq rfl
      rw [response_of_invoked hinvoked] at hfinished
      rw [show finished = _ from hfinished]
      obtain ⟨hgood, hbad⟩ := (answer i.callback i.request).isResponse order hsent
      exact ⟨fun h => ⟨_, _, hgood h⟩, hbad⟩
  · rw [show finished = _ from handlerThread_badHead herror order _ requests_]
    exact sendStatus_replies order (by decide) hsent

/-! ## Among other clients -/

namespace System

variable {order : IterationOrder Str Str} {answer : κ → Request → Reply} {client : Nat → Str}

/-- **Every client gets one response, or nothing.** The callbacks answer, each with a header that
keeps to its place and without a message under 204. In every run, with the steps of all threads in
any order, what has been written to a connection when its thread is done is one response that can be
read back, with a body of the length that is announced, if what the client has sent goes on past its
head or past a fault of its head. Otherwise nothing has been written. -/
theorem one_response {s t : System κ} (hs : Reachable order (answering order answer) client s)
    (hrun : Runs order (answering order answer) client s t) {n : Nat} {j : Job κ}
    (hnew : s.jobs.length ≤ n) (hget : t.jobs[n]? = some j) (hdone : j.stage = .done) :
    ((EndsHead (client j.peer.serial) ∨ GoesWrong (client j.peer.serial)) ∧
      ∃ header body, IsResponse j.connection.stream_.sent header body) ∨
    (¬ (EndsHead (client j.peer.serial) ∨ GoesWrong (client j.peer.serial)) ∧
      j.connection.stream_.sent = []) := by
  obtain ⟨later, halone⟩ := finished_behind hs hrun hnew hget hdone
  have hconnection := congrArg Finished.connection halone
  obtain ⟨hgood, hbad⟩ := handlerThread_replies order answer (registerAll (s.log ++ later))
    j.peer.id_ (client j.peer.serial)
  rw [← readHead_good_iff j.peer.id_]
  cases htakes : (accepted j.peer.id_ (client j.peer.serial)).readHead.1.stream_.good with
  | true =>
    refine Or.inl ⟨rfl, ?_⟩
    rw [show j.connection = _ from hconnection]
    exact hgood htakes
  | false =>
    refine Or.inr ⟨Bool.false_ne_true, ?_⟩
    rw [show j.connection = _ from hconnection]
    exact hbad htakes

/-- Callbacks that answer with the parameter `id`. -/
def echo (_ : Unit) (request : Request) : Reply where
  calls := []
  message := request.getParameter "id".toList
  decodable := decodable_fresh
  noContent := fun h204 => absurd h204 (by decide)

/-- What a server does that has `/u/:id` registered and one client, which asks for `/u/7`. -/
theorem served_user : ∃ (s t : System Unit) (j : Job Unit),
    Reachable .arbitrary (answering .arbitrary echo) (fun _ => userHead.render ++ "body".toList) s ∧
    Runs .arbitrary (answering .arbitrary echo) (fun _ => userHead.render ++ "body".toList) s t ∧
    s.log = [] ++ userRoute :: [] ∧ s.jobs.length ≤ 0 ∧ t.jobs[0]? = some j ∧ j.stage = .done := by
  obtain ⟨s, t, j, hs, ht, hrest⟩ : ∃ (s t : System Unit) (j : Job Unit),
      perform (step .arbitrary (answering .arbitrary echo)
        fun _ => userHead.render ++ "body".toList) {} [.register userRoute] = some s ∧
      perform (step .arbitrary (answering .arbitrary echo)
        fun _ => userHead.render ++ "body".toList) s oneServed = some t ∧
      s.log = [] ++ userRoute :: [] ∧ s.jobs.length ≤ 0 ∧ t.jobs[0]? = some j ∧ j.stage = .done :=
    ⟨_, _, _, rfl, rfl, rfl, Nat.le_refl 0, rfl, rfl⟩
  exact ⟨s, t, j, run_of_perform hs, run_of_perform ht, hrest⟩

/-- It gets one response. -/
theorem one_response_user : ∃ (j : Job Unit) (header : ResponseHeader) (body : Str),
    IsResponse j.connection.stream_.sent header body := by
  obtain ⟨s, t, j, hs, ht, _, hnew, hget, hdone⟩ := served_user
  have hends : EndsHead (userHead.render ++ "body".toList) :=
    ⟨userHead.words _, _, _, userHead.startsWith _, userHead.version_known, userHead.completeAfter _⟩
  rcases one_response hs ht hnew hget hdone with ⟨_, header, body, hresponse⟩ | ⟨hnot, _⟩
  · exact ⟨j, header, body, hresponse⟩
  · exact absurd (Or.inl hends) hnot

/-- **Request and response meet.** The callbacks answer, and a client's head asks for what has been
registered before its thread was made, with values for the parameters of the pattern, and no
registration in front of this one takes its path away. Whatever the other clients do, and in
whatever order the threads take their steps: the client reads back the answer of the callback to the
request as it was sent, the message and the code and the entries of its header, with the length of
the message. -/
theorem exchanged {s t : System κ} (hs : Reachable order (answering order answer) client s)
    (hrun : Runs order (answering order answer) client s t) {n : Nat} {j : Job κ}
    (hnew : s.jobs.length ≤ n) (hget : t.jobs[n]? = some j) (hdone : j.stage = .done)
    {before behind : List (Registration κ)} {r : Registration κ} (hlog : s.log = before ++ r :: behind)
    {p : List Str} {value : Str → Str} {h : SentHead} (hasks : AsksFor r p value h)
    (hfirst : LeavesTo before r.verb (p.map (fill parameterName value))) {body : Str}
    (hclient : client j.peer.serial = h.render ++ body) :
    ∃ (request : Request) (header : ResponseHeader), Arrives p value h body request ∧
      IsResponse j.connection.stream_.sent header (answer r.callback request).message ∧
      header.responseCode = codeInForce (answer r.callback request).calls ∧
      header.responseHeaderPairs.lookup "Content-Length".toList =
        some (toDecimal (answer r.callback request).message.length) ∧
      ∀ key, key ≠ "Content-Length".toList → key ≠ "Content-Type".toList →
        header.responseHeaderPairs.lookup key =
          (build (answer r.callback request).calls).header_.responseHeaderPairs.lookup key := by
  obtain ⟨request, harrives, hfinished⟩ :=
    finished_delivers hs hrun hnew hget hdone hlog hasks hfirst hclient
  have hconnection : j.connection =
      (answer r.callback request).run order {} request.connection_ :=
    congrArg Finished.connection hfinished
  have hgood : request.connection_.stream_.good = true := by
    rw [harrives.body]
    rfl
  refine ⟨request, _, harrives, ?_, ?_, stringHeader_contentLength _ _, fun key hlength htype =>
    stringHeader_others _ _ hlength htype⟩
  · rw [hconnection]
    exact ((answer r.callback request).isResponse order harrives.unanswered).1 hgood
  · rw [stringHeader_responseCode]
    exact responseCode_foldl _ {}

/-- The client reads back the number it has asked with. -/
theorem exchanged_user : ∃ (j : Job Unit) (header : ResponseHeader), j.stage = .done ∧
    IsResponse j.connection.stream_.sent header "7".toList := by
  obtain ⟨s, t, j, hs, ht, hlog, hnew, hget, hdone⟩ := served_user
  obtain ⟨request, header, harrives, hresponse, _⟩ := exchanged hs ht hnew hget hdone hlog
    asksFor_user (fun y hy => absurd hy List.not_mem_nil) rfl
  have hmessage : (echo () request).message = "7".toList := harrives.parameters _ (by decide)
  refine ⟨j, header, hdone, ?_⟩
  rw [← hmessage]
  exact hresponse

end System

end Rest
