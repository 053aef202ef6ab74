import SimpleRest.HeadParsing
import SimpleRest.ResponseFraming
import SimpleRest.Routing
import SimpleRest.Spec.HandlerThread

/-!
# SimpleREST — what becomes of a connection

A handler thread ends in one of four ways: the head is thrown back, the target is, the request
has no route, or one callback is called. In the first three the library answers with a status
of its own.

- `handlerThread_events`: no thread terminates or crashes, and each deregisters its connection
  once, at its end, for every stream and every table;
- `sendStatus_sent`: an answer reaches the stream only if the stream is still good. An `iostream`
  whose input has come to its end takes none;
- `one_outcome_iff`: so exactly one of the four happens, its answer included, exactly if the
  stream does not end before its head has ended or gone wrong, or no answer is needed.
-/

namespace Rest

open Cpp RestConnection
open InterfaceProvider (connectionHandler reply)

variable {κ : Type}

/-! ## The library's answers -/

/-- What `sendStatus` writes on a fresh response. -/
def statusBytes (order : IterationOrder Str Str) (code : Int) : Str :=
  let header := (({} : Response).status code).header_
  (stringHeader header.responseString header).toString order ++ header.responseString

/-- An answer is written as a whole, or, on a stream that is not good, not at all. -/
theorem sendStatus_sent (order : IterationOrder Str Str) {code : Int}
    (hcode : UInt16.ofInt code ≠ 204) (c : RestConnection) :
    ((({} : Response).sendStatus order code c).2).stream_.sent =
      c.stream_.sent ++ if c.stream_.good then statusBytes order code else [] := by
  unfold Response.sendStatus Response.send sendString
  simp only [stringHeader_responseCode]
  rw [if_pos (show (({} : Response).status code).header_.responseCode ≠ 204 from hcode)]
  have hput : ∀ head body : Str, ((c.put head).put body).stream_.sent =
      c.stream_.sent ++ if c.stream_.good then head ++ body else [] := by
    intro head body
    show ((c.stream_.put head).put body).sent = _
    cases hgood : c.stream_.good with
    | true =>
      -- the head leaves the stream good, so the body follows
      have hhead := IOStream.put_good head hgood
      rw [(IOStream.put_good body hhead.2).1, hhead.1, List.append_assoc]
      rfl
    | false =>
      have hhead := IOStream.put_not_good head hgood
      rw [(IOStream.put_not_good body hhead.2).1, hhead.1]
      exact (List.append_nil _).symm
  exact hput _ _

/-- An answer is never empty: it begins with the status line. -/
theorem statusBytes_ne_nil (order : IterationOrder Str Str) (code : Int) :
    statusBytes order code ≠ [] := by
  have hversion : ∀ text, (stringHeader text (({} : Response).status code).header_).httpVersion ≠ [] := by
    intro text
    unfold stringHeader
    simp only
    split
    · exact List.cons_ne_nil _ _
    · exact List.cons_ne_nil _ _
  intro h
  unfold statusBytes at h
  simp only [ResponseHeader.toString, List.append_eq_nil_iff] at h
  exact hversion _ h.1.1.1.1.1.1.1.1

/-- The stream carries this answer and nothing else. -/
def Answered (order : IterationOrder Str Str) (code : Int) (c : RestConnection) : Prop :=
  c.stream_.sent = statusBytes order code

/-- On a stream nothing has been written to, an answer arrives if the stream is good. -/
theorem answered_iff (order : IterationOrder Str Str) {code : Int}
    (hcode : UInt16.ofInt code ≠ 204) {c : RestConnection} (hsent : c.stream_.sent = []) :
    Answered order code (({} : Response).sendStatus order code c).2 ↔ c.stream_.good = true := by
  unfold Answered
  rw [sendStatus_sent order hcode, hsent, List.nil_append]
  cases c.stream_.good with
  | true => simp
  | false => simpa using Ne.symm (statusBytes_ne_nil order code)

/-! ## How a thread ends -/

/-- The request has a route in the table. -/
def Routed (requests_ : Requests κ) (method url : Str) : Prop :=
  ∃ target, ReducedUrlParser.parse url = .ok target ∧
    ∃ b ∈ UnorderedMap.index requests_ method [], PathMatches b.url.path target.path

/-- After a history of registrations that is, some registration serves. -/
theorem routed_registerAll (log : List (Registration κ)) (method url : Str) :
    Routed (registerAll log) method url ↔
      ∃ target, ReducedUrlParser.parse url = .ok target ∧ ∃ r ∈ log, r.Serves method target := by
  unfold Routed
  refine exists_congr fun target => and_congr_right fun _ => ?_
  rw [index_registerAll]
  simp only [List.mem_filterMap, Registration.serves_iff]
  tauto

/-- What the handler does with a connection whose head has been read. -/
theorem connectionHandler_cases (order : IterationOrder Str Str) (run : Run κ)
    (requests_ : Requests κ) (c : RestConnection) :
    (¬ Routed requests_ c.request_.requestType c.request_.url ∧ ∃ code, (code = 400 ∨ code = 404 ∨
      code = 501) ∧ (code = 400 ↔ ∀ target, ReducedUrlParser.parse c.request_.url ≠ .ok target) ∧
      connectionHandler order run requests_ c = reply order c code) ∨
    (Routed requests_ c.request_.requestType c.request_.url ∧ ∃ i : Invocation κ,
      i.request.connection_ = c ∧ connectionHandler order run requests_ c =
        ⟨run i.callback i.request i.response c, [i], .ok ()⟩) := by
  cases htarget : ReducedUrlParser.parse c.request_.url with
  | error fault =>
    refine Or.inl ⟨?_, 400, Or.inl rfl, by simp, connectionHandler_rejected htarget order run _⟩
    intro hrouted
    obtain ⟨target, htarget', _⟩ := hrouted
    rw [htarget] at htarget'
    exact absurd htarget' (by simp)
  | ok target =>
    -- the scan of the vector decides between a call and an answer
    cases hfind : (UnorderedMap.index requests_ c.request_.requestType []).find?
        (fun b => decide (PathMatches b.url.path target.path)) with
    | some b =>
      refine Or.inr ⟨⟨target, htarget, b, List.mem_of_find?_eq_some hfind, ?_⟩,
        invocation c target b, rfl, connectionHandler_found htarget hfind order run⟩
      simpa using List.find?_some hfind
    | none =>
      have hnot : ¬ Routed requests_ c.request_.requestType c.request_.url := by
        intro hrouted
        obtain ⟨target', htarget', b, hb, hmatch⟩ := hrouted
        rw [htarget] at htarget'
        rw [← Except.ok.inj htarget'] at hmatch
        have hno := List.find?_eq_none.mp hfind b hb
        exact absurd hmatch (by simpa using hno)
      rcases connectionHandler_notFound htarget hfind order run with heq | heq
      · exact Or.inl ⟨hnot, 404, Or.inr (Or.inl rfl), by simp, heq⟩
      · exact Or.inl ⟨hnot, 501, Or.inr (Or.inr rfl), by simp, heq⟩

/-- A head that is thrown back goes to the error handler. -/
theorem handlerThread_badHead {c : RestConnection} {message : Str}
    (h : c.readHead.2 = .error (.invalidRequest message)) (order : IterationOrder Str Str)
    (run : Run κ) (requests_ : Requests κ) :
    InterfaceProvider.handlerThread order run requests_ c =
      ⟨(({} : Response).sendStatus order 400 c.readHead.1).2, [.deregister c.id_]⟩ := by
  unfold InterfaceProvider.handlerThread handlerThread tryHandle
  rw [show c.readHead = (c.readHead.1, c.readHead.2) from rfl, h]
  rfl

/-- A head that is read goes to the handler, which returns. -/
theorem handlerThread_goodHead {c : RestConnection} (h : c.readHead.2 = .ok ())
    {order : IterationOrder Str Str} {run : Run κ} {requests_ : Requests κ} {handled : Handled κ}
    (hhandled : connectionHandler order run requests_ c.readHead.1 = handled)
    (hok : handled.result = .ok ()) :
    InterfaceProvider.handlerThread order run requests_ c =
      ⟨handled.connection, handled.invoked.map .invoke ++ [.deregister c.id_]⟩ := by
  unfold InterfaceProvider.handlerThread handlerThread tryHandle
  rw [show c.readHead = (c.readHead.1, c.readHead.2) from rfl, h]
  simp only [hhandled, hok]

/-- `readHead` returns or throws an invalid request: no other exception leaves it. -/
theorem readHead_result (id : UserId) (s : Str) :
    (accepted id s).readHead.2 = .ok () ∨
      ∃ message, (accepted id s).readHead.2 = .error (.invalidRequest message) := by
  rcases readHead_cases s with h | h | h | h
  · exact Or.inl (readHead_endsHead h id).1
  · exact Or.inl (readHead_cutHead h id).1
  · exact Or.inr (readHead_goesWrong h id).1
  · exact Or.inr (readHead_endsEarly h id).1

/-- **No crash.** For every stream and every table a thread deregisters its connection, once and
at its end, and calls at most one callback before. It does not terminate the program, no
assertion fails, and no part is cast to a class it is not of. -/
theorem handlerThread_events (order : IterationOrder Str Str) (run : Run κ)
    (requests_ : Requests κ) (id : UserId) (s : Str) :
    (InterfaceProvider.handlerThread order run requests_ (accepted id s)).events =
        [.deregister id] ∨
      ∃ i, (InterfaceProvider.handlerThread order run requests_ (accepted id s)).events =
        [.invoke i, .deregister id] := by
  rcases readHead_result id s with hok | ⟨message, herror⟩
  · rcases connectionHandler_cases order run requests_ (accepted id s).readHead.1 with
      ⟨_, code, _, _, heq⟩ | ⟨_, i, _, heq⟩
    · rw [handlerThread_goodHead hok heq rfl]
      exact Or.inl rfl
    · rw [handlerThread_goodHead hok heq rfl]
      exact Or.inr ⟨i, rfl⟩
  · rw [handlerThread_badHead herror]
    exact Or.inl rfl

/-- A callback is called by the thread if the head is read and the handler calls it. -/
theorem invoke_mem_events {order : IterationOrder Str Str} {run : Run κ} {requests_ : Requests κ}
    {id : UserId} {s : Str} {i : Invocation κ} (h : .invoke i ∈
      (InterfaceProvider.handlerThread order run requests_ (accepted id s)).events) :
    (accepted id s).readHead.2 = .ok () ∧
      i ∈ (connectionHandler order run requests_ (accepted id s).readHead.1).invoked := by
  rcases readHead_result id s with hok | ⟨message, herror⟩
  · refine ⟨hok, ?_⟩
    rcases connectionHandler_cases order run requests_ (accepted id s).readHead.1 with
      ⟨_, code, _, _, heq⟩ | ⟨_, i', _, heq⟩
    · rw [handlerThread_goodHead hok heq rfl] at h
      exact absurd h (by simp [reply])
    · rw [handlerThread_goodHead hok heq rfl] at h
      rw [heq]
      simpa using h
  · rw [handlerThread_badHead herror] at h
    exact absurd h (by simp)

/-- A request with a route is handed to one callback, with the connection as its head left it. -/
theorem handlerThread_routed (order : IterationOrder Str Str) (run : Run κ)
    {requests_ : Requests κ} {id : UserId} {s : Str} (hread : (accepted id s).readHead.2 = .ok ())
    (hrouted : Routed requests_ (accepted id s).readHead.1.request_.requestType
      (accepted id s).readHead.1.request_.url) :
    ∃ i : Invocation κ, InterfaceProvider.handlerThread order run requests_ (accepted id s) =
      ⟨run i.callback i.request i.response (accepted id s).readHead.1,
        [.invoke i, .deregister id]⟩ := by
  rcases connectionHandler_cases order run requests_ (accepted id s).readHead.1 with
    ⟨hnot, _⟩ | ⟨_, i, _, heq⟩
  · exact absurd hrouted hnot
  · exact ⟨i, handlerThread_goodHead hread heq rfl⟩

/-- A request for the root, byte by byte. -/
def rootHead : Str := "GET / HTTP/1.1\r\n\r\n".toList

theorem readHead_rootHead : (accepted 1 rootHead).readHead.2 = .ok () := by rfl

/-! ## One outcome -/

inductive Outcome where
  | badHead | badTarget | unrouted | called
  deriving DecidableEq

/-- What happens in each of the four: an answer of the library on the stream and no call, or one
call and no answer. In all of them the connection is deregistered once, behind that. -/
def Happens (order : IterationOrder Str Str) (run : Run κ) (requests_ : Requests κ) (id : UserId)
    (s : Str) : Outcome → Prop :=
  let head := (accepted id s).readHead
  let finished := InterfaceProvider.handlerThread order run requests_ (accepted id s)
  fun
  | .badHead =>
    (∃ message, head.2 = .error (.invalidRequest message)) ∧
      finished.events = [.deregister id] ∧ Answered order 400 finished.connection
  | .badTarget =>
    head.2 = .ok () ∧ (∀ target, ReducedUrlParser.parse head.1.request_.url ≠ .ok target) ∧
      finished.events = [.deregister id] ∧ Answered order 400 finished.connection
  | .unrouted =>
    head.2 = .ok () ∧ (∃ target, ReducedUrlParser.parse head.1.request_.url = .ok target) ∧
      ¬ Routed requests_ head.1.request_.requestType head.1.request_.url ∧
      finished.events = [.deregister id] ∧
      (Answered order 404 finished.connection ∨ Answered order 501 finished.connection)
  | .called =>
    head.2 = .ok () ∧ Routed requests_ head.1.request_.requestType head.1.request_.url ∧
      ∃ i, finished.events = [.invoke i, .deregister id] ∧ head.1.stream_.sent = [] ∧
        finished.connection = run i.callback i.request i.response head.1

/-- Which of the four it has to be: the head, the target and the table tell. -/
def outcomeOf (requests_ : Requests κ) (head : RestConnection × Except Fault Unit) : Outcome :=
  match head.2 with
  | .error _ => .badHead
  | .ok () =>
    match ReducedUrlParser.parse head.1.request_.url with
    | .error _ => .badTarget
    | .ok target =>
      if ∃ b ∈ UnorderedMap.index requests_ head.1.request_.requestType [],
        PathMatches b.url.path target.path then .called else .unrouted

theorem routed_iff {requests_ : Requests κ} {method url : Str} {target : Url}
    (h : ReducedUrlParser.parse url = .ok target) : Routed requests_ method url ↔
      ∃ b ∈ UnorderedMap.index requests_ method [], PathMatches b.url.path target.path := by
  refine ⟨fun hrouted => ?_, fun hb => ⟨target, h, hb⟩⟩
  obtain ⟨target', htarget', hb⟩ := hrouted
  rw [h] at htarget'
  rw [Except.ok.inj htarget']
  exact hb

/-- Only one of the four can happen. -/
theorem Happens.eq_outcomeOf {order : IterationOrder Str Str} {run : Run κ}
    {requests_ : Requests κ} {id : UserId} {s : Str} {o : Outcome}
    (h : Happens order run requests_ id s o) : o = outcomeOf requests_ (accepted id s).readHead := by
  unfold outcomeOf
  cases o with
  | badHead =>
    obtain ⟨⟨message, herror⟩, _⟩ := h
    rw [herror]
  | badTarget =>
    obtain ⟨hok, hnone, _⟩ := h
    rw [hok]
    cases htarget : ReducedUrlParser.parse (accepted id s).readHead.1.request_.url with
    | error fault => rfl
    | ok target => exact absurd htarget (hnone target)
  | unrouted =>
    obtain ⟨hok, ⟨target, htarget⟩, hroute, _⟩ := h
    rw [routed_iff htarget] at hroute
    simp only [hok, htarget, if_neg hroute]
  | called =>
    obtain ⟨hok, hroute, _⟩ := h
    obtain ⟨target, htarget, hb⟩ := hroute
    simp only [hok, htarget, if_pos hb]

/-- Where no callback is called, something has been written. -/
theorem Happens.sent_ne_nil {order : IterationOrder Str Str} {run : Run κ}
    {requests_ : Requests κ} {id : UserId} {s : Str} {o : Outcome}
    (h : Happens order run requests_ id s o) : o = .called ∨
      (InterfaceProvider.handlerThread order run requests_
        (accepted id s)).connection.stream_.sent ≠ [] := by
  cases o with
  | badHead => exact Or.inr (h.2.2 ▸ statusBytes_ne_nil order 400)
  | badTarget => exact Or.inr (h.2.2.2 ▸ statusBytes_ne_nil order 400)
  | unrouted =>
    rcases h.2.2.2.2 with h | h
    · exact Or.inr (h ▸ statusBytes_ne_nil order 404)
    · exact Or.inr (h ▸ statusBytes_ne_nil order 501)
  | called => exact Or.inl rfl

/-- A thread that owes an answer has one of the outcomes only if the stream takes the answer. -/
theorem good_of_happens {order : IterationOrder Str Str} {run : Run κ} {requests_ : Requests κ}
    {id : UserId} {s : Str} {o : Outcome} {code : Int} (hcode : UInt16.ofInt code ≠ 204)
    (hfinished : InterfaceProvider.handlerThread order run requests_ (accepted id s) =
      ⟨(({} : Response).sendStatus order code (accepted id s).readHead.1).2, [.deregister id]⟩)
    (h : Happens order run requests_ id s o) :
    (accepted id s).readHead.1.stream_.good = true := by
  have hsent := sendStatus_sent order hcode (accepted id s).readHead.1
  rw [(readHead_frame id s).2, List.nil_append] at hsent
  rcases h.sent_ne_nil with hcalled | hne
  · -- a call would be among the events
    rw [hcalled] at h
    obtain ⟨_, _, i, hevents, _⟩ := h
    rw [hfinished] at hevents
    exact absurd hevents (by simp)
  · rw [hfinished, hsent] at hne
    cases hgood : (accepted id s).readHead.1.stream_.good with
    | true => rfl
    | false =>
      rw [hgood] at hne
      exact absurd rfl hne

/-- A head that is thrown back is answered if the stream takes it. -/
theorem happens_badHead {id : UserId} {s message : Str}
    (herror : (accepted id s).readHead.2 = .error (.invalidRequest message))
    (order : IterationOrder Str Str) (run : Run κ) (requests_ : Requests κ) :
    (∃ o, Happens order run requests_ id s o) ↔
      (accepted id s).readHead.1.stream_.good = true := by
  have hfinished := handlerThread_badHead herror order run requests_
  refine ⟨fun h => ?_, fun hgood => ⟨.badHead, ⟨message, herror⟩, ?_, ?_⟩⟩
  · obtain ⟨o, ho⟩ := h
    have hcode : UInt16.ofInt 400 ≠ 204 := by decide
    exact good_of_happens hcode hfinished ho
  · rw [hfinished]
    rfl
  · rw [hfinished]
    exact (answered_iff order (by decide) (readHead_frame id s).2).mpr hgood

/-- A request without a route is answered if the stream takes it, and one with a route is handed
to a callback. -/
theorem happens_goodHead {id : UserId} {s : Str} (hok : (accepted id s).readHead.2 = .ok ())
    (order : IterationOrder Str Str) (run : Run κ) (requests_ : Requests κ) :
    (∃ o, Happens order run requests_ id s o) ↔
      ((accepted id s).readHead.1.stream_.good = true ∨
        Routed requests_ (accepted id s).readHead.1.request_.requestType
          (accepted id s).readHead.1.request_.url) := by
  have hsent : (accepted id s).readHead.1.stream_.sent = [] := (readHead_frame id s).2
  rcases connectionHandler_cases order run requests_ (accepted id s).readHead.1 with
    ⟨hroute, code, hcode, htarget, heq⟩ | ⟨hroute, i, _, heq⟩
  · have hfinished := handlerThread_goodHead hok heq rfl
    have hcode204 : UInt16.ofInt code ≠ 204 := by
      rcases hcode with h | h | h
      · rw [h]; decide
      · rw [h]; decide
      · rw [h]; decide
    refine ⟨fun h => ?_, fun h => ?_⟩
    · obtain ⟨o, ho⟩ := h
      exact Or.inl (good_of_happens hcode204 hfinished ho)
    · rcases h with hgood | hrouted
      · have hanswered : Answered order code (InterfaceProvider.handlerThread order run requests_
            (accepted id s)).connection := by
          rw [hfinished]
          exact (answered_iff order hcode204 hsent).mpr hgood
        have hevents : (InterfaceProvider.handlerThread order run requests_
            (accepted id s)).events = [.deregister id] := by rw [hfinished]; rfl
        by_cases h400 : code = 400
        · rw [h400] at hanswered
          exact ⟨.badTarget, hok, htarget.mp h400, hevents, hanswered⟩
        · have haccepted : ∃ target, ReducedUrlParser.parse
              (accepted id s).readHead.1.request_.url = .ok target := by
            by_contra hnone
            exact h400 (htarget.mpr fun target h => hnone ⟨target, h⟩)
          refine ⟨.unrouted, hok, haccepted, hroute, hevents, ?_⟩
          rcases hcode with h | h | h
          · exact absurd h h400
          · exact Or.inl (h ▸ hanswered)
          · exact Or.inr (h ▸ hanswered)
      · exact absurd hrouted hroute
  · have hfinished := handlerThread_goodHead hok heq rfl
    refine ⟨fun _ => Or.inr hroute, fun _ => ⟨.called, hok, hroute, i, ?_, hsent, ?_⟩⟩
    · rw [hfinished]
      rfl
    · rw [hfinished]

/-! ## In terms of the stream -/

/-- What a head that is accepted tells the handler. -/
theorem readHead_request {s : Str} {w : Words} (h : StartsWith s w) (hversion : IsVersion w.version)
    (id : UserId) : (accepted id s).readHead.1.request_.requestType = w.method ∧
      (accepted id s).readHead.1.request_.url = w.target := by
  rcases hlines : readHeaderLines (IStream.behind w.after) ∅ with ⟨stream, entries, result⟩
  rw [readHead_version h hversion id hlines]
  exact ⟨rfl, rfl⟩

/-- The head ends or goes wrong in front of the end of the stream, or the stream breaks off where
the reader does not mind, in a request that has a route. -/
def Decided (requests_ : Requests κ) (s : Str) : Prop :=
  EndsHead s ∨ GoesWrong s ∨ ∃ w, StartsWith s w ∧ IsVersion w.version ∧ CutAfter w.after ∧
    Routed requests_ w.method w.target

/-- **One request, one outcome.** For every stream, every table and all callbacks:

- the thread never terminates the program or crashes; it deregisters its connection once, at its
  end, and calls at most one callback before;
- exactly one of the four outcomes happens, with its answer on the stream, exactly if the stream
  decides about the request. Where it does not, the input of the stream is at its end, and the
  answer that is owed is dropped. -/
theorem one_outcome_iff (order : IterationOrder Str Str) (run : Run κ) (requests_ : Requests κ)
    (id : UserId) (s : Str) :
    ((InterfaceProvider.handlerThread order run requests_ (accepted id s)).events =
        [.deregister id] ∨
      ∃ i, (InterfaceProvider.handlerThread order run requests_ (accepted id s)).events =
        [.invoke i, .deregister id]) ∧
    ((∃! o, Happens order run requests_ id s o) ↔ Decided requests_ s) := by
  refine ⟨handlerThread_events order run requests_ id s, ?_⟩
  have hunique : (∃! o, Happens order run requests_ id s o) ↔
      ∃ o, Happens order run requests_ id s o := by
    refine ⟨fun h => h.exists, fun h => ?_⟩
    obtain ⟨o, ho⟩ := h
    exact ⟨o, ho, fun o' ho' => ho'.eq_outcomeOf.trans ho.eq_outcomeOf.symm⟩
  rw [hunique]
  rcases readHead_cases s with h | h | h | h
  · -- the stream is good behind the head
    have hread := readHead_endsHead h id
    rw [happens_goodHead hread.1]
    exact iff_of_true (Or.inl hread.2) (Or.inl h)
  · -- the stream is at its end: only a callback needs no answer
    have hread := readHead_cutHead h id
    rw [happens_goodHead hread.1]
    obtain ⟨w, hs, hversion, hcut⟩ := h
    have hrequest := readHead_request hs hversion id
    rw [hrequest.1, hrequest.2]
    refine ⟨fun hroute => ?_, fun hdecided => ?_⟩
    · rcases hroute with hgood | hroute
      · rw [hread.2] at hgood
        exact absurd hgood (by decide)
      · exact Or.inr (Or.inr ⟨w, hs, hversion, hcut, hroute⟩)
    · rcases hdecided with hends | hwrong | ⟨w', hs', _, _, hroute⟩
      · exact absurd ⟨w, hs, hversion, hcut⟩ hends.not_cutHead
      · obtain ⟨⟨message, herror⟩, _⟩ := readHead_goesWrong hwrong id
        rw [hread.1] at herror
        exact absurd herror (by simp)
      · rw [hs.unique hs']
        exact Or.inr hroute
  · -- the head is thrown back on a good stream
    obtain ⟨⟨message, herror⟩, hgood⟩ := readHead_goesWrong h id
    rw [happens_badHead herror]
    exact iff_of_true hgood (Or.inr (Or.inl h))
  · -- the head is thrown back, and the answer is dropped
    obtain ⟨⟨message, herror⟩, hgood⟩ := readHead_endsEarly h id
    rw [happens_badHead herror]
    refine iff_of_false (by rw [hgood]; decide) ?_
    intro hdecided
    have hok : (accepted id s).readHead.2 = .ok () ∨
        (accepted id s).readHead.1.stream_.good = true := by
      rcases hdecided with hends | hwrong | ⟨w, hs, hversion, hcut, _⟩
      · exact Or.inl (readHead_endsHead hends id).1
      · exact Or.inr (readHead_goesWrong hwrong id).2
      · exact Or.inl (readHead_cutHead ⟨w, hs, hversion, hcut⟩ id).1
    rw [herror, hgood] at hok
    exact absurd hok (by simp)

/-- A client that sends `GET` and no more gets no answer: nothing happens but the
deregistration. -/
theorem one_outcome_get :
    ¬ ∃! o, Happens (κ := Unit) IterationOrder.arbitrary (fun _ _ _ c => c) ∅ 1 "GET".toList o := by
  intro h
  have herror : (accepted 1 "GET".toList).readHead.2 = .error (.invalidRequest
      "Request does not contain a valid HTTP request header.".toList) := by rfl
  have hgood := (happens_badHead herror _ _ ∅).mp h.exists
  exact absurd hgood (by decide)

end Rest
