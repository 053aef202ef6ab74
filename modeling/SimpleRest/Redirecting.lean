import SimpleRest.HandlerOutcome
import SimpleRest.ResponseDecoding

/-!
# SimpleREST — redirecting

`redirect` enters a `Location`, and a status if none has been set. It returns nothing that a send
could be chained to, as `send`, `sendStatus` and `end` do, but it does not send either.

- `tells_foldl`: what the builder calls leave in the status line, and what `statusSet_` says of it;
- `redirect_end`: so the header that `redirect` leaves behind is the right one, and an `end` behind
  it would send it;
- `redirect_not_received`: a handler that redirects last leaves its client without a byte, for every
  table, every request and every sequence of builder calls.
-/

namespace Rest

open Cpp RestConnection

/-- A callback that makes some builder calls and then redirects. -/
structure Redirecting where
  calls : List BuilderCall
  path : Str

namespace Redirecting

/-- The response as the callback leaves it. -/
def response (k : Redirecting) (r : Response) : Response :=
  (k.calls.foldl BuilderCall.apply r).redirect k.path

/-- None of these calls has to do with the connection. -/
def run : Run Redirecting := fun k _ r c =>
  let _r := k.response r
  c

end Redirecting

/-! ## What the client should get -/

/-- The code of the last `status`, if there is one. -/
def lastStatus (calls : List BuilderCall) : Option Int :=
  calls.foldl (fun last call => match call with
    | .status code => some code
    | _ => last) none

/-- One response, to the path, with the code that was set last and its phrase, or else 302. -/
def Redirected (k : Redirecting) (sent : Str) : Prop :=
  Framed sent ∧ ∃ h body, decode sent = some (h, body) ∧
    h.responseHeaderPairs.lookup "Location".toList = some k.path ∧
    h.responseCode = UInt16.ofInt ((lastStatus k.calls).getD 302) ∧
    h.responseString = translateResponseCode ((lastStatus k.calls).getD 302)

/-! ## What `redirect` leaves behind -/

/-- The status line of a response is that of its last `status`, and `statusSet_` says whether there
has been one. -/
def Tells (r : Response) : Option Int → Prop
  | none => r.statusSet_ = false
  | some code => r.statusSet_ = true ∧ r.header_.responseCode = UInt16.ofInt code ∧
      r.header_.responseString = translateResponseCode code

/-- Every builder call keeps this. -/
theorem tells_foldl (calls : List BuilderCall) {r : Response} {last : Option Int}
    (h : Tells r last) :
    Tells (calls.foldl BuilderCall.apply r) (calls.foldl (fun last call => match call with
      | .status code => some code
      | _ => last) last) := by
  apply List.foldl_rel (r := Tells) h
  intro call _ r last h
  cases call with
  | status code => exact ⟨rfl, rfl, rfl⟩
  | type t => cases last with
    | none => exact h
    | some code => exact h
  | setHeaderEntry key value => cases last with
    | none => exact h
    | some code => exact h

/-- The status line behind `redirect`. -/
theorem redirect_status (k : Redirecting) :
    (k.response {}).header_.responseCode = UInt16.ofInt ((lastStatus k.calls).getD 302) ∧
      (k.response {}).header_.responseString =
        translateResponseCode ((lastStatus k.calls).getD 302) := by
  have htells : Tells (k.calls.foldl BuilderCall.apply {}) (lastStatus k.calls) :=
    tells_foldl k.calls rfl
  unfold Redirecting.response Response.redirect Response.setHeaderEntry
  simp only
  cases hlast : lastStatus k.calls with
  | none =>
    rw [hlast] at htells
    rw [show (k.calls.foldl BuilderCall.apply {}).statusSet_ = false from htells]
    exact ⟨rfl, rfl⟩
  | some code =>
    rw [hlast] at htells
    rw [htells.1]
    exact htells.2

theorem redirect_location (k : Redirecting) (r : Response) :
    (k.response r).header_.responseHeaderPairs.lookup "Location".toList = some k.path := by
  have hset : ((k.calls.foldl BuilderCall.apply r).header_.set "Location".toList
      k.path).responseHeaderPairs.lookup "Location".toList = some k.path := by
    rw [set_lookup, if_pos rfl]
  unfold Redirecting.response Response.redirect Response.setHeaderEntry
  simp only
  split
  · exact hset
  · exact hset

/-- The strings of the call keep to their places in a head. -/
def BuilderCall.InPlace (call : BuilderCall) : Prop :=
  call.CrLfFree ∧ match call with
    | .setHeaderEntry key _ => ':' ∉ key
    | _ => True

theorem decodable_apply {r : Response} (h : Decodable r.header_) {call : BuilderCall}
    (hplace : call.InPlace) : Decodable (call.apply r).header_ := by
  cases call with
  | status code => exact decodable_status h code
  | type t => exact h.set (by simp [CrLfFree]) hplace.1 (by decide)
  | setHeaderEntry key value => exact h.set hplace.1.1 hplace.1.2 hplace.2

theorem decodable_foldl {calls : List BuilderCall} {r : Response} (h : Decodable r.header_)
    (hcalls : ∀ call ∈ calls, call.InPlace) :
    Decodable (calls.foldl BuilderCall.apply r).header_ := by
  apply List.foldlRecOn (motive := fun r => Decodable r.header_) calls BuilderCall.apply h
  intro r hr call hcall
  exact decodable_apply hr (hcalls call hcall)

theorem decodable_redirect {k : Redirecting} (hcalls : ∀ call ∈ k.calls, call.InPlace)
    (hpath : CrLfFree k.path) : Decodable (k.response {}).header_ := by
  have hset : Decodable ((k.calls.foldl BuilderCall.apply {}).header_.set "Location".toList k.path) :=
    (decodable_foldl decodable_fresh hcalls).set (by simp [CrLfFree]) hpath (by decide)
  unfold Redirecting.response Response.redirect Response.setHeaderEntry
  simp only
  split
  · exact decodable_status hset 302
  · exact hset

/-- An `end` behind `redirect` gives the client what it should get. -/
theorem redirect_end (order : IterationOrder Str Str) {k : Redirecting}
    (hcalls : ∀ call ∈ k.calls, call.InPlace) (hpath : CrLfFree k.path) {c : RestConnection}
    (hgood : c.stream_.good = true) : Redirected k (written c ((k.response {}).end order c)) := by
  have hdecodable := decodable_redirect hcalls hpath
  have hframed := (sendString_framed_iff order hgood [] hdecodable.toClean).mpr (Or.inr rfl)
  refine ⟨hframed, stringHeader [] (k.response {}).header_, [], ?_, ?_, ?_, ?_⟩
  · show decode (written c (c.sendString order [] (k.response {}).header_)) = _
    rw [written_sendString order hgood, ite_self,
      decode_toString (decodable_stringHeader hdecodable []) order]
  · rw [stringHeader_others _ _ (by decide) (by decide), redirect_location]
  · rw [stringHeader_responseCode, (redirect_status k).1]
  · rw [(stringHeader_frame _ _).2, (redirect_status k).2]

/-! ## What the client gets -/

/-- Nothing is none of the responses it should get. -/
theorem not_redirected_nil (k : Redirecting) : ¬ Redirected k [] := by
  intro h
  obtain ⟨_, header, body, hdecode, _⟩ := h
  have hnone : decode [] = none := rfl
  rw [hnone] at hdecode
  exact absurd hdecode (by simp)

/-- The callback is called once, and the thread ends without a byte on the stream. -/
theorem redirecting_finished (order : IterationOrder Str Str) {requests_ : Requests Redirecting}
    {id : UserId} {s : Str} (hread : (accepted id s).readHead.2 = .ok ())
    (hrouted : Routed requests_ (accepted id s).readHead.1.request_.requestType
      (accepted id s).readHead.1.request_.url) :
    ∃ i : Invocation Redirecting,
      (InterfaceProvider.handlerThread order Redirecting.run requests_ (accepted id s)).events =
        [.invoke i, .deregister id] ∧
      (InterfaceProvider.handlerThread order Redirecting.run requests_
        (accepted id s)).connection.stream_.sent = [] := by
  obtain ⟨i, hfinished⟩ := handlerThread_routed order Redirecting.run hread hrouted
  refine ⟨i, ?_, ?_⟩
  · rw [hfinished]
  · rw [hfinished]
    exact (readHead_frame id s).2

/-- **No redirect reaches its client.** For every table of callbacks that redirect last, whatever
builder calls they make before, and every request that reaches one of them: the callback is called
once, the connection is deregistered, and the client has got none of the responses it should get. -/
theorem redirect_not_received (order : IterationOrder Str Str) (requests_ : Requests Redirecting)
    (id : UserId) (s : Str) (hread : (accepted id s).readHead.2 = .ok ())
    (hrouted : Routed requests_ (accepted id s).readHead.1.request_.requestType
      (accepted id s).readHead.1.request_.url) :
    ∃ i : Invocation Redirecting,
      (InterfaceProvider.handlerThread order Redirecting.run requests_ (accepted id s)).events =
        [.invoke i, .deregister id] ∧
      ¬ Redirected i.callback (InterfaceProvider.handlerThread order Redirecting.run requests_
        (accepted id s)).connection.stream_.sent := by
  obtain ⟨i, hevents, hsent⟩ := redirecting_finished order hread hrouted
  refine ⟨i, hevents, ?_⟩
  rw [hsent]
  exact not_redirected_nil i.callback

/-- A server that sends its visitors to a page. -/
def loginTable : Requests Redirecting :=
  registerAll [⟨.get, "/".toList, ⟨[.status 301], "/login".toList⟩⟩]

theorem routed_loginTable : Routed loginTable (accepted 1 rootHead).readHead.1.request_.requestType
    (accepted 1 rootHead).readHead.1.request_.url := by
  have hroot : ReducedUrlParser.parse "/".toList = .ok { url := "/".toList, path := "/".toList } :=
    rfl
  refine (routed_registerAll _ _ _).mpr ⟨_, hroot, _, List.mem_cons_self, rfl, _, hroot, ?_⟩
  decide

/-- A visitor gets nothing. -/
theorem redirect_not_received_root :
    ∃ i : Invocation Redirecting,
      (InterfaceProvider.handlerThread IterationOrder.arbitrary Redirecting.run loginTable
        (accepted 1 rootHead)).events = [.invoke i, .deregister 1] ∧
      ¬ Redirected i.callback (InterfaceProvider.handlerThread IterationOrder.arbitrary
        Redirecting.run loginTable (accepted 1 rootHead)).connection.stream_.sent :=
  redirect_not_received IterationOrder.arbitrary loginTable 1 rootHead readHead_rootHead
    routed_loginTable

/-- So a redirect does not reach every client. -/
theorem redirect_lost : ¬ ∀ (order : IterationOrder Str Str) (requests_ : Requests Redirecting)
    (id : UserId) (s : Str) (i : Invocation Redirecting),
    (InterfaceProvider.handlerThread order Redirecting.run requests_ (accepted id s)).events =
      [.invoke i, .deregister id] →
    Redirected i.callback (InterfaceProvider.handlerThread order Redirecting.run requests_
      (accepted id s)).connection.stream_.sent := by
  intro hall
  obtain ⟨i, hevents, hsent⟩ :=
    redirecting_finished IterationOrder.arbitrary readHead_rootHead routed_loginTable
  have hredirected := hall _ _ _ _ i hevents
  rw [hsent] at hredirected
  exact not_redirected_nil i.callback hredirected

end Rest
