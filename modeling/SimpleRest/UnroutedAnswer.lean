import SimpleRest.HandlerOutcome
import SimpleRest.ResponseDecoding

/-!
# SimpleREST — the answer to a request without a route

A request that no registration serves is answered by the handler itself. Two things about its
answer should not depend on the table: its code, which is the method's, and, for HEAD, that it
has no body.

- `statusSent_reply`: what a client makes of an answer of the handler;
- `connectionHandler_unserved`: the code of the answer, for every history of registrations;
- `unrouted_status_iff`: it is the method's own code exactly if the method is not HEAD or some
  HEAD route has been registered. HEAD is not one of the methods the handler asks for;
- `headAnswer_not_headOnly`: every answer to HEAD has its reason phrase behind the head. The
  branch that would send none is never reached.
-/

namespace Rest

open Cpp RestConnection
open InterfaceProvider (connectionHandler reply)

variable {κ : Type}

/-! ## What a client makes of an answer -/

/-- The code of the response that a call has put on the stream. -/
def statusSent (c c' : RestConnection) : Option UInt16 :=
  (decode (written c c')).map (·.1.responseCode)

theorem written_sendStatus (order : IterationOrder Str Str) {code : Int}
    (hcode : UInt16.ofInt code ≠ 204) (c : RestConnection) :
    written c (({} : Response).sendStatus order code c).2 =
      if c.stream_.good then statusBytes order code else [] := by
  rw [written, sendStatus_sent order hcode, List.drop_left]

/-- A client reads the code off an answer, if the stream takes it at all. -/
theorem statusSent_reply (order : IterationOrder Str Str) {code : Int}
    (hcode : UInt16.ofInt code ≠ 204) (c : RestConnection) :
    statusSent c (reply order c code : Handled κ).connection =
      if c.stream_.good then some (UInt16.ofInt code) else none := by
  show statusSent c (({} : Response).sendStatus order code c).2 = _
  rw [statusSent, written_sendStatus order hcode]
  cases c.stream_.good with
  | true =>
    have hdecodable := decodable_stringHeader (decodable_status decodable_fresh code)
      (({} : Response).status code).header_.responseString
    rw [if_pos rfl, if_pos rfl, statusBytes, decode_toString hdecodable order, Option.map_some,
      stringHeader_responseCode]
    rfl
  | false => rfl

/-! ## The code of the answer -/

/-- The methods that `InterfaceProvider` can register. -/
def registrable : List Str :=
  [Verb.get, .put, .post, .remove, .head, .patch].map Verb.method

theorem mem_registrable (method : Str) : method ∈ registrable ↔ ∃ v : Verb, v.method = method := by
  refine ⟨fun h => ?_, fun h => ?_⟩
  · obtain ⟨v, _, hv⟩ := List.mem_map.mp h
    exact ⟨v, hv⟩
  · obtain ⟨v, hv⟩ := h
    rw [← hv]
    cases v <;> decide

theorem notMem_registrable (method : Str) : method ∉ registrable ↔ method ≠ "HEAD".toList ∧
    method ≠ "GET".toList ∧ method ≠ "POST".toList ∧ method ≠ "PUT".toList ∧
    method ≠ "DELETE".toList ∧ method ≠ "PATCH".toList := by
  rw [mem_registrable, not_exists]
  refine ⟨fun h => ?_, fun h v => ?_⟩
  · exact ⟨Ne.symm (h .head), Ne.symm (h .get), Ne.symm (h .post), Ne.symm (h .put),
      Ne.symm (h .remove), Ne.symm (h .patch)⟩
  · obtain ⟨hhead, hget, hpost, hput, hremove, hpatch⟩ := h
    cases v with
    | get => exact Ne.symm hget
    | post => exact Ne.symm hpost
    | put => exact Ne.symm hput
    | remove => exact Ne.symm hremove
    | head => exact Ne.symm hhead
    | patch => exact Ne.symm hpatch

/-- The code that tells about the method alone: a resource is missing, or a method is. -/
def unroutedStatus (method : Str) : UInt16 := if method ∈ registrable then 404 else 501

/-- The connection behind the handler, after a history of registrations. -/
def handledAfter (order : IterationOrder Str Str) (run : Run κ) (log : List (Registration κ))
    (c : RestConnection) : RestConnection :=
  (connectionHandler order run (registerAll log) c).connection

/-- Where no registration serves, the handler sends the method's code, but for one case: HEAD
has no vector. -/
theorem connectionHandler_unserved {c : RestConnection} {target : Url} {log : List (Registration κ)}
    (htarget : ReducedUrlParser.parse c.request_.url = .ok target)
    (hnone : ¬ ∃ r ∈ log, r.Serves c.request_.requestType target) (order : IterationOrder Str Str)
    (run : Run κ) :
    ∃ code, connectionHandler order run (registerAll log) c = reply order c code ∧
      UInt16.ofInt code =
        if c.request_.requestType = "HEAD".toList ∧ "HEAD".toList ∉ registerAll log then 501
        else unroutedStatus c.request_.requestType := by
  refine ⟨_, connectionHandler_unrouted htarget (find_registerAll_none hnone) order run, ?_⟩
  generalize c.request_.requestType = method
  by_cases hcode : method ∉ registerAll log ∧ method ≠ "GET".toList ∧ method ≠ "POST".toList ∧
      method ≠ "PUT".toList ∧ method ≠ "DELETE".toList ∧ method ≠ "PATCH".toList
  · rw [if_pos hcode]
    by_cases hhead : method = "HEAD".toList
    · -- not among the five, so it is answered like a method that is none of the six
      rw [if_pos ⟨hhead, hhead ▸ hcode.1⟩]
      decide
    · rw [if_neg fun h => hhead h.1, unroutedStatus,
        if_neg ((notMem_registrable method).mpr ⟨hhead, hcode.2⟩)]
      decide
  · have hhead : ¬ (method = "HEAD".toList ∧ "HEAD".toList ∉ registerAll log) := by
      intro h
      rw [h.1] at hcode
      exact hcode ⟨h.2, by decide⟩
    have hmem : method ∈ registrable := by
      by_cases hregistered : method ∈ registerAll log
      · -- only the six functions make vectors
        obtain ⟨r, _, hr⟩ := (mem_registerAll log method).mp hregistered
        exact (mem_registrable method).mpr ⟨r.verb, hr.1⟩
      · by_contra hmem
        exact hcode ⟨hregistered, ((notMem_registrable method).mp hmem).2⟩
    rw [if_neg hcode, if_neg hhead, unroutedStatus, if_pos hmem]
    decide

/-- What the client reads of it. -/
theorem statusSent_unserved {c : RestConnection} {target : Url} {log : List (Registration κ)}
    (htarget : ReducedUrlParser.parse c.request_.url = .ok target)
    (hnone : ¬ ∃ r ∈ log, r.Serves c.request_.requestType target) (order : IterationOrder Str Str)
    (run : Run κ) :
    statusSent c (handledAfter order run log c) =
      if c.stream_.good then some
        (if c.request_.requestType = "HEAD".toList ∧ "HEAD".toList ∉ registerAll log then 501
        else unroutedStatus c.request_.requestType)
      else none := by
  obtain ⟨code, heq, hcode⟩ := connectionHandler_unserved htarget hnone order run
  have hne : UInt16.ofInt code ≠ 204 := by
    rw [hcode]
    unfold unroutedStatus
    split
    · decide
    · split
      · decide
      · decide
  rw [handledAfter, heq, statusSent_reply order hne, hcode]

/-- **The code of the answer is the method's own exactly where HEAD is out of play.** For every
history of registrations and every request that none of them serves: 404 is sent for the six
methods and 501 for all others, and more registrations that do not serve it change nothing,
exactly if the stream still takes an answer, and the method is not HEAD or has been registered
for. -/
theorem unrouted_status_iff (order : IterationOrder Str Str) (run : Run κ)
    (log : List (Registration κ)) (c : RestConnection) {target : Url}
    (htarget : ReducedUrlParser.parse c.request_.url = .ok target)
    (hnone : ¬ ∃ r ∈ log, r.Serves c.request_.requestType target) :
    (statusSent c (handledAfter order run log c) = some (unroutedStatus c.request_.requestType) ∧
      ∀ log', log.Sublist log' → (¬ ∃ r ∈ log', r.Serves c.request_.requestType target) →
        statusSent c (handledAfter order run log' c) =
          statusSent c (handledAfter order run log c)) ↔
    c.stream_.good = true ∧
      (c.request_.requestType ≠ "HEAD".toList ∨ ∃ r ∈ log, r.Registers "HEAD".toList) := by
  have hsent := statusSent_unserved htarget hnone order run
  refine ⟨fun h => ?_, fun h => ?_⟩
  · rw [hsent] at h
    cases hgood : c.stream_.good with
    | false =>
      rw [hgood] at h
      exact absurd h.1 (by simp)
    | true =>
      refine ⟨rfl, ?_⟩
      by_contra hcase
      rw [not_or, not_not, ← mem_registerAll] at hcase
      -- the answer is 501, and HEAD is one of the six
      rw [hgood, if_pos rfl, if_pos hcase, hcase.1] at h
      exact absurd (Option.some.inj h.1) (by decide)
  · have hstatus : ∀ log', log.Sublist log' →
        (¬ ∃ r ∈ log', r.Serves c.request_.requestType target) →
        statusSent c (handledAfter order run log' c) =
          some (unroutedStatus c.request_.requestType) := by
      intro log' hsub hnone'
      rw [statusSent_unserved htarget hnone' order run, if_pos h.1, if_neg]
      intro hcase
      rcases h.2 with hmethod | ⟨r, hr, hregisters⟩
      · exact hmethod hcase.1
      · exact hcase.2 ((mem_registerAll log' _).mpr ⟨r, hsub.subset hr, hregisters⟩)
    have hown := hstatus log (List.Sublist.refl log) hnone
    refine ⟨hown, fun log' hsub hnone' => ?_⟩
    rw [hown, hstatus log' hsub hnone']

/-- A request for the root, as it stands behind its head. -/
def rootRequest (method : Str) : RestConnection :=
  { accepted 1 [] with
    request_ := { requestType := method, httpVersion := "HTTP/1.1".toList, url := "/".toList } }

theorem parse_rootRequest (method : Str) :
    ReducedUrlParser.parse (rootRequest method).request_.url =
      .ok { url := "/".toList, path := "/".toList } := rfl

/-- A registration for a path that is not the root. -/
def usersRoute (verb : Verb) : Registration Unit := ⟨verb, "/users".toList, ()⟩

theorem usersRoute_unserved (verb : Verb) (method : Str) :
    ¬ ∃ r ∈ [usersRoute verb], r.Serves method { url := "/".toList, path := "/".toList } := by
  rintro ⟨r, hr, _, pattern, hpattern, hmatch⟩
  rw [List.mem_singleton.mp hr] at hpattern
  have hparse : ReducedUrlParser.parse "/users".toList =
      .ok { url := "/users".toList, path := "/users".toList } := by rfl
  cases hparse.symm.trans hpattern
  revert hmatch
  decide

/-- A `GET` for the root, to a server that has a route for something else, is answered by the code of
the method. -/
theorem unrouted_status_get :
    statusSent (rootRequest "GET".toList) (handledAfter IterationOrder.arbitrary
        (fun _ _ _ c => c) [usersRoute .get] (rootRequest "GET".toList)) = some 404 ∧
      ∀ log', List.Sublist [usersRoute .get] log' →
        (¬ ∃ r ∈ log', r.Serves "GET".toList { url := "/".toList, path := "/".toList }) →
        statusSent (rootRequest "GET".toList) (handledAfter IterationOrder.arbitrary
            (fun _ _ _ c => c) log' (rootRequest "GET".toList)) =
          statusSent (rootRequest "GET".toList) (handledAfter IterationOrder.arbitrary
            (fun _ _ _ c => c) [usersRoute .get] (rootRequest "GET".toList)) :=
  (unrouted_status_iff IterationOrder.arbitrary (fun _ _ _ c => c) [usersRoute .get]
    (rootRequest "GET".toList) (parse_rootRequest _) (usersRoute_unserved _ _)).mpr
      ⟨rfl, Or.inl (by decide)⟩

/-- A `HEAD` to a server without routes is answered with 501. -/
theorem unrouted_status_head :
    ¬ ∀ (log : List (Registration Unit)) (c : RestConnection) (target : Url),
      ReducedUrlParser.parse c.request_.url = .ok target →
      (¬ ∃ r ∈ log, r.Serves c.request_.requestType target) → c.stream_.good = true →
      statusSent c (handledAfter IterationOrder.arbitrary (fun _ _ _ c => c) log c) =
        some (unroutedStatus c.request_.requestType) := by
  intro hall
  have hsent := hall [] (rootRequest "HEAD".toList) _ (parse_rootRequest _) (by simp) rfl
  rw [statusSent_unserved (parse_rootRequest _) (by simp)] at hsent
  revert hsent
  decide

/-! ## Answers to HEAD -/

/-- A head, and no byte behind its empty line. -/
def HeadOnly (sent : Str) : Prop := ∃ lines, IsMessage sent lines []

/-- What `sendStatus` writes is a head and the reason phrase. -/
theorem statusBytes_isMessage (order : IterationOrder Str Str) (code : Int) :
    ∃ lines, IsMessage (statusBytes order code) lines (translateResponseCode code) :=
  ⟨_, toString_isMessage (clean_stringHeader (clean_status clean_fresh code) _) order _⟩

/-- So it is a head alone only for a code that has no phrase. On a stream that takes nothing it is
not even that. -/
theorem not_headOnly_sendStatus (order : IterationOrder Str Str) {code : Int}
    (hcode : UInt16.ofInt code ≠ 204) (hphrase : translateResponseCode code ≠ [])
    (c : RestConnection) :
    ¬ HeadOnly (written c (({} : Response).sendStatus order code c).2) := by
  rw [written_sendStatus order hcode]
  intro h
  obtain ⟨lines, hlines⟩ := h
  cases hgood : c.stream_.good with
  | true =>
    obtain ⟨lines', hlines'⟩ := statusBytes_isMessage order code
    rw [hgood, if_pos rfl] at hlines
    exact hphrase (hlines'.unique hlines).2
  | false =>
    rw [hgood] at hlines
    exact absurd hlines.2 (by simp)

/-- **No answer of the library to HEAD is a head alone.** For every table and every HEAD request
that has no route in it: the code is 400, 404 or 501, and each of them is written with its reason
phrase behind the empty line. -/
theorem headAnswer_not_headOnly (order : IterationOrder Str Str) (run : Run κ)
    (requests_ : Requests κ) (c : RestConnection) (hmethod : c.request_.requestType = "HEAD".toList)
    (hunrouted : ¬ Routed requests_ "HEAD".toList c.request_.url) :
    ¬ HeadOnly (written c (connectionHandler order run requests_ c).connection) := by
  rcases connectionHandler_cases order run requests_ c with ⟨_, code, hcode, _, heq⟩ | ⟨hrouted, _⟩
  · rw [heq]
    show ¬ HeadOnly (written c (({} : Response).sendStatus order code c).2)
    rcases hcode with h | h | h
    · rw [h]
      exact not_headOnly_sendStatus order (by decide) (by decide) c
    · rw [h]
      exact not_headOnly_sendStatus order (by decide) (by decide) c
    · rw [h]
      exact not_headOnly_sendStatus order (by decide) (by decide) c
  · rw [hmethod] at hrouted
    exact absurd hrouted hunrouted

/-- On a server that has a HEAD route for something else it is the 404, with the body `Not Found`. -/
theorem headAnswer_not_headOnly_root :
    ¬ HeadOnly (written (rootRequest "HEAD".toList) (connectionHandler IterationOrder.arbitrary
      (fun _ _ _ c => c) (registerAll [usersRoute .head])
      (rootRequest "HEAD".toList)).connection) := by
  have hunrouted : ¬ Routed (registerAll [usersRoute .head]) "HEAD".toList
      (rootRequest "HEAD".toList).request_.url := by
    rw [routed_registerAll]
    rintro ⟨target, htarget, hserves⟩
    cases (parse_rootRequest "HEAD".toList).symm.trans htarget
    exact usersRoute_unserved _ _ hserves
  exact headAnswer_not_headOnly IterationOrder.arbitrary (fun _ _ _ c => c)
    (registerAll [usersRoute .head]) (rootRequest "HEAD".toList) rfl hunrouted

/-- So a client that reads a head only is left with bytes it did not ask for. -/
theorem headAnswer_root :
    ¬ ∀ (requests_ : Requests Unit) (c : RestConnection), c.request_.requestType = "HEAD".toList →
      ¬ Routed requests_ "HEAD".toList c.request_.url → c.stream_.good = true →
      HeadOnly (written c (connectionHandler IterationOrder.arbitrary (fun _ _ _ c => c)
        requests_ c).connection) := by
  intro hall
  have hhead := hall ∅ (rootRequest "HEAD".toList) rfl (by simp [Routed, UnorderedMap.index]) rfl
  rw [connectionHandler_unrouted (parse_rootRequest _) rfl, if_pos (by decide)] at hhead
  exact not_headOnly_sendStatus _ (by decide) (by decide) _ hhead

end Rest
