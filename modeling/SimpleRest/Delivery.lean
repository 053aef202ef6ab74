import SimpleRest.RouteOrder
import SimpleRest.Serving

/-!
# SimpleREST — from the client to the callback

A client fills the template of a registered path with values and sends it, with header fields and a
body. Between this and the callback there are the request line, the URL parser, the router and the
threads of the server. None of them loses anything:

- `handlerThread_delivers`: what the handler thread does with such a request, on its own;
- `delivered`: the same for a connection among others, in any order of steps.
-/

namespace Rest

open Cpp Regex FirstMatch Template Transition InterfaceProvider ReducedUrlParser RestConnection

variable {κ : Type}

/-! ## The request -/

/-- The path of a template with values for its parameters. -/
def filledPath (p : List Str) (value : Str → Str) : Str :=
  (p.map (fill parameterName value)).flatMap ('/' :: ·)

/-- A head that asks for what `r` has been registered for, with values for the parameters of its
pattern `p`. The query and the fragment may be any. -/
structure AsksFor (r : Registration κ) (p : List Str) (value : Str → Str) (h : SentHead) : Prop where
  method : h.method = r.verb.method
  pattern : r.pattern = some p
  values : ∀ k ∈ holes parameterName p, Word segmentChar (value k)
  target : ∃ Q F, IsQuery Q ∧ IsFragment F ∧ h.target = filledPath p value ++ (Q ++ F)

/-- None of these registrations takes the path away. -/
def LeavesTo (before : List (Registration κ)) (v : Verb) (path : List Str) : Prop :=
  ∀ y ∈ before, y.verb = v → ∀ q ∈ y.pattern, ¬ FitsRoute q path

/-- What the callback gets is what has been sent. A field has the blank in front of its value and
the CR behind it. -/
structure Arrives (p : List Str) (value : Str → Str) (h : SentHead) (body : Str)
    (request : Request) : Prop where
  parameters : ∀ k ∈ holes parameterName p, request.getParameter k = value k
  noParameters : ∀ k, k ∉ holes parameterName p → request.getParameter k = []
  path : request.getPath = filledPath p value
  url : parse h.target = .ok request.url_
  /-- the entries that `parseQuery` makes of the text behind the `?` -/
  query : ∀ Q F, IsQuery Q → IsFragment F → h.target = filledPath p value ++ (Q ++ F) →
    runQuery h.target (filledPath p value) Q =
      .ok { url := h.target, path := filledPath p value, query := request.getQuery }
  line : request.getType = h.method ∧ request.getUrl = h.target
  fields : ∀ before name text after, h.fields = before ++ (name, text) :: after →
    name ∉ after.map Prod.fst → request.getHeaderField name = sentText text
  noFields : ∀ name, name ∉ h.fields.map Prod.fst → request.getHeaderField name = []
  body : request.connection_.stream_.toIStream = .of body
  unanswered : request.connection_.stream_.sent = []

/-! ## A thread on its own -/

section

variable {r : Registration κ} {p : List Str} {value : Str → Str} {h : SentHead}

theorem AsksFor.pieces (hasks : AsksFor r p value h) :
    IsPieces (p.map (fill parameterName value)) :=
  isPieces_fill (Registration.pattern_pieces hasks.pattern) hasks.values

theorem AsksFor.fits (hasks : AsksFor r p value h) :
    List.Forall₂ (Fits parameterName (· ≠ [])) p (p.map (fill parameterName value)) :=
  fits_of_fill fun k hk => (hasks.values k hk).1

/-- The target is accepted, and its path is the filled template. -/
theorem AsksFor.parse_target (hasks : AsksFor r p value h) :
    ∃ target, parse h.target = .ok target ∧ target.path = filledPath p value ∧
      splitPath target.path = p.map (fill parameterName value) := by
  obtain ⟨Q, F, hQ, hF, htarget⟩ := hasks.target
  obtain ⟨hpath, hsplit⟩ := isPath_pieces hasks.pieces
  have hdec : Decomposes h.target (filledPath p value) Q F := ⟨htarget, hpath, hQ, hF⟩
  obtain ⟨m, hm⟩ := runQuery_ok h.target (filledPath p value) Q
  exact ⟨_, parse_decomposes hdec hm, rfl, hsplit⟩

/-- The first registration that the others leave the path to serves it. -/
theorem AsksFor.earliest (hasks : AsksFor r p value h) {before : List (Registration κ)}
    (hfirst : LeavesTo before r.verb (p.map (fill parameterName value))) {target : Url}
    (hsplit : splitPath target.path = p.map (fill parameterName value))
    (behind : List (Registration κ)) :
    Earliest (Registration.Serves h.method target) (before ++ r :: behind) r := by
  refine ⟨before, behind, rfl, ?_, fun y hy hserves => ?_⟩
  · rw [Registration.serves_iff_fits, hsplit]
    exact ⟨hasks.method.symm, p, hasks.pattern, fits_of_fill fun _ _ => trivial⟩
  · rw [Registration.serves_iff_fits, hasks.method, hsplit] at hserves
    obtain ⟨hmethod, q, hq, hfits⟩ := hserves
    exact hfirst y hy (Verb.method_injective hmethod) q hq hfits

/-- The request a callback gets with the pattern it has been registered for. -/
def sentRequest (h : SentHead) (body : Str) (id : UserId) (pattern target : Url) : Request where
  connection_ := ⟨id, { toIStream := .of body }, ⟨h.method, h.version, h.target, h.entries⟩⟩
  parameters_ := UnorderedMap.insertAll ∅ (bindings pattern.path target.path)
  url_ := target

theorem AsksFor.arrives (hasks : AsksFor r p value h) {pattern target : Url}
    (hpattern : splitPath pattern.path = p) (htarget : parse h.target = .ok target)
    (hpath : target.path = filledPath p value)
    (hsplit : splitPath target.path = p.map (fill parameterName value)) (id : UserId) (body : Str) :
    Arrives p value h body (sentRequest h body id pattern target) := by
  have hnames : parameterNames pattern = holes parameterName p := by
    unfold parameterNames
    rw [hpattern]
  have hfits : List.Forall₂ (Fits parameterName (· ≠ [])) (splitPath pattern.path)
      (splitPath target.path) := by
    rw [hpattern, hsplit]
    exact hasks.fits
  have hmatch : PathMatches pattern.path target.path := by
    refine hfits.imp fun q t hqt => (segmentMatches_fits q t).mpr ?_
    cases hq : parameterName q with
    | none => exact (fits_none hq).mpr ((fits_none hq).mp hqt)
    | some name => exact (fits_some hq).mpr trivial
  have hnamed : ∀ k, k ∈ extraction pattern target ↔ k ∈ holes parameterName p := by
    intro k
    rw [mem_extraction hmatch, hnames]
  have hextraction : UnorderedMap.insertAll ∅ (bindings pattern.path target.path) =
      extraction pattern target := by
    unfold bindings extraction
    rw [segmentBindings_eq]
  have hread := readHead_render id h body
  unfold sentRequest
  rw [hextraction]
  refine ⟨fun k hk => ?_, fun k hk => ?_, hpath, htarget, fun Q F hQ hF hparts => ?_, ⟨rfl, rfl⟩, ?_,
    ?_, rfl, rfl⟩
  · obtain ⟨v, hv⟩ := Option.isSome_iff_exists.mp (Finmap.lookup_isSome.mpr ((hnamed k).mpr hk))
    have hentry := (UnorderedMap.lookup_insertAll_cases ∅ hv).resolve_right (by simp)
    -- a name that is repeated has the same value in all its places
    rw [hpattern, hsplit] at hentry
    show (extraction pattern target).index k [] = value k
    unfold UnorderedMap.index
    rw [hv, ← bindings_fill hentry]
    rfl
  · have hnone : (extraction pattern target).lookup k = none :=
      Finmap.lookup_eq_none.mpr fun hmem => hk ((hnamed k).mp hmem)
    show (extraction pattern target).index k [] = []
    unfold UnorderedMap.index
    rw [hnone]
    rfl
  · have hdec : Decomposes h.target (filledPath p value) Q F :=
      ⟨hparts, (isPath_pieces hasks.pieces).1, hQ, hF⟩
    obtain ⟨m, hm⟩ := runQuery_ok h.target (filledPath p value) Q
    cases htarget.symm.trans (parse_decomposes hdec hm)
    exact hm
  · intro before name text after hfields hlast
    exact getHeaderField_sent hread rfl hfields hlast
  · intro name hname
    exact getHeaderField_notSent hread rfl hname

/-- **What a handler thread does with a request** that fills the template of a registered path: it
calls the callback, once, with what has been sent. -/
theorem handlerThread_delivers (hasks : AsksFor r p value h) {before : List (Registration κ)}
    (hfirst : LeavesTo before r.verb (p.map (fill parameterName value)))
    (behind : List (Registration κ)) (order : IterationOrder Str Str) (run : Run κ) (id : UserId)
    (body : Str) : ∃ request : Request, Arrives p value h body request ∧
      InterfaceProvider.handlerThread order run (registerAll (before ++ r :: behind))
        (accepted id (h.render ++ body)) =
          ⟨run r.callback request {} request.connection_,
            [.invoke ⟨r.callback, request, {}⟩, .deregister id]⟩ := by
  obtain ⟨target, htarget, hpath, hsplit⟩ := hasks.parse_target
  obtain ⟨pattern, hurl, hfind⟩ := find_registerAll (hasks.earliest hfirst hsplit behind)
  have hpattern : splitPath pattern.path = p := by
    obtain ⟨url, hurl', hp⟩ := Registration.pattern_eq_some.mp hasks.pattern
    rw [hurl] at hurl'
    cases hurl'
    exact hp
  let request := sentRequest h body id pattern target
  have hread := readHead_render id h body
  have hok : (accepted id (h.render ++ body)).readHead.2 = .ok () := by rw [hread]
  have hhandled : connectionHandler order run (registerAll (before ++ r :: behind))
      (accepted id (h.render ++ body)).readHead.1 =
        ⟨run r.callback request {} request.connection_, [⟨r.callback, request, {}⟩], .ok ()⟩ := by
    rw [hread]
    exact connectionHandler_found (c := request.connection_) htarget hfind order run
  refine ⟨request, hasks.arrives hpattern htarget hpath hsplit id body, ?_⟩
  rw [handlerThread_goodHead hok hhandled rfl]
  rfl

end

/-! ## A thread among others -/

namespace System

variable {order : IterationOrder Str Str} {run : Run κ} {client : Nat → Str}

/-- What has been registered before a thread was made stands in front in the table the thread has
worked with. -/
theorem finished_behind {s t : System κ} (hs : Reachable order run client s)
    (hrun : Runs order run client s t) {n : Nat} {j : Job κ} (hnew : s.jobs.length ≤ n)
    (hget : t.jobs[n]? = some j) (hdone : j.stage = .done) :
    ∃ later, (⟨j.connection, j.events⟩ : Finished κ) =
      j.alone order run client (registerAll (s.log ++ later)) := by
  obtain ⟨seen, ⟨later, hseen⟩, _, halone⟩ := finished_between hs hrun hnew hget hdone
  rw [← hseen] at halone
  exact ⟨later, halone⟩

/-- What `handlerThread_delivers` says holds of a thread that is done, in any run. -/
theorem finished_delivers {s t : System κ} (hs : Reachable order run client s)
    (hrun : Runs order run client s t) {n : Nat} {j : Job κ} (hnew : s.jobs.length ≤ n)
    (hget : t.jobs[n]? = some j) (hdone : j.stage = .done)
    {before behind : List (Registration κ)} {r : Registration κ}
    (hlog : s.log = before ++ r :: behind) {p : List Str} {value : Str → Str} {h : SentHead}
    (hasks : AsksFor r p value h)
    (hfirst : LeavesTo before r.verb (p.map (fill parameterName value))) {body : Str}
    (hclient : client j.peer.serial = h.render ++ body) :
    ∃ request : Request, Arrives p value h body request ∧
      (⟨j.connection, j.events⟩ : Finished κ) =
        ⟨run r.callback request {} request.connection_,
          [.invoke ⟨r.callback, request, {}⟩, .deregister j.peer.id_]⟩ := by
  obtain ⟨later, halone⟩ := finished_behind hs hrun hnew hget hdone
  obtain ⟨request, harrives, hthread⟩ :=
    handlerThread_delivers hasks hfirst (behind ++ later) order run j.peer.id_ body
  rw [Job.alone, hclient, hlog, List.append_assoc, List.cons_append, hthread] at halone
  exact ⟨request, harrives, halone⟩

/-- **What a client sends is what its callback gets**, among any number of other clients, with the
steps of all threads in any order and with further registrations at any time. The client's head
asks for what has been registered before its thread was made, with values for the parameters of
the pattern, and no registration in front of this one takes its path away. Then, when the thread
is done:

- the callback has been called, once, and the connection has been deregistered behind that;
- it has got the values under the names of the parameters, the target and the entries of its query,
  the text of every header field, and the body left to read;
- and the connection is as it left it. -/
theorem delivered {s t : System κ} (hs : Reachable order run client s)
    (hrun : Runs order run client s t) {n : Nat} {j : Job κ} (hnew : s.jobs.length ≤ n)
    (hget : t.jobs[n]? = some j) (hdone : j.stage = .done)
    {before behind : List (Registration κ)} {r : Registration κ} (hlog : s.log = before ++ r :: behind)
    {p : List Str} {value : Str → Str} {h : SentHead} (hasks : AsksFor r p value h)
    (hfirst : LeavesTo before r.verb (p.map (fill parameterName value))) {body : Str}
    (hclient : client j.peer.serial = h.render ++ body) :
    ∃ request : Request, Arrives p value h body request ∧
      j.events = [.invoke ⟨r.callback, request, {}⟩, .deregister j.peer.id_] ∧
      j.connection = run r.callback request {} request.connection_ := by
  obtain ⟨request, harrives, hfinished⟩ :=
    finished_delivers hs hrun hnew hget hdone hlog hasks hfirst hclient
  exact ⟨request, harrives, congrArg Finished.events hfinished,
    congrArg Finished.connection hfinished⟩

theorem isWord_user : IStream.IsWord "/u/7".toList := by decide

/-- A request for `/u/7`, with one field. -/
def userHead : SentHead where
  method := Verb.get.method
  target := "/u/7".toList
  version := "HTTP/1.1".toList
  fields := [("Host".toList, "a".toList)]
  method_word := Verb.get.isWord_method
  target_word := isWord_user
  version_known := isVersion_http11
  isField := isField_host

def userRoute : Registration Unit := ⟨.get, "/u/:id".toList, ()⟩

/-- It fills the template `/u/:id`. -/
theorem asksFor_user : AsksFor userRoute ["u".toList, ":id".toList] (fun _ => "7".toList) userHead where
  method := rfl
  pattern := by rfl
  values := fun _ _ => by decide
  target := ⟨[], [], Or.inl rfl, Or.inl rfl, by decide⟩

/-- The client of a server that accepts one connection. -/
theorem delivered_user : ∃ (j : Job Unit) (request : Request), j.stage = .done ∧
    request.getParameter "id".toList = "7".toList ∧
    request.connection_.stream_.toIStream = .of "body".toList ∧
    j.events = [.invoke ⟨(), request, {}⟩, .deregister j.peer.id_] := by
  obtain ⟨s, t, j, hs, ht, hlog, hnew, hget, hdone⟩ : ∃ (s t : System Unit) (j : Job Unit),
      perform (step IterationOrder.arbitrary (fun _ _ _ c => c)
        fun _ => userHead.render ++ "body".toList) {} [.register userRoute] = some s ∧
      perform (step IterationOrder.arbitrary (fun _ _ _ c => c)
        fun _ => userHead.render ++ "body".toList) s oneServed = some t ∧
      s.log = [] ++ userRoute :: [] ∧ s.jobs.length ≤ 0 ∧ t.jobs[0]? = some j ∧ j.stage = .done :=
    ⟨_, _, _, rfl, rfl, rfl, Nat.le_refl 0, rfl, rfl⟩
  obtain ⟨request, harrives, hevents, _⟩ := delivered (run_of_perform hs) (run_of_perform ht) hnew
    hget hdone hlog asksFor_user (fun y hy => absurd hy List.not_mem_nil) rfl
  exact ⟨j, request, hdone, harrives.parameters _ (by decide), harrives.body, hevents⟩
end System

end Rest
