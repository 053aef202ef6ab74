import SimpleRest.MimeTable
import SimpleRest.ResponseFraming

/-!
# SimpleREST — the content type of a response

`type` is meant to take a MIME type, or a file extension without its dot, and to enter the type.
It looks an extension up and then enters the argument, so what a client gets is the argument of the
last call.

- `contentType_foldl`: later builder calls leave the entry alone;
- `contentType_sent`: and so does `sendString`, which has a type of its own only for a header
  without one;
- `type_resolved_iff`: the type sent is the one that is meant exactly if the argument is no listed
  extension.
-/

namespace Rest

open Cpp RestConnection

/-- The type that is meant by an argument of `type`. -/
def resolvedType (type : Str) : Str :=
  let mime := extensionToMimeType ('.' :: type)
  if mime.isEmpty then type else mime

/-- The call is not about the type. -/
def BuilderCall.KeepsType : BuilderCall → Prop
  | status _ => True
  | type _ => False
  | setHeaderEntry key _ => key ≠ "Content-Type".toList

theorem contentType_apply (r : Response) {call : BuilderCall} (h : call.KeepsType) :
    (call.apply r).header_.responseHeaderPairs.lookup "Content-Type".toList =
      r.header_.responseHeaderPairs.lookup "Content-Type".toList := by
  cases call with
  | status code => rfl
  | type t => exact absurd h id
  | setHeaderEntry key value =>
    show (r.header_.set key value).responseHeaderPairs.lookup "Content-Type".toList = _
    rw [set_lookup, if_neg (Ne.symm h)]

/-- Calls that are not about the type leave its entry as it is. -/
theorem contentType_foldl {calls : List BuilderCall} (r : Response)
    (hcalls : ∀ call ∈ calls, call.KeepsType) :
    (calls.foldl BuilderCall.apply r).header_.responseHeaderPairs.lookup "Content-Type".toList =
      r.header_.responseHeaderPairs.lookup "Content-Type".toList := by
  apply List.foldlRecOn (motive := fun r' : Response =>
    r'.header_.responseHeaderPairs.lookup "Content-Type".toList =
      r.header_.responseHeaderPairs.lookup "Content-Type".toList) calls BuilderCall.apply rfl
  intro r' hr' call hcall
  exact (contentType_apply r' (hcalls call hcall)).trans hr'

/-- A type that is set is the one that is sent. -/
theorem stringHeader_contentType {h : ResponseHeader} {type : Str}
    (htype : h.responseHeaderPairs.lookup "Content-Type".toList = some type) (text : Str) :
    (stringHeader text h).responseHeaderPairs.lookup "Content-Type".toList = some type := by
  have hlength : (h.set "Content-Length".toList (toDecimal text.length)).responseHeaderPairs.lookup
      "Content-Type".toList = some type := by
    rw [set_lookup, if_neg (by decide), htype]
  have hset : (h.set "Content-Length".toList (toDecimal text.length)).isSet
      "Content-Type".toList = true := by
    rw [ResponseHeader.isSet, hlength]
    rfl
  unfold stringHeader
  simp only
  rw [if_pos hset]
  exact hlength

/-- What is sent is the argument of the last call of `type`. -/
theorem contentType_sent (before : List BuilderCall) (type : Str) {after : List BuilderCall}
    (hafter : ∀ call ∈ after, call.KeepsType) (m : Str) :
    (stringHeader m (build (before ++ .type type :: after)).header_).responseHeaderPairs.lookup
      "Content-Type".toList = some type := by
  apply stringHeader_contentType
  unfold build
  rw [List.foldl_append, List.foldl_cons, contentType_foldl _ hafter]
  show ((List.foldl BuilderCall.apply {} before).header_.set "Content-Type".toList
    type).responseHeaderPairs.lookup "Content-Type".toList = _
  rw [set_lookup, if_pos rfl]

/-- **When `type` resolves its argument.** For every sequence of builder calls whose last call of
`type` has this argument, and every text: the header that `send` writes in front of the text has
the type that is meant, exactly if the argument is not a listed extension without its dot. -/
theorem type_resolved_iff (order : IterationOrder Str Str) (before after : List BuilderCall)
    (type : Str) (hafter : ∀ call ∈ after, call.KeepsType) (m : Str) :
    (∀ c : RestConnection, c.stream_.good = true →
      written c ((build (before ++ .type type :: after)).send order m c) =
        (stringHeader m (build (before ++ .type type :: after)).header_).toString order ++
          if (build (before ++ .type type :: after)).header_.responseCode ≠ 204 then m else []) ∧
    ((stringHeader m (build (before ++ .type type :: after)).header_).responseHeaderPairs.lookup
        "Content-Type".toList = some (resolvedType type) ↔ ¬ IsExtension ('.' :: type)) := by
  refine ⟨fun c hgood => written_sendString order hgood m _, ?_⟩
  rw [contentType_sent before type hafter m, Option.some.injEq]
  refine ⟨fun htype hlisted => ?_, fun hunlisted => ?_⟩
  · have hne : extensionToMimeType ('.' :: type) ≠ [] :=
      fun h => (extensionToMimeType_eq_nil_iff _).mp h hlisted
    unfold resolvedType at htype
    simp only at htype
    rw [if_neg (by simpa using hne)] at htype
    exact extensionToMimeType_ne hlisted htype.symm
  · unfold resolvedType
    simp only
    rw [extensionToMimeType_unlisted hunlisted]
    rfl

/-- A MIME type of its own is sent as it is, whatever status is set behind it. -/
theorem type_resolved_json :
    (stringHeader [] (build ([] ++ [.type "application/json".toList,
        .status 404])).header_).responseHeaderPairs.lookup "Content-Type".toList =
      some (resolvedType "application/json".toList) := by
  refine (type_resolved_iff IterationOrder.arbitrary [] [.status 404] "application/json".toList
    ?_ []).2.mpr ?_
  · intro call hcall
    rw [List.mem_singleton.mp hcall]
    exact trivial
  · intro hlisted
    exact absurd hlisted.slashFree (by decide)

/-- `type("xml")` sends `xml`, which is no type. -/
theorem type_resolved_xml : ¬ ∀ (before after : List BuilderCall) (type m : Str),
    (∀ call ∈ after, call.KeepsType) →
    (stringHeader m (build (before ++ .type type :: after)).header_).responseHeaderPairs.lookup
      "Content-Type".toList = some (resolvedType type) := by
  intro hall
  have hafter : ∀ call ∈ ([] : List BuilderCall), call.KeepsType := by simp
  have htype := hall [] [] "xml".toList [] hafter
  rw [contentType_sent [] "xml".toList hafter []] at htype
  exact absurd htype (by decide)

end Rest
