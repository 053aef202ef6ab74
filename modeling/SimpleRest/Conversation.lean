import SimpleRest.EndCall
import SimpleRest.Lib.SelfDelimiting
import SimpleRest.MimeTable
import SimpleRest.Redirecting
import SimpleRest.Spec.Serialized

/-!
# SimpleREST — all that a callback writes

A callback may make any calls of its `Response`, in any order and as often as it likes. Each call
that sends puts a response on the stream, with the header as the calls before have made it, and the
client has to find their ends. By the rules of HTTP it takes as much for a body as the header
announces, and nothing where the code has no body.

- `runCalls_sent`: what is on the stream is one response for each call that sends, in their order;
- `read_answer`: which of them the client takes off as they are;
- `conversation_read_iff`: it reads the very responses that have been sent if and only if none of
  them has a body under a code that has none.
-/

namespace Rest

open Cpp RestConnection SelfDelimiting

variable {α : Type}

/-! ## The calls -/

/-- A call of a `Response`. -/
inductive ResponseCall (α : Type) where
  | builder (call : BuilderCall)
  | redirect (path : Str)
  | body (call : BodyCall)
  | «end»
  | json (obj : α)
  | xml (obj : α) (rootName : Str)

namespace ResponseCall

/-- The response and the connection behind the call, and how it ends. -/
def run (order : IterationOrder Str Str) (files : Files) (serializers : Serializers α)
    (r : Response) (c : RestConnection) :
    ResponseCall α → Response × RestConnection × Except Fault Unit
  | builder call => (call.apply r, c, .ok ())
  | redirect path => (r.redirect path, c, .ok ())
  | body call => call.run order files r c
  | «end» => (r, r.end order c, .ok ())
  | json obj => (r, r.json order serializers obj c, .ok ())
  | xml obj rootName => (r, r.xml order serializers obj rootName c, .ok ())

/-- The call is to send a file that cannot be opened. -/
def throws (files : Files) : ResponseCall α → Bool
  | body (.sendFile fileName _) => (files fileName).isNone
  | _ => false

/-- The response behind the call. -/
def response (r : Response) : ResponseCall α → Response
  | builder call => call.apply r
  | redirect path => r.redirect path
  | body (.sendStatus code) => r.status code
  | _ => r

/-- What the call sends. -/
def answer (files : Files) (serializers : Serializers α) (r : Response) :
    ResponseCall α → Option Answer
  | builder _ | redirect _ => none
  | body (.send message) => some (stringAnswer message r.header_)
  | body (.sendStatus code) =>
    some (stringAnswer (translateResponseCode code) (r.status code).header_)
  | body (.sendFile fileName autoDetectContentType) =>
    (files fileName).map fun content =>
      ⟨headerOfFile fileName content autoDetectContentType r.header_, content⟩
  | «end» => some (stringAnswer [] r.header_)
  | json obj =>
    some ⟨objectHeader "text/json; charset=UTF-8".toList (jsonBody serializers obj) r.header_,
      jsonBody serializers obj⟩
  | xml obj rootName =>
    some ⟨objectHeader "text/xml; charset=UTF-8".toList (xmlBody serializers obj rootName)
      r.header_, xmlBody serializers obj rootName⟩

/-- The strings of the call keep to their places in a head. -/
def InPlace : ResponseCall α → Prop
  | builder call => call.InPlace
  | redirect path => CrLfFree path
  | _ => True

end ResponseCall

/-- One call after the other. One that throws is the last. -/
def runCalls (order : IterationOrder Str Str) (files : Files) (serializers : Serializers α) :
    List (ResponseCall α) → Response → RestConnection →
      Response × RestConnection × Except Fault Unit
  | [], r, c => (r, c, .ok ())
  | call :: calls, r, c =>
    match call.run order files serializers r c with
    | (r, c, .ok ()) => runCalls order files serializers calls r c
    | stopped => stopped

/-- The responses that are sent. -/
def conversation (files : Files) (serializers : Serializers α) :
    List (ResponseCall α) → Response → List Answer
  | [], _ => []
  | call :: calls, r =>
    if call.throws files then []
    else (call.answer files serializers r).toList ++
      conversation files serializers calls (call.response r)

/-! ## What is on the stream -/

section

variable {order : IterationOrder Str Str} {files : Files} {serializers : Serializers α}
  {c : RestConnection}

/-- A head and a body that are put on a good stream are on it. -/
theorem put_put (hgood : c.stream_.good = true) (head body : Str) :
    ((c.put head).put body).stream_.sent = c.stream_.sent ++ (head ++ body) ∧
      ((c.put head).put body).stream_.good = true := by
  have hhead := IOStream.put_good head hgood
  have hbody := IOStream.put_good body hhead.2
  refine ⟨?_, hbody.2⟩
  show ((c.stream_.put head).put body).sent = _
  rw [hbody.1, hhead.1, List.append_assoc]

/-- **What a call comes to** on a good stream: what it sends stands behind what there was. -/
theorem ResponseCall.run_sends (order : IterationOrder Str Str) (serializers : Serializers α)
    {call : ResponseCall α} (hreturns : call.throws files = false)
    (hgood : c.stream_.good = true) (r : Response) :
    ∃ c', call.run order files serializers r c = (call.response r, c', .ok ()) ∧
      c'.stream_.sent = c.stream_.sent ++
        (call.answer files serializers r).toList.flatMap (Answer.bytes order) ∧
      c'.stream_.good = true := by
  have hone : ∀ {sent : Str} (a : Answer), sent = c.stream_.sent ++ a.bytes order →
      sent = c.stream_.sent ++ (some a).toList.flatMap (Answer.bytes order) := by
    intro sent a hsent
    rw [hsent, Option.toList_some, List.flatMap_singleton]
  cases call with
  | builder call => exact ⟨c, rfl, (List.append_nil _).symm, hgood⟩
  | redirect path => exact ⟨c, rfl, (List.append_nil _).symm, hgood⟩
  | body call =>
    cases call with
    | send message =>
      have hsent := sendString_good order hgood message r.header_
      exact ⟨_, rfl, hone (stringAnswer message r.header_) hsent.1, hsent.2⟩
    | sendStatus code =>
      have hsent := sendString_good order hgood (translateResponseCode code) (r.status code).header_
      exact ⟨_, rfl, hone (stringAnswer _ (r.status code).header_) hsent.1, hsent.2⟩
    | sendFile fileName autoDetectContentType =>
      obtain ⟨content, hfile⟩ : ∃ content, files fileName = some content :=
        Option.isSome_iff_exists.mp (by simpa [ResponseCall.throws] using hreturns)
      have hsent := sendFile_good order hgood hfile autoDetectContentType r.header_
      have hok : (c.sendFile order files fileName autoDetectContentType r.header_).2 = .ok () := by
        rw [sendFile_eq order c hfile]
      refine ⟨_, congrArg (Prod.mk r) (Prod.ext rfl hok), ?_, hsent.2⟩
      simp only [ResponseCall.answer, hfile]
      exact hone ⟨headerOfFile fileName content autoDetectContentType r.header_, content⟩ hsent.1
  | «end» =>
    have hsent := sendString_good order hgood [] r.header_
    exact ⟨_, rfl, hone (stringAnswer [] r.header_) hsent.1, hsent.2⟩
  | json obj =>
    have hsent := put_put hgood
      ((objectHeader "text/json; charset=UTF-8".toList (jsonBody serializers obj)
        r.header_).toString order) (jsonBody serializers obj)
    exact ⟨_, rfl, hone ⟨_, _⟩ hsent.1, hsent.2⟩
  | xml obj rootName =>
    have hsent := put_put hgood
      ((objectHeader "text/xml; charset=UTF-8".toList (xmlBody serializers obj rootName)
        r.header_).toString order) (xmlBody serializers obj rootName)
    exact ⟨_, rfl, hone ⟨_, _⟩ hsent.1, hsent.2⟩

/-- A call that throws has written nothing. -/
theorem ResponseCall.run_throws {call : ResponseCall α} (hthrows : call.throws files = true)
    (r : Response) (c : RestConnection) :
    call.run order files serializers r c =
      (r, c, .error (.runtimeError "Could not open file.".toList)) := by
  cases call with
  | body call =>
    cases call with
    | sendFile fileName autoDetectContentType =>
      have hfile : files fileName = none := Option.isNone_iff_eq_none.mp hthrows
      exact congrArg (Prod.mk r) (sendFile_none order c hfile _ _)
    | _ => cases hthrows
  | _ => cases hthrows

/-- **What is on the stream** behind a sequence of calls is one response for each that has sent.
Induction on the calls. -/
theorem runCalls_sent : ∀ (calls : List (ResponseCall α)) (r : Response) (c : RestConnection),
    c.stream_.good = true →
    (runCalls order files serializers calls r c).2.1.stream_.sent = c.stream_.sent ++
      (conversation files serializers calls r).flatMap (Answer.bytes order) := by
  intro calls
  induction calls with
  | nil =>
    intro r c _
    exact (List.append_nil _).symm
  | cons call calls ih =>
    intro r c hgood
    unfold runCalls conversation
    cases hthrows : call.throws files with
    | true =>
      rw [ResponseCall.run_throws hthrows, if_pos rfl]
      exact (List.append_nil _).symm
    | false =>
      obtain ⟨c', hrun, hsent, hgood'⟩ :=
        ResponseCall.run_sends order serializers hthrows hgood r
      rw [hrun, if_neg Bool.false_ne_true, List.flatMap_append, ← List.append_assoc, ← hsent]
      exact ih (call.response r) c' hgood'

end

/-! ## The client -/

/-- The codes whose responses have no body, whatever is announced. -/
def bodiless (code : UInt16) : Bool :=
  decide (100 ≤ code ∧ code < 200) || decide (code = 204) || decide (code = 304)

/-- The length a header announces. -/
def announced (h : ResponseHeader) : Option Nat :=
  (h.responseHeaderPairs.lookup "Content-Length".toList).bind fun value =>
    if value ≠ [] ∧ value.all Char.isDigit then some (Nat.ofDigitChars 10 value 0) else none

/-- Takes one response off the stream. -/
def readAnswer (sent : Str) : Option (Answer × Str) := do
  let (header, rest) ← decode sent
  if bodiless header.responseCode then some (⟨header, []⟩, rest)
  else
    let n ← announced header
    if n ≤ rest.length then some (⟨header, rest.take n⟩, rest.drop n) else none

/-- A header that can be read back, and that announces the body if its code has one. -/
structure Announces (a : Answer) : Prop where
  decodable : Decodable a.header
  length : bodiless a.header.responseCode = false → announced a.header = some a.body.length

theorem announced_toDecimal {h : ResponseHeader} {n : Nat}
    (hlookup : h.responseHeaderPairs.lookup "Content-Length".toList = some (toDecimal n)) :
    announced h = some n := by
  have hdigits : (toDecimal n).all Char.isDigit = true :=
    List.all_eq_true.mpr (isDigit_toDecimal n)
  unfold announced
  rw [hlookup, Option.bind_some, if_pos ⟨Nat.toDigits_ne_nil, hdigits⟩, ofDigitChars_toDecimal]

section

variable {order : IterationOrder Str Str} {a : Answer}

/-- **What the client takes off**: the response, and no more than that; but of a body that the code
does not have, nothing. -/
theorem read_answer (h : Announces a) (order : IterationOrder Str Str) (rest : Str) :
    readAnswer (a.bytes order ++ rest) =
      if bodiless a.header.responseCode then some (⟨a.header, []⟩, a.body ++ rest)
      else some (a, rest) := by
  unfold readAnswer Answer.bytes
  rw [List.append_assoc, decode_toString h.decodable]
  cases hcode : bodiless a.header.responseCode with
  | true => simp [hcode]
  | false =>
    have hlength := h.length hcode
    simp [hcode, hlength]

theorem read_cases (h : Announces a) (order : IterationOrder Str Str) :
    (Delimits readAnswer (Answer.bytes order) a ↔
        (bodiless a.header.responseCode = true → a.body = [])) ∧
      (Delimits readAnswer (Answer.bytes order) a ∨ Mistaken readAnswer (Answer.bytes order) a) := by
  by_cases hbody : bodiless a.header.responseCode = true → a.body = []
  · have hdelimits : Delimits readAnswer (Answer.bytes order) a := by
      intro rest
      rw [read_answer h]
      split
      · next hcode =>
        obtain ⟨header, body⟩ := a
        have hnil : body = [] := hbody hcode
        rw [hnil]
        rfl
      · rfl
    exact ⟨iff_of_true hdelimits hbody, Or.inl hdelimits⟩
  · obtain ⟨hcode, hne⟩ := Classical.not_imp.mp hbody
    have hmistaken : Mistaken readAnswer (Answer.bytes order) a := by
      intro rest
      refine ⟨_, _, (read_answer h order rest).trans (if_pos hcode), fun heq => hne ?_⟩
      rw [← heq]
    refine ⟨iff_of_false (fun hdelimits => ?_) hbody, Or.inr hmistaken⟩
    obtain ⟨b, rest', hread, hdiff⟩ := hmistaken []
    rw [hdelimits, Option.some.injEq, Prod.mk.injEq] at hread
    exact hdiff hread.1.symm

end

/-! ## What is announced -/

theorem types_cons {extension type : Str} {rows : List (String × String)}
    (hrow : printable type = true) (hrows : ∀ row ∈ rows, printable row.2.toList = true) :
    ∀ row ∈ (String.ofList extension, String.ofList type) :: rows,
      printable row.2.toList = true := by
  refine List.forall_mem_cons.mpr ⟨?_, hrows⟩
  simp only [String.toList_ofList, hrow]

/-- No type of the table breaks a line. -/
theorem types_printable : ∀ row ∈ extensionToMimeMappings, printable row.2.toList = true := by
  unfold extensionToMimeMappings
  repeat apply types_cons rfl
  exact List.forall_mem_nil _

theorem crLfFree_extensionToMimeType (extension : Str) :
    CrLfFree (extensionToMimeType extension) := by
  unfold extensionToMimeType
  split
  · simp [CrLfFree]
  · next row hrow => exact crLfFree_of_printable (types_printable row (List.mem_of_find?_eq_some hrow))

theorem stringAnswer_announces {h : ResponseHeader} (hdecodable : Decodable h) (text : Str) :
    Announces (stringAnswer text h) where
  decodable := decodable_stringHeader hdecodable text
  length := by
    intro hcode
    have h204 : h.responseCode ≠ 204 := by
      intro h204
      rw [show (stringAnswer text h).header.responseCode = h.responseCode from
        stringHeader_responseCode text h, h204] at hcode
      cases hcode
    rw [show (stringAnswer text h).body = text from if_pos h204]
    exact announced_toDecimal (stringHeader_contentLength text h)

theorem decodable_typedHeader {h : ResponseHeader} (hdecodable : Decodable h)
    (extension : Option Str) : Decodable (typedHeader extension h) := by
  unfold typedHeader
  cases extension with
  | none => exact hdecodable
  | some extension =>
    simp only
    split
    · exact hdecodable.set (by simp [CrLfFree]) (crLfFree_extensionToMimeType extension) (by decide)
    · exact hdecodable

theorem fileHeader_announces {h : ResponseHeader} (hdecodable : Decodable h)
    (extension : Option Str) (content : Str) :
    Announces ⟨fileHeader extension content.length h, content⟩ where
  decodable := by
    have hset : Decodable ((typedHeader extension h).set "Content-Length".toList
        (toDecimal content.length)) :=
      (decodable_typedHeader hdecodable extension).set (by simp [CrLfFree]) (crLfFree_toDecimal _)
        (by decide)
    show Decodable (fileHeader extension content.length h)
    rw [fileHeader_eq]
    split
    · exact ⟨⟨hset.version, by simp [CrLfFree], hset.pairs⟩, hset.noBlank, hset.noColon⟩
    · exact hset
  length := fun _ => announced_toDecimal (fileHeader_isFileHeader extension content h).length

theorem objectHeader_announces {h : ResponseHeader} (hdecodable : Decodable h) {type : Str}
    (htype : CrLfFree type) (body : Str) : Announces ⟨objectHeader type body h, body⟩ where
  decodable := ((hdecodable.set (by simp [CrLfFree]) htype (by decide)).set (by simp [CrLfFree])
    (crLfFree_toDecimal _) (by decide)).set (by simp [CrLfFree]) (by simp [CrLfFree]) (by decide)
  length := by
    intro _
    refine announced_toDecimal ?_
    show (objectHeader type body h).responseHeaderPairs.lookup _ = _
    unfold objectHeader
    rw [set_lookup, if_neg (by decide), set_lookup, if_pos rfl]

/-! ## The conversation -/

section

variable {files : Files} {serializers : Serializers α}

theorem ResponseCall.response_decodable {call : ResponseCall α} (hplace : call.InPlace)
    {r : Response} (hr : Decodable r.header_) : Decodable (call.response r).header_ := by
  cases call with
  | builder call => exact decodable_apply hr hplace
  | redirect path =>
    have hset : Decodable (r.header_.set "Location".toList path) :=
      hr.set (by simp [CrLfFree]) hplace (by decide)
    unfold ResponseCall.response Response.redirect Response.setHeaderEntry
    simp only
    split
    · exact decodable_status hset 302
    · exact hset
  | body call =>
    cases call with
    | sendStatus code => exact decodable_status hr code
    | _ => exact hr
  | _ => exact hr

/-- What is sent can be read back, and announces its body. -/
theorem ResponseCall.answer_announces (call : ResponseCall α) {r : Response}
    (hr : Decodable r.header_) : ∀ a ∈ call.answer files serializers r, Announces a := by
  intro a ha
  cases call with
  | builder call => cases ha
  | redirect path => cases ha
  | body call =>
    cases call with
    | send message =>
      cases ha
      exact stringAnswer_announces hr message
    | sendStatus code =>
      cases ha
      exact stringAnswer_announces (decodable_status hr code) _
    | sendFile fileName autoDetectContentType =>
      obtain ⟨content, _, rfl⟩ := Option.map_eq_some_iff.mp ha
      exact fileHeader_announces hr _ content
  | «end» =>
    cases ha
    exact stringAnswer_announces hr []
  | json obj =>
    cases ha
    exact objectHeader_announces hr (by simp [CrLfFree]) _
  | xml obj rootName =>
    cases ha
    exact objectHeader_announces hr (by simp [CrLfFree]) _

/-- Induction on the calls: the header stays readable. -/
theorem conversation_announces : ∀ (calls : List (ResponseCall α)) (r : Response),
    Decodable r.header_ → (∀ call ∈ calls, call.InPlace) →
    ∀ a ∈ conversation files serializers calls r, Announces a := by
  intro calls
  induction calls with
  | nil =>
    intro r _ _ a ha
    cases ha
  | cons call calls ih =>
    intro r hr hcalls a ha
    unfold conversation at ha
    split at ha
    · cases ha
    · rcases List.mem_append.mp ha with hhere | hlater
      · exact call.answer_announces hr a (Option.mem_toList.mp hhere)
      · refine ih (call.response r) (ResponseCall.response_decodable ?_ hr) (fun call' hcall' => ?_)
          a hlater
        · exact hcalls call List.mem_cons_self
        · exact hcalls call' (List.mem_cons_of_mem call hcall')

end

/-- **When the client reads what has been sent.** For every sequence of calls of a `Response`, with
strings that keep to their places in a head, for all files, objects and orders of the header
entries: the client takes the very responses that have been sent off the stream, one for each call
that sends, with the headers as they were and with their bodies, if and only if none of them has a
body under a code that has none. A text that is sent with 204 has no body already. -/
theorem conversation_read_iff (order : IterationOrder Str Str) (files : Files)
    (serializers : Serializers α) {calls : List (ResponseCall α)}
    (hcalls : ∀ call ∈ calls, call.InPlace) {c : RestConnection} (hgood : c.stream_.good = true) :
    readAll readAnswer (written c (runCalls order files serializers calls {} c).2.1) =
        some (conversation files serializers calls {}) ↔
      ∀ a ∈ conversation files serializers calls {},
        bodiless a.header.responseCode = true → a.body = [] := by
  have hannounces : ∀ a ∈ conversation files serializers calls {}, Announces a :=
    conversation_announces calls {} decodable_fresh hcalls
  have hwritten : written c (runCalls order files serializers calls {} c).2.1 =
      (conversation files serializers calls {}).flatMap (Answer.bytes order) := by
    unfold written
    rw [runCalls_sent calls {} c hgood, List.drop_left]
  rw [hwritten, readAll_flatMap_iff]
  · refine forall₂_congr fun a ha => ?_
    exact (read_cases (hannounces a ha) order).1
  · intro a ha
    refine ⟨fun hnil => ?_, (read_cases (hannounces a ha) order).2⟩
    exact BodyCall.toString_ne_nil a.header (List.append_eq_nil_iff.mp hnil).1

/-- A text and an `end` behind it: two responses, and the client reads both. -/
theorem conversation_read_hello :
    readAll readAnswer (written (accepted 1 []) (runCalls IterationOrder.arbitrary (fun _ => none)
      (⟨fun _ _ => [], fun _ _ => []⟩ : Serializers Unit) [.body (.send "hello".toList), .end] {}
      (accepted 1 [])).2.1) =
    some [stringAnswer "hello".toList {}, stringAnswer [] {}] := by
  have hplace : ∀ call ∈ ([.body (.send "hello".toList), .end] : List (ResponseCall Unit)),
      call.InPlace := by
    intro call hcall
    rcases List.mem_cons.mp hcall with heq | hcall
    · rw [heq]
      trivial
    · rw [List.mem_singleton.mp hcall]
      trivial
  refine (conversation_read_iff IterationOrder.arbitrary (fun _ => none) _ hplace rfl).mpr ?_
  intro a ha hcode
  -- both have the code 200
  have h200 : a.header.responseCode = 200 := by
    rcases List.mem_cons.mp ha with heq | ha
    · rw [heq]
      exact stringHeader_responseCode _ _
    · rw [List.mem_singleton.mp ha]
      exact stringHeader_responseCode _ _
  rw [h200] at hcode
  cases hcode

end Rest
