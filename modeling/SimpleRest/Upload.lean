import SimpleRest.BodyPrefix
import SimpleRest.Exchange
import SimpleRest.Spec.RequestBody

/-!
# SimpleREST — what a client uploads

A client sends a body behind its head. The callback reads it with `getString` and answers. The head
is read by one thread among others, and the body comes in as the network brings it:

- `getString_delivers`: what one `getString` takes from the stream that the head has left;
- `uploaded`: the callback gets a beginning of the body that was sent, the rest stays on the stream,
  and the client reads back the answer to what the callback has got.
-/

namespace Rest

open Cpp Template Transition InterfaceProvider RestConnection BodyRead

variable {κ : Type}

/-- Callbacks that read the body first, and answer then. -/
def uploading (order : IterationOrder Str Str) (network : Network)
    (answer : κ → Request → Str → Reply) : Run κ :=
  fun callback request response _ =>
    let (c, text) := request.getString network
    (answer callback request text).run order response c

/-- Every pass of the read finds a full block or the whole rest of the body. -/
def ReadsWhole (arrivals : Arrivals) (timeout : Int) (start : Nat) : Prop :=
  ∀ r, Passes arrivals timeout ⟨start, 0, 0⟩ r → Settled arrivals timeout r

/-! ## One read -/

/-- **What `getString` takes** is the beginning of what is left on the stream. It takes all of it
exactly if each of its passes is settled. -/
theorem getString_delivers (network : Network) {request : Request} {body : Str}
    (hbody : request.connection_.stream_.toIStream = .of body) :
    (request.getString network).2 ++ (request.getString network).1.stream_.rest = body ∧
      (request.getString network).1.stream_.good = true ∧
      (request.getString network).1.stream_.sent = request.connection_.stream_.sent ∧
      (Exact (network.arrivals request.connection_) →
        KeepsUp (network.arrivals request.connection_) 3 →
        ((request.getString network).2 = body ↔
          ReadsWhole (network.arrivals request.connection_) 3
            (network.begins request.connection_))) := by
  have hrest : request.connection_.stream_.rest = body := congrArg IStream.rest hbody
  have harrivals : (network.arrivals request.connection_).body = body :=
    (network.body _).trans hrest
  have hsound : Sound (network.arrivals request.connection_)
      ⟨network.begins request.connection_, 0, 0⟩ := Nat.zero_le _
  obtain ⟨hresult, hdelivered⟩ := call_delivers (.readString 3) hsound
  refine ⟨?_, ?_, rfl, fun hexact hkeeps => ?_⟩
  · have hnext := hdelivered.next
    unfold left at hnext
    rw [harrivals] at hnext
    show ((Call.readString 3).run _ _).2 ++ request.connection_.stream_.rest.drop _ = body
    rw [hresult, hrest]
    exact hnext
  · show (request.connection_.stream_.toIStream).good = true
    rw [hbody]
    rfl
  · have hfuel : (network.arrivals request.connection_).body.length <
        0 + ((network.arrivals request.connection_).body.length + 1) := by omega
    have hwhole := readLoop_whole_iff hexact hkeeps _ _ [] hsound hfuel
    have hleft : left (network.arrivals request.connection_)
        ⟨network.begins request.connection_, 0, 0⟩ = body := harrivals
    unfold ReadsWhole
    rw [← hwhole, hleft]
    exact Iff.rfl

/-! ## One client among others -/

/-- An answer leaves what is still to be read. -/
theorem Reply.run_rest (a : Reply) (order : IterationOrder Str Str) (response : Response)
    (c : RestConnection) : (a.run order response c).stream_.rest = c.stream_.rest := by
  have hput : ∀ (c : RestConnection) (text : Str), (c.put text).stream_.rest = c.stream_.rest := by
    intro c text
    unfold RestConnection.put IOStream.put
    split <;> rfl
  unfold Reply.run Response.send RestConnection.sendString
  simp only
  split
  · rw [hput, hput]
  · rw [hput]

namespace System

variable {order : IterationOrder Str Str} {network : Network} {answer : κ → Request → Str → Reply}
  {client : Nat → Str}

/-- **What a client uploads is what its callback gets**, as far as it is there. The callbacks read
the body and answer, and a client's head asks for what has been registered before its thread was
made, and no registration in front of this one takes its path away. Whatever the other clients do,
and in whatever order the threads take their steps and the network brings the body:

- the callback has got the beginning of the body that was sent, and the rest is still on the stream;
- where the stream shows what has come in and the body keeps up with the timeout, it has got all of
  it if and only if every pass of the read has found a full block or the whole rest;
- and the client reads back the answer to what the callback has got, with its length. -/
theorem uploaded {s t : System κ}
    (hs : Reachable order (uploading order network answer) client s)
    (hrun : Runs order (uploading order network answer) client s t) {n : Nat} {j : Job κ}
    (hnew : s.jobs.length ≤ n) (hget : t.jobs[n]? = some j) (hdone : j.stage = .done)
    {before behind : List (Registration κ)} {r : Registration κ}
    (hlog : s.log = before ++ r :: behind) {p : List Str} {value : Str → Str} {h : SentHead}
    (hasks : AsksFor r p value h)
    (hfirst : LeavesTo before r.verb (p.map (fill parameterName value))) {body : Str}
    (hclient : client j.peer.serial = h.render ++ body) :
    ∃ (request : Request) (text : Str) (header : ResponseHeader), Arrives p value h body request ∧
      text ++ j.connection.stream_.rest = body ∧
      (Exact (network.arrivals request.connection_) →
        KeepsUp (network.arrivals request.connection_) 3 →
        (text = body ↔ ReadsWhole (network.arrivals request.connection_) 3
          (network.begins request.connection_))) ∧
      IsResponse j.connection.stream_.sent header (answer r.callback request text).message := by
  obtain ⟨request, harrives, hfinished⟩ :=
    finished_delivers hs hrun hnew hget hdone hlog hasks hfirst hclient
  obtain ⟨hbody, hgood, hsent, hwhole⟩ := getString_delivers network harrives.body
  have hconnection : j.connection = (answer r.callback request (request.getString network).2).run
      order {} (request.getString network).1 := congrArg Finished.connection hfinished
  have hresponse := ((answer r.callback request (request.getString network).2).isResponse order
    (hsent.trans harrives.unanswered)).1 hgood
  refine ⟨request, (request.getString network).2, _, harrives, ?_, hwhole, hconnection ▸ hresponse⟩
  rw [hconnection, Reply.run_rest]
  exact hbody

/-- A network on which everything is there from the beginning. -/
def atOnce : Network where
  arrivals c := {
    body := c.stream_.rest
    received := fun _ => c.stream_.rest.length
    received_mono := monotone_const
    received_le := fun _ => Nat.le_refl _
    visible := fun _ consumed => c.stream_.rest.length - consumed
    visible_le := fun _ _ => Nat.le_refl _
    lag := fun _ => 0 }
  begins _ := 0
  body _ := rfl

/-- Callbacks that answer with the body. -/
def mirror (_ : Unit) (_ : Request) (text : Str) : Reply where
  calls := []
  message := text
  decodable := decodable_fresh
  noContent := fun h204 => absurd h204 (by decide)

/-- The client of a server that accepts one connection reads back the body it has sent. -/
theorem uploaded_body : ∃ (j : Job Unit) (header : ResponseHeader), j.stage = .done ∧
    IsResponse j.connection.stream_.sent header "body".toList := by
  obtain ⟨s, t, j, hs, ht, hlog, hnew, hget, hdone⟩ : ∃ (s t : System Unit) (j : Job Unit),
      perform (step .arbitrary (uploading .arbitrary atOnce mirror)
        fun _ => userHead.render ++ "body".toList) {} [.register userRoute] = some s ∧
      perform (step .arbitrary (uploading .arbitrary atOnce mirror)
        fun _ => userHead.render ++ "body".toList) s oneServed = some t ∧
      s.log = [] ++ userRoute :: [] ∧ s.jobs.length ≤ 0 ∧ t.jobs[0]? = some j ∧ j.stage = .done :=
    ⟨_, _, _, rfl, rfl, rfl, Nat.le_refl 0, rfl, rfl⟩
  obtain ⟨request, text, header, _, _, hwhole, hresponse⟩ := uploaded (run_of_perform hs)
    (run_of_perform ht) hnew hget hdone hlog asksFor_user (fun y hy => absurd hy List.not_mem_nil) rfl
  have htext : text = "body".toList :=
    (hwhole (fun _ _ => rfl) (fun _ hless => absurd hless (Nat.lt_irrefl _))).mpr
      fun _ _ => Or.inr rfl
  rw [← htext]
  exact ⟨j, header, hdone, hresponse⟩

end System

end Rest
