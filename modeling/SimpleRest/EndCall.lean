import SimpleRest.FileSending

/-!
# SimpleREST — `end` behind a send

`end` sends the empty string, and a `Response` does not remember what has been sent with it. So
whatever the calls before were, `end` puts one more head on the stream, unless it is not reached or
the stream takes nothing.

- `run_good` and `run_not_good`: behind a sending call, the stream is as good as before;
- `end_adds_nothing_iff`: when the bytes are the same with and without `end`, and what is added
  when they are not.
-/

namespace Rest

open Cpp RestConnection

/-- A call that sends a body. -/
inductive BodyCall where
  | send (message : Str)
  | sendStatus (code : Int)
  | sendFile (fileName : Str) (autoDetectContentType : Bool)

namespace BodyCall

/-- The response and the connection behind the call, and how it ends. -/
def run (order : IterationOrder Str Str) (files : Files) (r : Response) (c : RestConnection) :
    BodyCall → Response × RestConnection × Except Fault Unit
  | send message => (r, r.send order message c, .ok ())
  | sendStatus code => ((r.sendStatus order code c).1, (r.sendStatus order code c).2, .ok ())
  | sendFile fileName autoDetectContentType =>
    (r, r.sendFile order files fileName autoDetectContentType c)

/-- `end` is called behind it, if it returns. -/
def thenEnd (order : IterationOrder Str Str) (files : Files) (r : Response) (c : RestConnection)
    (call : BodyCall) : RestConnection :=
  match call.run order files r c with
  | (r, c, .ok ()) => r.end order c
  | (_, c, .error _) => c

/-- The call throws: it is to send a file that cannot be opened. -/
def Throws (files : Files) : BodyCall → Prop
  | sendFile fileName _ => files fileName = none
  | _ => False

variable {order : IterationOrder Str Str} {files : Files} {c : RestConnection}

/-! ## The sending calls -/

theorem run_returns (r : Response) {call : BodyCall} (hreturns : ¬ call.Throws files)
    (c : RestConnection) : (call.run order files r c).2.2 = .ok () := by
  cases call with
  | send message => rfl
  | sendStatus code => rfl
  | sendFile fileName autoDetectContentType =>
    obtain ⟨content, hfile⟩ := Option.ne_none_iff_exists'.mp hreturns
    show (c.sendFile order files fileName autoDetectContentType r.header_).2 = .ok ()
    rw [sendFile_eq order c hfile]

theorem run_good (r : Response) {call : BodyCall} (hreturns : ¬ call.Throws files)
    (hgood : c.stream_.good = true) : (call.run order files r c).2.1.stream_.good = true := by
  cases call with
  | send message => exact (sendString_good order hgood _ _).2
  | sendStatus code => exact (sendString_good order hgood _ _).2
  | sendFile fileName autoDetectContentType =>
    obtain ⟨content, hfile⟩ := Option.ne_none_iff_exists'.mp hreturns
    exact (sendFile_good order hgood hfile _ _).2

theorem run_not_good (r : Response) (call : BodyCall) (hgood : c.stream_.good = false) :
    (call.run order files r c).2.1.stream_.sent = c.stream_.sent ∧
      (call.run order files r c).2.1.stream_.good = false := by
  cases call with
  | send message => exact sendString_not_good order hgood _ _
  | sendStatus code => exact sendString_not_good order hgood _ _
  | sendFile fileName autoDetectContentType => exact sendFile_not_good order hgood fileName _ _

/-- A call that throws leaves the connection as it was. -/
theorem run_throws (r : Response) {call : BodyCall} (hthrows : call.Throws files)
    (c : RestConnection) : ∃ fault, call.run order files r c = (r, c, .error fault) := by
  cases call with
  | send message => exact absurd hthrows id
  | sendStatus code => exact absurd hthrows id
  | sendFile fileName autoDetectContentType =>
    exact ⟨_, congrArg (Prod.mk r) (sendFile_none order c hthrows _ _)⟩

/-- What a call that returns puts on a stream that is good: one head, and what is behind it. -/
theorem run_sent (r : Response) {call : BodyCall} (hreturns : ¬ call.Throws files)
    (hgood : c.stream_.good = true) : ∃ (header : ResponseHeader) (body : Str),
      (call.run order files r c).2.1.stream_.sent =
        c.stream_.sent ++ (header.toString order ++ body) := by
  cases call with
  | send message => exact ⟨_, _, (sendString_good order hgood _ _).1⟩
  | sendStatus code => exact ⟨_, _, (sendString_good order hgood _ _).1⟩
  | sendFile fileName autoDetectContentType =>
    obtain ⟨content, hfile⟩ := Option.ne_none_iff_exists'.mp hreturns
    exact ⟨_, _, (sendFile_good order hgood hfile _ _).1⟩

/-- Behind a call that throws, `end` is not reached. -/
theorem thenEnd_throws (r : Response) {call : BodyCall} (hthrows : call.Throws files)
    (c : RestConnection) : call.thenEnd order files r c = (call.run order files r c).2.1 := by
  obtain ⟨fault, hrun⟩ := run_throws r hthrows c
  unfold thenEnd
  rw [hrun]

theorem thenEnd_returns (r : Response) {call : BodyCall} (hreturns : ¬ call.Throws files)
    (c : RestConnection) :
    call.thenEnd order files r c =
      (call.run order files r c).1.end order (call.run order files r c).2.1 := by
  have hok : (call.run order files r c).2.2 = .ok () := run_returns r hreturns c
  unfold thenEnd
  split
  · next heq => rw [heq]
  · next heq =>
    rw [heq] at hok
    cases hok

/-- A call that throws has written nothing, and neither has one to a stream that is not good. -/
theorem thenEnd_sent_nothing (r : Response) {call : BodyCall}
    (hnothing : c.stream_.good = false ∨ call.Throws files) :
    (call.thenEnd order files r c).stream_.sent = c.stream_.sent := by
  by_cases hthrows : call.Throws files
  · obtain ⟨fault, hrun⟩ := run_throws r hthrows c
    rw [thenEnd_throws _ hthrows, hrun]
  · obtain ⟨hsent, hbad⟩ := run_not_good r call (hnothing.resolve_right hthrows)
    rw [thenEnd_returns _ hthrows]
    exact (sendString_not_good order hbad _ _).1.trans hsent

/-! ## What `end` adds -/

/-- One more head, of what the builder calls have made of the header, and a body of no length. -/
theorem end_sent (r : Response) (hgood : c.stream_.good = true) :
    (r.end order c).stream_.sent =
      c.stream_.sent ++ (stringHeader [] r.header_).toString order := by
  have hsent := (sendString_good order hgood [] r.header_).1
  rw [ite_self, List.append_nil] at hsent
  exact hsent

theorem toString_ne_nil (h : ResponseHeader) : h.toString order ≠ [] := by
  rw [toString_eq]
  simp

/-- **When `end` behind a send adds nothing.** For every sequence of builder calls and every
sending call behind it, the bytes on the connection are the same with and without an `end` if and
only if the stream takes nothing or the sending call throws. There the client sees no head at all.
Everywhere else it sees the one of the sending call, and behind it the one that `end` adds. -/
theorem end_adds_nothing_iff (order : IterationOrder Str Str) (files : Files)
    (calls : List BuilderCall) (last : BodyCall) (c : RestConnection) :
    ((last.thenEnd order files (build calls) c).stream_.sent =
        (last.run order files (build calls) c).2.1.stream_.sent ↔
      c.stream_.good = false ∨ last.Throws files) ∧
    (c.stream_.good = true → ¬ last.Throws files →
      (last.thenEnd order files (build calls) c).stream_.sent =
        (last.run order files (build calls) c).2.1.stream_.sent ++
          (stringHeader [] (last.run order files (build calls) c).1.header_).toString order) ∧
    (c.stream_.good = true → ¬ last.Throws files → ∃ (header : ResponseHeader) (body : Str),
      (last.run order files (build calls) c).2.1.stream_.sent =
        c.stream_.sent ++ (header.toString order ++ body)) ∧
    (c.stream_.good = false ∨ last.Throws files →
      (last.thenEnd order files (build calls) c).stream_.sent = c.stream_.sent) := by
  have hadds : c.stream_.good = true → ¬ last.Throws files →
      (last.thenEnd order files (build calls) c).stream_.sent =
        (last.run order files (build calls) c).2.1.stream_.sent ++
          (stringHeader [] (last.run order files (build calls) c).1.header_).toString order := by
    intro hgood hreturns
    rw [thenEnd_returns _ hreturns]
    exact end_sent _ (run_good _ hreturns hgood)
  refine ⟨⟨fun hsame => ?_, fun hcases => ?_⟩, hadds, fun hgood hreturns =>
    run_sent _ hreturns hgood, thenEnd_sent_nothing _⟩
  · by_contra hnone
    rw [not_or, Bool.not_eq_false] at hnone
    rw [hadds hnone.1 hnone.2] at hsame
    exact toString_ne_nil _ (List.append_right_eq_self.mp hsame)
  · by_cases hthrows : last.Throws files
    · rw [thenEnd_throws _ hthrows]
    · have hgood := hcases.resolve_right hthrows
      rw [thenEnd_returns _ hthrows]
      exact (sendString_not_good order (run_not_good _ last hgood).2 _ _).1

/-- A text that is sent and ended. -/
theorem send_end : ¬ ∀ (order : IterationOrder Str Str) (files : Files) (calls : List BuilderCall)
    (last : BodyCall) (c : RestConnection),
    (last.thenEnd order files (build calls) c).stream_.sent =
      (last.run order files (build calls) c).2.1.stream_.sent := by
  intro hall
  have hsame := hall IterationOrder.arbitrary (fun _ => none) [.status 200]
    (.send "hello".toList) (accepted 1 [])
  rw [thenEnd_returns _ id, end_sent _ (run_good _ id rfl)] at hsame
  exact toString_ne_nil _ (List.append_right_eq_self.mp hsame)

end BodyCall

end Rest
