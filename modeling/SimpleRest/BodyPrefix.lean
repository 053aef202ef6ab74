import SimpleRest.BodyReading

/-!
# SimpleREST — what calls deliver of a body

`readString` and `readStream` can end early, and then another call goes on. Nothing is assumed of
how the bytes come in: the stream may stall, and it may show fewer bytes than there are. Of the
stream it is only assumed that it never shows more, and that a read of as many bytes as have come
in takes the next ones.

- `readLoop_delivers`: one call takes the next bytes, block by block, and ends behind a short
  block or in silence;
- `intact_call`: so what has been delivered and what is still to be read make up the body;
- `calls_deliver`: after any number of calls.
-/

namespace Rest.BodyRead

open Cpp

variable {arrivals : Arrivals}

section Passes

variable {timeout : Int}

/-! ## One call -/

/-- The loop ends in this pass: behind a block that is not full, or in silence. -/
def Last (arrivals : Arrivals) (timeout : Int) (r : Reader) : Prop :=
  (∃ amount, (sample arrivals timeout r).2 = some amount ∧ amount < 4096) ∨
    (sample arrivals timeout r).2 = none ∧ (Steady arrivals → Silent arrivals timeout r)

/-- A reader has become `r'`, and `text` is what it has delivered on the way. -/
structure Delivered (arrivals : Arrivals) (timeout : Int) (r r' : Reader) (text : Str) : Prop where
  /-- the text is the next bytes, and the others are still to be read -/
  next : text ++ left arrivals r' = left arrivals r
  counted : r'.consumed = r.consumed + text.length
  sound : Sound arrivals r'
  /-- nothing in a block is older than the read -/
  filled : ∀ p, Passes arrivals timeout r p → Filled arrivals timeout p
  ended : ∃ p, Passes arrivals timeout r p ∧ Last arrivals timeout p ∧
    r' = behind arrivals timeout p

theorem last_of_not_full {r : Reader} (hr : Sound arrivals r)
    (hfull : (sample arrivals timeout r).2 ≠ some 4096) : Last arrivals timeout r := by
  rcases (sampled arrivals timeout r).outcome with hsome | hnone
  · have hamount := (filled_of_sound hr _ hsome).1
    refine Or.inl ⟨_, hsome, Nat.lt_of_le_of_ne hamount fun heq => hfull ?_⟩
    rw [hsome, heq]
  · exact Or.inr hnone

/-- The loop ends behind its first pass. -/
theorem delivered_last {r : Reader} (hr : Sound arrivals r)
    (hfull : (sample arrivals timeout r).2 ≠ some 4096) :
    Delivered arrivals timeout r (behind arrivals timeout r) (blockOf arrivals timeout r) := by
  have hstop := nextPass_eq arrivals timeout r
  rw [if_neg hfull] at hstop
  refine ⟨block_left arrivals timeout r, behind_consumed timeout hr, behind_sound hr,
    fun p hp => ?_, ⟨r, (passes_last hstop).mpr rfl, last_of_not_full hr hfull, rfl⟩⟩
  rw [(passes_last hstop).mp hp]
  exact filled_of_sound hr

/-- The loop goes on behind its first pass. -/
theorem Delivered.cons {r r' : Reader} {text : Str} (hr : Sound arrivals r)
    (hfull : (sample arrivals timeout r).2 = some 4096)
    (h : Delivered arrivals timeout (behind arrivals timeout r) r' text) :
    Delivered arrivals timeout r r' (blockOf arrivals timeout r ++ text) := by
  have hnext := nextPass_eq arrivals timeout r
  rw [if_pos hfull] at hnext
  refine ⟨?_, ?_, h.sound, fun p hp => ?_, ?_⟩
  · rw [List.append_assoc, h.next, block_left]
  · rw [h.counted, behind_consumed timeout hr, List.length_append, Nat.add_assoc]
  · rcases (passes_next hnext).mp hp with heq | hp
    · rw [heq]
      exact filled_of_sound hr
    · exact h.filled p hp
  · obtain ⟨p, hp, hlast, hr'⟩ := h.ended
    exact ⟨p, (passes_next hnext).mpr (Or.inr hp), hlast, hr'⟩

/-- **One call delivers the next bytes.** Induction on the fuel: a pass that goes on has taken a
full block, so there is less left than fuel. -/
theorem readLoop_delivers (timeout : Int) : ∀ (fuel : Nat) (r : Reader) (out : Str),
    Sound arrivals r → arrivals.body.length < r.consumed + fuel →
    ∃ text, (readLoop arrivals timeout (fun out block => out ++ block) fuel r out).2 = out ++ text ∧
      Delivered arrivals timeout r
        (readLoop arrivals timeout (fun out block => out ++ block) fuel r out).1 text := by
  intro fuel
  induction fuel with
  | zero =>
    intro r out hr hfuel
    have hle := arrivals.received_le r.now
    unfold Sound at hr
    omega
  | succ fuel ih =>
    intro r out hr hfuel
    rw [readLoop_succ]
    by_cases hfull : (sample arrivals timeout r).2 = some 4096
    · have hlength : (blockOf arrivals timeout r).length = 4096 := length_blockOf hr hfull
      have hconsumed := behind_consumed timeout hr
      obtain ⟨text, htext, hdelivered⟩ := ih (behind arrivals timeout r)
        (out ++ blockOf arrivals timeout r) (behind_sound hr) (by omega)
      rw [if_pos hfull]
      refine ⟨blockOf arrivals timeout r ++ text, ?_, hdelivered.cons hr hfull⟩
      rw [htext, List.append_assoc]
    · rw [if_neg hfull]
      exact ⟨_, rfl, delivered_last hr hfull⟩

end Passes

/-! ## Any number of calls -/

/-- A call that reads. `readStream` gets a stream that holds a text already. -/
inductive Call where
  | readString (timeout : Int)
  | readStream (timeout : Int) (stream : Str)

namespace Call

def timeout : Call → Int
  | readString timeout => timeout
  | readStream timeout _ => timeout

/-- What the call's result holds before anything has been read. -/
def stream : Call → Str
  | readString _ => []
  | readStream _ stream => stream

/-- The reader behind the call, and its result. -/
def run (arrivals : Arrivals) (r : Reader) : Call → Reader × Str
  | readString timeout => BodyRead.readString arrivals timeout r
  | readStream timeout stream => BodyRead.readStream arrivals timeout r stream

/-- What the call has added to its result. -/
def delivered (arrivals : Arrivals) (r : Reader) (call : Call) : Str :=
  (call.run arrivals r).2.drop call.stream.length

end Call

theorem run_eq (call : Call) (r : Reader) :
    call.run arrivals r = readLoop arrivals call.timeout (fun out block => out ++ block)
      (arrivals.body.length + 1) r call.stream := by
  cases call with
  | readString timeout => rfl
  | readStream timeout stream => rfl

/-- The result of a call is what was there, and what it delivers behind it. -/
theorem call_delivers (call : Call) {r : Reader} (hr : Sound arrivals r) :
    (call.run arrivals r).2 = call.stream ++ call.delivered arrivals r ∧
      Delivered arrivals call.timeout r (call.run arrivals r).1 (call.delivered arrivals r) := by
  obtain ⟨text, htext, hdelivered⟩ :=
    readLoop_delivers call.timeout (arrivals.body.length + 1) r call.stream hr (by omega)
  rw [← run_eq] at htext hdelivered
  have heq : call.delivered arrivals r = text := by
    unfold Call.delivered
    rw [htext, List.drop_left]
  rw [heq]
  exact ⟨htext, hdelivered⟩

/-- A connection whose body is read: the reader, and what its calls have delivered so far. -/
structure Reading where
  reader : Reader
  delivered : Str := []

/-- One more call. -/
def Reading.call (arrivals : Arrivals) (s : Reading) (call : Call) : Reading where
  reader := (call.run arrivals s.reader).1
  delivered := s.delivered ++ call.delivered arrivals s.reader

/-- What has been delivered is the beginning of the body, and the rest is still to be read. -/
structure Intact (arrivals : Arrivals) (s : Reading) : Prop where
  whole : s.delivered ++ left arrivals s.reader = arrivals.body
  counted : s.reader.consumed = s.delivered.length
  sound : Sound arrivals s.reader

theorem intact_call {s : Reading} (h : Intact arrivals s) (call : Call) :
    Intact arrivals (s.call arrivals call) := by
  have hdelivered := (call_delivers call h.sound).2
  refine ⟨?_, ?_, hdelivered.sound⟩
  · show (s.delivered ++ call.delivered arrivals s.reader) ++ _ = arrivals.body
    rw [List.append_assoc]
    exact (congrArg (s.delivered ++ ·) hdelivered.next).trans h.whole
  · show (call.run arrivals s.reader).1.consumed =
      (s.delivered ++ call.delivered arrivals s.reader).length
    rw [hdelivered.counted, h.counted, List.length_append]

/-- Induction on the calls, from any connection that is intact. -/
theorem intact_foldl : ∀ (calls : List Call) (s : Reading), Intact arrivals s →
    Intact arrivals (calls.foldl (Reading.call arrivals) s) := by
  intro calls
  induction calls with
  | nil =>
    intro s h
    exact h
  | cons call calls ih =>
    intro s h
    exact ih _ (intact_call h call)

/-- The connection after some calls. -/
def readings (arrivals : Arrivals) (start : Nat) (calls : List Call) : Reading :=
  calls.foldl (Reading.call arrivals) { reader := ⟨start, 0, 0⟩ }

/-- **Reading never corrupts a body.** However it comes in and however often it has been read
from, what the calls have delivered is a prefix of it and the rest is still to be read; and the
next call delivers the next bytes, in blocks that have been written over as a whole, and ends
behind a block that is not full or behind a timeout in silence. -/
theorem calls_deliver (arrivals : Arrivals) (start : Nat) (calls : List Call) :
    Intact arrivals (readings arrivals start calls) ∧
      ∀ call : Call,
        (call.run arrivals (readings arrivals start calls).reader).2 =
            call.stream ++ call.delivered arrivals (readings arrivals start calls).reader ∧
          Delivered arrivals call.timeout (readings arrivals start calls).reader
            (call.run arrivals (readings arrivals start calls).reader).1
            (call.delivered arrivals (readings arrivals start calls).reader) := by
  have hstart : Intact arrivals { reader := ⟨start, 0, 0⟩ } := ⟨rfl, rfl, Nat.zero_le _⟩
  have hintact := intact_foldl calls _ hstart
  exact ⟨hintact, fun call => call_delivers call hintact.sound⟩

/-- The body stalls for two seconds and the timeout is one. What has been delivered is the first
byte, the second one is still to be read, and the next call ends in silence. -/
theorem calls_deliver_stalled :
    (readings (apart 2000000000) 0 [.readString 1]).delivered = "a".toList ∧
      left (apart 2000000000) (readings (apart 2000000000) 0 [.readString 1]).reader = "b".toList ∧
      Silent (apart 2000000000) 1 (readings (apart 2000000000) 0 [.readString 1]).reader := by
  have hreader : (readings (apart 2000000000) 0 [.readString 1]).reader = ⟨0, 2, 1⟩ := by rfl
  have hdelivered : (readings (apart 2000000000) 0 [.readString 1]).delivered = "a".toList := by rfl
  obtain ⟨hintact, hcalls⟩ := calls_deliver (apart 2000000000) 0 [.readString 1]
  refine ⟨hdelivered, ?_, ?_⟩
  · have hwhole := hintact.whole
    rw [hdelivered] at hwhole
    exact List.append_cancel_left hwhole
  · obtain ⟨p, hp, hlast, _⟩ := (hcalls (.readString 1)).2.ended
    rw [hreader] at hp ⊢
    -- a hundred looks, and the byte is not there yet
    have hnothing : (sample (apart 2000000000) 1 ⟨0, 2, 1⟩).2 = none := by decide +kernel
    have hstop := nextPass_eq (apart 2000000000) 1 ⟨0, 2, 1⟩
    rw [hnothing, if_neg (by nofun)] at hstop
    rw [(passes_last hstop).mp hp] at hlast
    rcases hlast with ⟨amount, hsome, _⟩ | ⟨_, hsilent⟩
    · cases hnothing.symm.trans hsome
    · exact hsilent (apart_exact _).steady

end Rest.BodyRead
