import SimpleRest.Lib.Transition
import SimpleRest.Spec.BodyRead
import Mathlib.Data.List.TakeDrop

/-!
# SimpleREST — when a body is read as a whole

The reader takes what is there, at most 4096 bytes, and goes on only behind a full block.
Whatever the stream shows, `sampled` says what one pass comes to, and `block_left` that its block
is the beginning of what is left. Under `Exact` (the stream shows every byte that has been received
and not been read) and `KeepsUp` (while bytes are missing another one comes before the timeout is
over):

- `sample_eq`: a pass takes as many of the unread bytes as are there at its last look, up to
  4096; it takes none only when there is nothing left to wait for;
- `readLoop_whole_iff`: so the loop delivers the rest of the body exactly if each of its passes
  finds a full block or the whole rest;
- `always_settled_iff`: they do so whatever time the operations take, exactly if bytes are only
  received in blocks (`Blockwise`);
- `read_whole_iff`: the same for `readString` and `readStream`.
-/

namespace Rest.BodyRead

open Cpp Transition Reader

variable {arrivals : Arrivals} {timeout : Int}

/-! ## The assumptions -/

/-- The stream shows the bytes that have been received and not been read. -/
def Exact (arrivals : Arrivals) : Prop :=
  ∀ t consumed, arrivals.visible t consumed = arrivals.received t - consumed

/-- While bytes of the body are missing, at least one more arrives before the timeout is over. -/
def KeepsUp (arrivals : Arrivals) (timeout : Int) : Prop :=
  ∀ t, arrivals.received t < arrivals.body.length →
    arrivals.received t < arrivals.received (t + (nanoseconds timeout).toNat)

/-! ## The waiting loop -/

/-- A look takes no byte: it shows what the stream has at its time. -/
theorem getBodySize_look (arrivals : Arrivals) (r : Reader) :
    (r.getBodySize arrivals).2 = arrivals.visible (r.getBodySize arrivals).1.now r.consumed ∧
      (r.getBodySize arrivals).1.consumed = r.consumed ∧
      r.now ≤ (r.getBodySize arrivals).1.now := by
  refine ⟨rfl, rfl, ?_⟩
  show r.now ≤ r.now + 0 + _
  omega

/-- What the waiting loop leaves behind: no byte is taken, the clock has not gone back, and either
something has been seen or the clock has run into the timeout. -/
structure Waited (arrivals : Arrivals) (timeout : Int) (start : Nat) (r r' : Reader) : Prop where
  consumed : r'.consumed = r.consumed
  later : r.now ≤ r'.now
  reason : r'.consumed < arrivals.received r'.now ∨ nanoseconds timeout ≤ ((r'.now - start : Nat) : Int)

/-- One pass of the waiting loop that goes on takes ten milliseconds. Induction on the fuel: what
is left of it covers what is left of the timeout. -/
theorem waitLoop_waited (start : Nat) : ∀ (fuel : Nat) (r : Reader),
    start ≤ r.now → nanoseconds timeout ≤ ((r.now - start : Nat) : Int) + fuel * 10000000 →
    ∀ r', waitLoop arrivals timeout start fuel r = r' →
      Waited arrivals timeout start r r' ∧
        (arrivals.visible r'.now r'.consumed = 0 → nanoseconds timeout ≤ ((r'.now - start : Nat) : Int)) := by
  intro fuel
  induction fuel with
  | zero =>
    intro r _ hfuel r' hr'
    have hover : nanoseconds timeout ≤ ((r.now - start : Nat) : Int) := by simpa using hfuel
    rw [← hr']
    exact ⟨⟨rfl, Nat.le_refl _, Or.inr hover⟩, fun _ => hover⟩
  | succ fuel ih =>
    intro r hstart hfuel r' hr'
    obtain ⟨hsize, hconsumed, hlater⟩ := getBodySize_look arrivals r
    unfold waitLoop at hr'
    by_cases hseen : (r.getBodySize arrivals).2 > 0
    · -- `break`
      simp only [if_pos hseen] at hr'
      have hvisible := arrivals.visible_le (r.getBodySize arrivals).1.now r.consumed
      rw [← hr']
      refine ⟨⟨hconsumed, hlater, Or.inl ?_⟩, fun hnone => ?_⟩
      · omega
      · rw [hconsumed] at hnone
        omega
    · simp only [if_neg hseen] at hr'
      -- sleep, look at the clock, and go on if there is time left
      generalize hr : ((r.getBodySize arrivals).1.sleep arrivals).clock arrivals = slept at hr'
      have hslept : slept.1.consumed = r.consumed ∧ slept.2 = slept.1.now ∧
          r.now + 10000000 ≤ slept.1.now := by
        rw [← hr]
        refine ⟨rfl, rfl, ?_⟩
        show r.now + 10000000 ≤ r.now + 0 + _ + 10000000 + _ + 0 + _
        omega
      split at hr'
      · next hgo =>
        obtain ⟨hwaited, hnone⟩ := ih slept.1 (by omega) (by omega) r' hr'
        exact ⟨⟨hwaited.consumed.trans hslept.1, by have := hwaited.later; omega, hwaited.reason⟩,
          hnone⟩
      · next hstop =>
        have hover : nanoseconds timeout ≤ ((slept.1.now - start : Nat) : Int) := by omega
        rw [← hr']
        exact ⟨⟨hslept.1, by omega, Or.inr hover⟩, fun _ => hover⟩

/-- The reader when the waiting begins, behind a look that has shown nothing. -/
def waiting (arrivals : Arrivals) (r : Reader) : Reader :=
  ((r.getBodySize arrivals).1.clock arrivals).1

theorem waiting_look (arrivals : Arrivals) (r : Reader) :
    (waiting arrivals r).consumed = r.consumed ∧ r.now ≤ (waiting arrivals r).now := by
  refine ⟨rfl, ?_⟩
  show r.now ≤ r.now + 0 + _ + 0 + _
  omega

/-- The fuel is enough for the whole timeout. -/
theorem waiting_waited {r r' : Reader}
    (hr' : waitLoop arrivals timeout (waiting arrivals r).now (waitFuel timeout)
      (waiting arrivals r) = r') :
    Waited arrivals timeout (waiting arrivals r).now (waiting arrivals r) r' ∧
      (arrivals.visible r'.now r'.consumed = 0 →
        nanoseconds timeout ≤ ((r'.now - (waiting arrivals r).now : Nat) : Int)) := by
  refine waitLoop_waited _ _ _ (Nat.le_refl _) ?_ r' hr'
  unfold nanoseconds waitFuel
  omega

/-! ## One pass -/

/-- The reader at the last look of a pass, which fixes how much it takes. -/
def lookOf (arrivals : Arrivals) (timeout : Int) (r : Reader) : Reader :=
  (sample arrivals timeout r).1

/-- What a pass finds at its last look. -/
def found (arrivals : Arrivals) (timeout : Int) (r : Reader) : Nat :=
  arrivals.received (lookOf arrivals timeout r).now - r.consumed

/-- A reader has read no more than has been received. -/
def Sound (arrivals : Arrivals) (r : Reader) : Prop := r.consumed ≤ arrivals.received r.now

/-- What the stream shows stays there until it is read. -/
def Steady (arrivals : Arrivals) : Prop :=
  ∀ consumed, Monotone fun t => arrivals.visible t consumed

/-- The pass has waited for a whole timeout, and nothing was there all the time. -/
def Silent (arrivals : Arrivals) (timeout : Int) (r : Reader) : Prop :=
  ∃ t, r.now ≤ t ∧ t ≤ (lookOf arrivals timeout r).now ∧
    nanoseconds timeout ≤ (((lookOf arrivals timeout r).now - t : Nat) : Int) ∧
    ∀ t', t ≤ t' → t' ≤ (lookOf arrivals timeout r).now → arrivals.visible t' r.consumed = 0

/-- What a pass comes to: it takes what its last look shows, up to a full block. If it takes
nothing it has been silent, unless what the stream shows can go away again. -/
structure Sampled (arrivals : Arrivals) (timeout : Int) (r : Reader) : Prop where
  consumed : (lookOf arrivals timeout r).consumed = r.consumed
  later : r.now ≤ (lookOf arrivals timeout r).now
  outcome :
    (sample arrivals timeout r).2 =
        some (min (arrivals.visible (lookOf arrivals timeout r).now r.consumed) 4096) ∨
      (sample arrivals timeout r).2 = none ∧ (Steady arrivals → Silent arrivals timeout r)

/-- A steady stream that shows nothing now has not shown anything before. -/
theorem Steady.silent (hsteady : Steady arrivals) {r : Reader} {t : Nat} (hnow : r.now ≤ t)
    (hlook : t ≤ (lookOf arrivals timeout r).now)
    (hover : nanoseconds timeout ≤ (((lookOf arrivals timeout r).now - t : Nat) : Int))
    (hnothing : arrivals.visible (lookOf arrivals timeout r).now r.consumed = 0) :
    Silent arrivals timeout r := by
  refine ⟨t, hnow, hlook, hover, fun t' _ ht' => ?_⟩
  have h : arrivals.visible t' r.consumed ≤ arrivals.visible _ r.consumed := hsteady r.consumed ht'
  omega

theorem sampled (arrivals : Arrivals) (timeout : Int) (r : Reader) :
    Sampled arrivals timeout r := by
  generalize hlook : lookOf arrivals timeout r = look
  generalize houtcome : (sample arrivals timeout r).2 = outcome
  have hsample : sample arrivals timeout r = (look, outcome) := by
    rw [← hlook, ← houtcome]
    rfl
  suffices h : look.consumed = r.consumed ∧ r.now ≤ look.now ∧
      (outcome = some (min (arrivals.visible look.now r.consumed) 4096) ∨
        outcome = none ∧ (Steady arrivals → Silent arrivals timeout r)) by
    rw [← hlook, ← houtcome] at h
    exact ⟨h.1, h.2.1, h.2.2⟩
  unfold sample at hsample
  by_cases hzero : min (r.getBodySize arrivals).2 4096 = 0
  · -- nothing is there: the waiting loop, and the look behind it
    simp only [if_pos hzero] at hsample
    generalize hwait : waitLoop arrivals timeout (waiting arrivals r).now (waitFuel timeout)
      (waiting arrivals r) = r₂
    have hloop : waitLoop arrivals timeout ((r.getBodySize arrivals).1.clock arrivals).2
        (waitFuel timeout) ((r.getBodySize arrivals).1.clock arrivals).1 = r₂ := hwait
    rw [hloop] at hsample
    obtain ⟨hconsumed₁, hnow₁⟩ := waiting_look arrivals r
    obtain ⟨hwaited, hover⟩ := waiting_waited hwait
    have hconsumed₂ := hwaited.consumed
    have hnow₂ := hwaited.later
    obtain ⟨hsize₃, hconsumed₃, hnow₃⟩ := getBodySize_look arrivals r₂
    rw [hconsumed₂, hconsumed₁] at hsize₃ hconsumed₃ hover
    by_cases hnothing : (r₂.getBodySize arrivals).2 = 0
    · simp only [if_pos hnothing] at hsample
      obtain ⟨heq, hnone⟩ := Prod.mk.inj hsample
      rw [heq] at hsize₃ hconsumed₃ hnow₃
      refine ⟨hconsumed₃, by omega, Or.inr ⟨hnone.symm, fun hsteady => ?_⟩⟩
      have hbefore : arrivals.visible r₂.now r.consumed ≤ arrivals.visible look.now r.consumed :=
        hsteady r.consumed hnow₃
      have hover := hover (by omega)
      refine hsteady.silent hnow₁ ?_ ?_ ?_
      · rw [hlook]
        omega
      · rw [hlook]
        omega
      · rw [hlook]
        omega
    · simp only [if_neg hnothing] at hsample
      obtain ⟨hsize₄, hconsumed₄, hnow₄⟩ := getBodySize_look arrivals (r₂.getBodySize arrivals).1
      obtain ⟨heq, hsome⟩ := Prod.mk.inj hsample
      rw [heq] at hsize₄ hconsumed₄ hnow₄
      refine ⟨by omega, by omega, Or.inl ?_⟩
      rw [← hsome, hsize₄, hconsumed₃]
  · simp only [if_neg hzero] at hsample
    obtain ⟨hsize, hconsumed, hnow⟩ := getBodySize_look arrivals r
    obtain ⟨heq, hsome⟩ := Prod.mk.inj hsample
    rw [heq] at hsize hconsumed hnow
    refine ⟨hconsumed, hnow, Or.inl ?_⟩
    rw [← hsome, hsize]

/-- The block a pass delivers. -/
def blockOf (arrivals : Arrivals) (timeout : Int) (r : Reader) : Str :=
  match (sample arrivals timeout r).2 with
  | none => []
  | some amount => ((lookOf arrivals timeout r).take arrivals amount).2

/-- The reader behind a pass. -/
def behind (arrivals : Arrivals) (timeout : Int) (r : Reader) : Reader :=
  match (sample arrivals timeout r).2 with
  | none => lookOf arrivals timeout r
  | some amount => ((lookOf arrivals timeout r).take arrivals amount).1

/-- What is left of the body for a reader. -/
def left (arrivals : Arrivals) (r : Reader) : Str := arrivals.body.drop r.consumed

/-- What a pass takes has come in when it is fixed, so the whole block is written over. -/
def Filled (arrivals : Arrivals) (timeout : Int) (r : Reader) : Prop :=
  ∀ amount, (sample arrivals timeout r).2 = some amount →
    amount ≤ 4096 ∧ r.consumed + amount ≤ arrivals.received (lookOf arrivals timeout r).now ∧
      ((lookOf arrivals timeout r).take arrivals amount).2.length = amount

theorem filled_of_sound {r : Reader} (hr : Sound arrivals r) : Filled arrivals timeout r := by
  intro amount hamount
  have hsampled := sampled arrivals timeout r
  have hreceived := arrivals.received_mono hsampled.later
  have hbody := arrivals.received_le (lookOf arrivals timeout r).now
  have hvisible := arrivals.visible_le (lookOf arrivals timeout r).now r.consumed
  unfold Sound at hr
  rcases hsampled.outcome with hsome | ⟨hnone, _⟩
  · rw [hsome] at hamount
    have heq := Option.some.inj hamount
    have hblock : r.consumed + amount ≤ arrivals.received (lookOf arrivals timeout r).now := by
      omega
    refine ⟨by omega, hblock, ?_⟩
    show ((arrivals.body.drop (lookOf arrivals timeout r).consumed).take amount).length = amount
    rw [hsampled.consumed, List.length_take, List.length_drop]
    omega
  · rw [hnone] at hamount
    cases hamount

theorem length_blockOf {r : Reader} (hr : Sound arrivals r) {amount : Nat}
    (hamount : (sample arrivals timeout r).2 = some amount) :
    (blockOf arrivals timeout r).length = amount := by
  unfold blockOf
  rw [hamount]
  exact (filled_of_sound hr amount hamount).2.2

/-- A block that is taken is the beginning of what is left. -/
theorem block_left (arrivals : Arrivals) (timeout : Int) (r : Reader) :
    blockOf arrivals timeout r ++ left arrivals (behind arrivals timeout r) = left arrivals r := by
  have hconsumed := (sampled arrivals timeout r).consumed
  unfold blockOf behind left
  split
  · rw [hconsumed, List.nil_append]
  · next amount _ =>
    show (arrivals.body.drop (lookOf arrivals timeout r).consumed).take amount ++
      arrivals.body.drop ((lookOf arrivals timeout r).consumed + amount) = _
    rw [← List.drop_drop, List.take_append_drop, hconsumed]

theorem behind_consumed (timeout : Int) {r : Reader} (hr : Sound arrivals r) :
    (behind arrivals timeout r).consumed = r.consumed + (blockOf arrivals timeout r).length := by
  have hconsumed := (sampled arrivals timeout r).consumed
  cases hamount : (sample arrivals timeout r).2 with
  | none =>
    unfold blockOf behind
    rw [hamount]
    exact hconsumed
  | some amount =>
    rw [length_blockOf hr hamount, ← hconsumed]
    unfold behind
    rw [hamount]
    rfl

theorem behind_sound {r : Reader} (hr : Sound arrivals r) :
    Sound arrivals (behind arrivals timeout r) := by
  have hsampled := sampled arrivals timeout r
  have hreceived := arrivals.received_mono hsampled.later
  unfold Sound at hr
  unfold behind
  split
  · show (lookOf arrivals timeout r).consumed ≤ arrivals.received (lookOf arrivals timeout r).now
    rw [hsampled.consumed]
    omega
  · next amount hamount =>
    have hblock := (filled_of_sound hr amount hamount).2.1
    have hlater : (lookOf arrivals timeout r).now ≤
        ((lookOf arrivals timeout r).take arrivals amount).1.now := by
      show _ ≤ (lookOf arrivals timeout r).now + 0 + _
      omega
    have hmore := arrivals.received_mono hlater
    show (lookOf arrivals timeout r).consumed + amount ≤ _
    rw [hsampled.consumed]
    omega

/-! ## What a pass finds -/

theorem Exact.steady (hexact : Exact arrivals) : Steady arrivals := by
  intro consumed t t' htt'
  show arrivals.visible t consumed ≤ arrivals.visible t' consumed
  rw [hexact, hexact]
  have h := arrivals.received_mono htt'
  omega

/-- Where nothing has come in during a whole timeout, nothing is missing. -/
theorem all_received (hkeeps : KeepsUp arrivals timeout) {t t' : Nat}
    (hover : t + (nanoseconds timeout).toNat ≤ t') (hsame : arrivals.received t' ≤ arrivals.received t) :
    arrivals.received t = arrivals.body.length := by
  have hle := arrivals.received_le t
  by_contra hmissing
  have hmore := hkeeps t (by omega)
  have hlater := arrivals.received_mono hover
  omega

/-- **A pass takes what is there**, up to a full block. It takes nothing only behind the whole
body. -/
theorem sample_eq (hexact : Exact arrivals) (hkeeps : KeepsUp arrivals timeout) {r : Reader}
    (hr : Sound arrivals r) :
    (lookOf arrivals timeout r).consumed = r.consumed ∧ r.now ≤ (lookOf arrivals timeout r).now ∧
      ((sample arrivals timeout r).2 = some (min (found arrivals timeout r) 4096) ∨
        (sample arrivals timeout r).2 = none ∧ r.consumed = arrivals.body.length) := by
  have hsampled := sampled arrivals timeout r
  refine ⟨hsampled.consumed, hsampled.later, ?_⟩
  rcases hsampled.outcome with hsome | ⟨hnone, hsilent⟩
  · rw [hexact] at hsome
    exact Or.inl hsome
  · obtain ⟨t, hnow, hlook, hover, hnothing⟩ := hsilent hexact.steady
    have hfirst := hnothing t (Nat.le_refl t) hlook
    have hlast := hnothing _ hlook (Nat.le_refl _)
    rw [hexact] at hfirst hlast
    -- all that has been received when the silence begins has been read
    have hread : arrivals.received t = r.consumed := by
      have h := arrivals.received_mono hnow
      unfold Sound at hr
      omega
    have htimeout : t + (nanoseconds timeout).toNat ≤ (lookOf arrivals timeout r).now := by omega
    have hall := all_received hkeeps htimeout (by omega)
    exact Or.inr ⟨hnone, hread.symm.trans hall⟩

/-! ## All passes -/

/-- The reader at the next pass, if there is one: behind a full block. -/
def nextPass (arrivals : Arrivals) (timeout : Int) (r : Reader) (_ : Unit) : Option Reader :=
  match sample arrivals timeout r with
  | (_, none) => none
  | (r, some amount) => if amount = 4096 then some (r.take arrivals amount).1 else none

/-- `r'` is the reader at some pass of a loop that begins at `r`. -/
def Passes (arrivals : Arrivals) (timeout : Int) (r r' : Reader) : Prop :=
  Run (nextPass arrivals timeout) (fun _ _ => True) r r'

/-- The pass finds a full block, or the whole rest of the body. -/
def Settled (arrivals : Arrivals) (timeout : Int) (r : Reader) : Prop :=
  4096 ≤ found arrivals timeout r ∨
    arrivals.received (lookOf arrivals timeout r).now = arrivals.body.length

/-- A pass is settled if it takes a full block, or leaves nothing to be read. -/
theorem settled_iff (hexact : Exact arrivals) (hkeeps : KeepsUp arrivals timeout) {r : Reader}
    (hr : Sound arrivals r) :
    Settled arrivals timeout r ↔ (sample arrivals timeout r).2 = some 4096 ∨
      left arrivals (behind arrivals timeout r) = [] := by
  obtain ⟨hconsumed, hlater, hsample⟩ := sample_eq hexact hkeeps hr
  have hreceived := arrivals.received_mono hlater
  have hle := arrivals.received_le (lookOf arrivals timeout r).now
  have hbehind := behind_consumed timeout hr
  unfold Sound at hr
  unfold Settled left
  rw [List.drop_eq_nil_iff]
  rcases hsample with hsome | ⟨hnone, hall⟩
  · have hlength : (blockOf arrivals timeout r).length = min (found arrivals timeout r) 4096 :=
      length_blockOf hr hsome
    rw [hsome, Option.some.injEq, hbehind, hlength]
    unfold found
    omega
  · have hlength : (blockOf arrivals timeout r).length = 0 := by
      unfold blockOf
      rw [hnone]
      rfl
    rw [hnone, hbehind, hlength]
    refine iff_of_true (Or.inr ?_) (Or.inr ?_)
    · omega
    · omega

/-- A pass behind which the loop ends is the only one. -/
theorem passes_last {r r' : Reader} (h : nextPass arrivals timeout r () = none) :
    Passes arrivals timeout r r' ↔ r' = r := by
  apply run_of_stuck
  intro v hv
  obtain ⟨_, _, hnext⟩ := hv
  rw [h] at hnext
  exact absurd hnext (by simp)

theorem passes_next {r r' next : Reader} (h : nextPass arrivals timeout r () = some next) :
    Passes arrivals timeout r r' ↔ r' = r ∨ Passes arrivals timeout next r' := by
  apply run_of_next
  intro v
  refine ⟨fun hv => ?_, fun hv => ⟨(), trivial, by rw [h, hv]⟩⟩
  obtain ⟨_, _, hnext⟩ := hv
  rw [h] at hnext
  exact (Option.some.inj hnext).symm

theorem nextPass_eq (arrivals : Arrivals) (timeout : Int) (r : Reader) :
    nextPass arrivals timeout r () =
      if (sample arrivals timeout r).2 = some 4096 then some (behind arrivals timeout r)
      else none := by
  unfold nextPass behind lookOf
  split
  · next h => rw [h, if_neg (by nofun)]
  · next h =>
    rw [h]
    simp only [Option.some.injEq]

/-- One turn of the loop, where the writer appends the block. -/
theorem readLoop_succ (arrivals : Arrivals) (timeout : Int) (fuel : Nat) (r : Reader) (out : Str) :
    readLoop arrivals timeout (fun out block => out ++ block) (fuel + 1) r out =
      if (sample arrivals timeout r).2 = some 4096 then
        readLoop arrivals timeout (fun out block => out ++ block) fuel
          (behind arrivals timeout r) (out ++ blockOf arrivals timeout r)
      else (behind arrivals timeout r, out ++ blockOf arrivals timeout r) := by
  unfold behind blockOf lookOf
  rw [readLoop]
  split
  · next h => rw [h, if_neg (by nofun), List.append_nil]
  · next h =>
    rw [h]
    simp only [Option.some.injEq]

/-- **The loop delivers the rest of the body exactly if all its passes are settled.** Induction on
the fuel: a pass that goes on leaves a sound reader and 4096 bytes less. -/
theorem readLoop_whole_iff (hexact : Exact arrivals) (hkeeps : KeepsUp arrivals timeout) :
    ∀ (fuel : Nat) (r : Reader) (out : Str), Sound arrivals r →
      arrivals.body.length < r.consumed + fuel →
      ((readLoop arrivals timeout (fun out block => out ++ block) fuel r out).2 =
          out ++ left arrivals r ↔
        ∀ r', Passes arrivals timeout r r' → Settled arrivals timeout r') := by
  intro fuel
  induction fuel with
  | zero =>
    intro r out hr hfuel
    have hle := arrivals.received_le r.now
    unfold Sound at hr
    omega
  | succ fuel ih =>
    intro r out hr hfuel
    have hnext := nextPass_eq arrivals timeout r
    have hconsumed := behind_consumed timeout hr
    rw [readLoop_succ, ← block_left arrivals timeout r]
    by_cases hfull : (sample arrivals timeout r).2 = some 4096
    · -- a full block: the rest is the next pass's business
      rw [if_pos hfull] at hnext ⊢
      have hlength : (blockOf arrivals timeout r).length = 4096 := length_blockOf hr hfull
      have hsettled : Settled arrivals timeout r :=
        (settled_iff hexact hkeeps hr).mpr (Or.inl hfull)
      rw [← List.append_assoc, ih _ _ (behind_sound hr) (by omega)]
      refine ⟨fun h r' hr' => ?_, fun h r' hr' => h r' ((passes_next hnext).mpr (Or.inr hr'))⟩
      rcases (passes_next hnext).mp hr' with heq | hr'
      · rw [heq]
        exact hsettled
      · exact h r' hr'
    · -- the loop ends behind this pass
      rw [if_neg hfull] at hnext ⊢
      have hwhole : left arrivals (behind arrivals timeout r) = [] ↔ Settled arrivals timeout r := by
        rw [settled_iff hexact hkeeps hr]
        exact (or_iff_right hfull).symm
      rw [List.append_cancel_left_eq, eq_comm, List.append_right_eq_self, hwhole]
      refine ⟨fun h r' hr' => ?_, fun h => h r ((passes_last hnext).mpr rfl)⟩
      rw [(passes_last hnext).mp hr']
      exact h

/-! ## For all times that the operations take -/

/-- The same body, where the operations of the reader take other times. -/
def withLag (arrivals : Arrivals) (lag : Nat → Nat) : Arrivals := { arrivals with lag }

theorem Exact.withLag (hexact : Exact arrivals) (lag : Nat → Nat) : Exact (withLag arrivals lag) :=
  hexact

theorem KeepsUp.withLag (hkeeps : KeepsUp arrivals timeout) (lag : Nat → Nat) :
    KeepsUp (withLag arrivals lag) timeout := hkeeps

/-- From here on, what has been received is a number of full blocks, or the whole body. -/
def Blockwise (arrivals : Arrivals) (start : Nat) : Prop :=
  ∀ t, start ≤ t → 4096 ∣ arrivals.received t ∨ arrivals.received t = arrivals.body.length

/-- What is there at the first look is taken. -/
theorem sample_first {r : Reader} (hseen : 0 < (r.getBodySize arrivals).2) :
    sample arrivals timeout r =
      ((r.getBodySize arrivals).1, some (min (r.getBodySize arrivals).2 4096)) := by
  have hamount : ¬ min (r.getBodySize arrivals).2 4096 = 0 := by omega
  unfold sample
  simp only [if_neg hamount]

/-- What has been seen does not go away before it is taken. -/
theorem sample_pos (hsteady : Steady arrivals) {r : Reader} {amount : Nat}
    (hamount : (sample arrivals timeout r).2 = some amount) : 0 < amount := by
  by_cases hseen : 0 < (r.getBodySize arrivals).2
  · rw [sample_first hseen] at hamount
    have heq := Option.some.inj hamount
    omega
  · have hzero : min (r.getBodySize arrivals).2 4096 = 0 := by omega
    unfold sample at hamount
    simp only [if_pos hzero] at hamount
    generalize waitLoop arrivals timeout _ _ _ = r₂ at hamount
    by_cases hnothing : (r₂.getBodySize arrivals).2 = 0
    · simp only [if_pos hnothing] at hamount
      cases hamount
    · simp only [if_neg hnothing] at hamount
      obtain ⟨hsize, hconsumed, _⟩ := getBodySize_look arrivals r₂
      obtain ⟨hsize', _, hlater⟩ := getBodySize_look arrivals (r₂.getBodySize arrivals).1
      rw [hconsumed] at hsize'
      have hstays : arrivals.visible (r₂.getBodySize arrivals).1.now r₂.consumed ≤
          arrivals.visible _ r₂.consumed := hsteady r₂.consumed hlater
      have heq := Option.some.inj hamount
      omega

/-- Where bytes are only received in blocks, a reader that has taken blocks finds one. -/
theorem settled_of_blockwise (hexact : Exact arrivals) (hkeeps : KeepsUp arrivals timeout)
    {start : Nat} (hblocks : Blockwise arrivals start) {r : Reader} (hr : Sound arrivals r)
    (hstart : start ≤ r.now) (hconsumed : 4096 ∣ r.consumed) : Settled arrivals timeout r := by
  obtain ⟨_, hlater, hsample⟩ := sample_eq hexact hkeeps hr
  have hreceived := arrivals.received_mono hlater
  have hle := arrivals.received_le (lookOf arrivals timeout r).now
  unfold Sound at hr
  rcases hblocks _ (hstart.trans hlater) with hdvd | hwhole
  · rcases hsample with hsome | ⟨_, hall⟩
    · have hpos := sample_pos hexact.steady hsome
      refine Or.inl ?_
      unfold found at hpos ⊢
      obtain ⟨received, hdvd⟩ := hdvd
      obtain ⟨consumed, hconsumed⟩ := hconsumed
      omega
    · exact Or.inr (by omega)
  · exact Or.inr hwhole

/-- So does every pass of the loop. -/
theorem passes_settled (hexact : Exact arrivals) (hkeeps : KeepsUp arrivals timeout) {start : Nat}
    (hblocks : Blockwise arrivals start) {r : Reader}
    (hr : Passes arrivals timeout ⟨start, 0, 0⟩ r) : Settled arrivals timeout r := by
  have hinvariant : Sound arrivals r ∧ start ≤ r.now ∧ 4096 ∣ r.consumed := by
    refine Run.invariant (I := fun r => Sound arrivals r ∧ start ≤ r.now ∧ 4096 ∣ r.consumed)
      ⟨Nat.zero_le _, Nat.le_refl _, Nat.dvd_zero _⟩ (fun v _ w hv _ hnext => ?_) hr
    rw [nextPass_eq] at hnext
    split at hnext
    · next hfull =>
      rw [← Option.some.inj hnext]
      have hlength : (blockOf arrivals timeout v).length = 4096 := length_blockOf hv.1 hfull
      refine ⟨behind_sound hv.1, ?_, ?_⟩
      · have hlater := (sampled arrivals timeout v).later
        unfold behind
        rw [hfull]
        show start ≤ (lookOf arrivals timeout v).now + 0 + _
        omega
      · rw [behind_consumed timeout hv.1, hlength]
        exact Nat.dvd_add hv.2.2 (Nat.dvd_refl _)
    · cases hnext
  exact settled_of_blockwise hexact hkeeps hblocks hinvariant.1 hinvariant.2.1 hinvariant.2.2

/-- The first look of a call comes late, and no other operation takes any time. -/
def late (pause : Nat) (operation : Nat) : Nat := if operation = 0 then pause else 0

/-- **A call whose looks all come at a time when a block is broken off** has a pass that is not
settled: the one behind the full blocks. Induction on these. -/
theorem exists_unsettled (hexact : Exact arrivals) (timeout : Int) {t rest : Nat}
    (hrest : 0 < rest ∧ rest < 4096) (hmissing : arrivals.received t ≠ arrivals.body.length) :
    ∀ (blocks : Nat) (r : Reader), r.now + arrivals.lag r.operations = t →
      (∀ i, r.operations < i → arrivals.lag i = 0) →
      arrivals.received t = r.consumed + 4096 * blocks + rest →
      ∃ r', Passes arrivals timeout r r' ∧ ¬ Settled arrivals timeout r' := by
  intro blocks
  induction blocks with
  | zero =>
    intro r hnow hlag hreceived
    have hsize : (r.getBodySize arrivals).2 = arrivals.received t - r.consumed := by
      rw [← hnow]
      exact hexact _ _
    have hlook : lookOf arrivals timeout r = (r.getBodySize arrivals).1 := by
      unfold lookOf
      rw [sample_first (by omega)]
    refine ⟨r, Relation.ReflTransGen.refl, ?_⟩
    unfold Settled found
    rw [hlook, show (r.getBodySize arrivals).1.now = t from hnow]
    omega
  | succ blocks ih =>
    intro r hnow hlag hreceived
    have hsize : (r.getBodySize arrivals).2 = arrivals.received t - r.consumed := by
      rw [← hnow]
      exact hexact _ _
    have hnext : nextPass arrivals timeout r () =
        some ((r.getBodySize arrivals).1.take arrivals 4096).1 := by
      unfold nextPass
      rw [sample_first (by omega), show min (r.getBodySize arrivals).2 4096 = 4096 by omega]
      rfl
    -- the block is taken at the same time, and so is the next look
    have hnow' : ((r.getBodySize arrivals).1.take arrivals 4096).1.now +
        arrivals.lag (r.operations + 1 + 1) = t := by
      show r.now + 0 + arrivals.lag r.operations + 0 + arrivals.lag (r.operations + 1) +
        arrivals.lag (r.operations + 1 + 1) = t
      rw [hlag (r.operations + 1) (by omega), hlag (r.operations + 1 + 1) (by omega)]
      exact hnow
    have hreceived' : arrivals.received t = r.consumed + 4096 + 4096 * blocks + rest := by omega
    obtain ⟨r', hr', hunsettled⟩ := ih ((r.getBodySize arrivals).1.take arrivals 4096).1 hnow'
      (fun i hi => hlag i (Nat.lt_of_succ_lt (Nat.lt_of_succ_lt hi))) hreceived'
    exact ⟨r', (passes_next hnext).mpr (Or.inr hr'), hunsettled⟩

/-- **All passes are settled, whatever time the operations take, exactly if bytes are only received
in blocks.** -/
theorem always_settled_iff (hexact : Exact arrivals) (hkeeps : KeepsUp arrivals timeout)
    (start : Nat) :
    (∀ lag r, Passes (withLag arrivals lag) timeout ⟨start, 0, 0⟩ r →
        Settled (withLag arrivals lag) timeout r) ↔
      Blockwise arrivals start := by
  refine ⟨fun hsettled t ht => ?_, fun hblocks lag r hr => ?_⟩
  · by_contra hbroken
    rw [not_or] at hbroken
    have hrest : 0 < arrivals.received t % 4096 ∧ arrivals.received t % 4096 < 4096 :=
      ⟨Nat.pos_of_ne_zero fun hzero => hbroken.1 (Nat.dvd_of_mod_eq_zero hzero),
        Nat.mod_lt _ (by decide)⟩
    have hparts : arrivals.received t =
        0 + 4096 * (arrivals.received t / 4096) + arrivals.received t % 4096 := by omega
    obtain ⟨r, hr, hunsettled⟩ := exists_unsettled (hexact.withLag (late (t - start))) timeout hrest
      hbroken.2 (arrivals.received t / 4096) ⟨start, 0, 0⟩ (Nat.add_sub_of_le ht)
      (fun i hi => if_neg (Nat.ne_of_gt hi)) hparts
    exact hunsettled (hsettled _ r hr)
  · exact passes_settled (hexact.withLag lag) (hkeeps.withLag lag) hblocks hr

/-- **When a body is read as a whole.** For every body and every way it arrives, `readString`
returns all of it, and `readStream` appends all of it:

- exactly if every pass of the loop finds a full block of 4096 unread bytes or the whole rest of the
  body at the look that fixes how much it takes;
- and for all times the operations of the reader may take, exactly if from the beginning of the call
  on the number of bytes that have been received is always a multiple of 4096 or the whole body. -/
theorem read_whole_iff (arrivals : Arrivals) (timeout : Int) (hexact : Exact arrivals)
    (hkeeps : KeepsUp arrivals timeout) (start : Nat) (stream : Str) :
    ((readString arrivals timeout ⟨start, 0, 0⟩).2 = arrivals.body ↔
      ∀ r, Passes arrivals timeout ⟨start, 0, 0⟩ r → Settled arrivals timeout r) ∧
    ((readStream arrivals timeout ⟨start, 0, 0⟩ stream).2 = stream ++ arrivals.body ↔
      ∀ r, Passes arrivals timeout ⟨start, 0, 0⟩ r → Settled arrivals timeout r) ∧
    ((∀ lag, (readString (withLag arrivals lag) timeout ⟨start, 0, 0⟩).2 = arrivals.body) ↔
      Blockwise arrivals start) ∧
    ((∀ lag, (readStream (withLag arrivals lag) timeout ⟨start, 0, 0⟩ stream).2 =
        stream ++ arrivals.body) ↔
      Blockwise arrivals start) := by
  have hloop : ∀ (lag : Nat → Nat) (out : Str),
      (readLoop (withLag arrivals lag) timeout (fun out block => out ++ block)
          (arrivals.body.length + 1) ⟨start, 0, 0⟩ out).2 = out ++ arrivals.body ↔
        ∀ r, Passes (withLag arrivals lag) timeout ⟨start, 0, 0⟩ r →
          Settled (withLag arrivals lag) timeout r := by
    intro lag out
    have hfuel : arrivals.body.length < 0 + (arrivals.body.length + 1) := by omega
    exact readLoop_whole_iff (hexact.withLag lag) (hkeeps.withLag lag) _ ⟨start, 0, 0⟩ out
      (Nat.zero_le _) hfuel
  have halways := always_settled_iff hexact hkeeps start
  refine ⟨hloop arrivals.lag [], hloop arrivals.lag stream, ?_, ?_⟩
  · rw [← halways]
    exact forall_congr' fun lag => hloop lag []
  · rw [← halways]
    exact forall_congr' fun lag => hloop lag stream

/-- Two bytes, the second one this many nanoseconds behind the first. -/
def apart (gap : Nat) : Arrivals where
  body := "ab".toList
  received t := if t < gap then 1 else 2
  received_mono := by
    intro t t' htt'
    show (if t < gap then 1 else 2) ≤ if t' < gap then 1 else 2
    split <;> split <;> omega
  received_le := by
    intro t
    show (if t < gap then 1 else 2) ≤ 2
    split <;> omega
  visible t consumed := (if t < gap then 1 else 2) - consumed
  visible_le := fun _ _ => Nat.le_refl _
  lag := fun _ => 0

theorem apart_exact (gap : Nat) : Exact (apart gap) := fun _ _ => rfl

/-- The second byte comes a second behind the first. -/
def twoBytes : Arrivals := apart 1000000000

theorem twoBytes_exact : Exact twoBytes := apart_exact _

theorem twoBytes_keepsUp : KeepsUp twoBytes 3 := by
  have hreceived : ∀ t, twoBytes.received t = if t < 1000000000 then 1 else 2 := fun _ => rfl
  have hbody : twoBytes.body.length = 2 := rfl
  intro t ht
  rw [hbody, hreceived] at ht
  rw [show (nanoseconds 3).toNat = 3000000000 from by decide, hreceived, hreceived]
  split at ht
  · next h => rw [if_pos h, if_neg (by omega)]; omega
  · omega

/-- A call that begins when both bytes are there returns both. -/
theorem read_whole_late : (readString twoBytes 3 ⟨1000000000, 0, 0⟩).2 = "ab".toList := by
  refine (read_whole_iff twoBytes 3 twoBytes_exact twoBytes_keepsUp 1000000000 []).1.mpr ?_
  have hlast : nextPass twoBytes 3 ⟨1000000000, 0, 0⟩ () = none := by rfl
  intro r hr
  rw [(passes_last hlast).mp hr]
  exact Or.inr rfl

/-- A call that begins when only the first one is there returns the first one, although the other
comes in time. -/
theorem read_whole_early : Exact twoBytes ∧ KeepsUp twoBytes 3 ∧
    (readString twoBytes 3 ⟨0, 0, 0⟩).2 ≠ twoBytes.body := by
  refine ⟨twoBytes_exact, twoBytes_keepsUp, ?_⟩
  have hread : (readString twoBytes 3 ⟨0, 0, 0⟩).2 = "a".toList := by rfl
  rw [hread]
  decide

end Rest.BodyRead
