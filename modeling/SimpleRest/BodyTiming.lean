import SimpleRest.BodyPrefix

/-!
# SimpleREST — how long a read can take

The timeout of `read` is that of a pass of its loop, and a full block is followed by another pass.
So it does not say how long a call may take:

- `pass_time`: a pass ends ten milliseconds behind the timeout at the latest, and what its
  operations take beyond that;
- `readLoop_time`: there is one pass for each full block that is delivered, and one more;
- `trickle`: a peer that sends a block at the last moment, each time;
- `read_time`: the bound for any number of calls, and the peer that makes a call last so long.
-/

namespace Rest.BodyRead

open Cpp Transition Reader

variable {arrivals : Arrivals} {timeout : Int} {δ : Nat}

/-! ## The bound -/

/-- No operation takes longer than `δ` beyond what it sleeps. -/
def Prompt (arrivals : Arrivals) (δ : Nat) : Prop := ∀ i, arrivals.lag i ≤ δ

/-- What a pass can take: the timeout, the last sleep, and eight operations. -/
def passTime (timeout : Int) (δ : Nat) : Nat := (nanoseconds timeout).toNat + 10000000 + 8 * δ

theorem after_time (hprompt : Prompt arrivals δ) (duration : Nat) (r : Reader) :
    (r.after arrivals duration).now ≤ r.now + duration + δ := by
  have hlag := hprompt r.operations
  show r.now + duration + arrivals.lag r.operations ≤ _
  omega

/-- The waiting loop begins a pass before the timeout is over, so it ends within the pass behind.
Induction on the fuel. -/
theorem waitLoop_time (hprompt : Prompt arrivals δ) (timeout : Int) (start : Nat) :
    ∀ (fuel : Nat) (r : Reader), r.now ≤ start + (nanoseconds timeout).toNat →
    (waitLoop arrivals timeout start fuel r).now ≤
      start + (nanoseconds timeout).toNat + 10000000 + 3 * δ := by
  intro fuel
  induction fuel with
  | zero =>
    intro r hr
    show r.now ≤ _
    omega
  | succ fuel ih =>
    intro r hr
    have hlook := after_time hprompt 0 r
    have hsleep := after_time hprompt 10000000 (r.getBodySize arrivals).1
    have hclock := after_time hprompt 0 ((r.getBodySize arrivals).1.sleep arrivals)
    unfold waitLoop
    by_cases hseen : (r.getBodySize arrivals).2 > 0
    · simp only [if_pos hseen]
      show (r.after arrivals 0).now ≤ _
      omega
    · simp only [if_neg hseen]
      generalize hslept : ((r.getBodySize arrivals).1.sleep arrivals).clock arrivals = slept
      have hnow : slept.2 = slept.1.now ∧ slept.1.now ≤ r.now + 10000000 + 3 * δ := by
        rw [← hslept]
        refine ⟨rfl, ?_⟩
        show (((r.getBodySize arrivals).1.sleep arrivals).after arrivals 0).now ≤ _
        have hlooked : (r.getBodySize arrivals).1.now = (r.after arrivals 0).now := rfl
        have hslept : ((r.getBodySize arrivals).1.sleep arrivals).now =
          ((r.getBodySize arrivals).1.after arrivals 10000000).now := rfl
        omega
      split
      · exact ih slept.1 (by omega)
      · omega

theorem lookOf_time (hprompt : Prompt arrivals δ) (timeout : Int) (r : Reader) :
    (lookOf arrivals timeout r).now ≤ r.now + (nanoseconds timeout).toNat + 10000000 + 7 * δ := by
  have hlook := after_time hprompt 0 r
  have hclock := after_time hprompt 0 (r.getBodySize arrivals).1
  have hfirst : (r.getBodySize arrivals).1.now = (r.after arrivals 0).now := rfl
  have hstart : (waiting arrivals r).now = ((r.getBodySize arrivals).1.after arrivals 0).now := rfl
  unfold lookOf sample
  by_cases hzero : min (r.getBodySize arrivals).2 4096 = 0
  · simp only [if_pos hzero]
    generalize hwait : waitLoop arrivals timeout (waiting arrivals r).now (waitFuel timeout)
      (waiting arrivals r) = r₂
    have hloop : waitLoop arrivals timeout ((r.getBodySize arrivals).1.clock arrivals).2
        (waitFuel timeout) ((r.getBodySize arrivals).1.clock arrivals).1 = r₂ := hwait
    rw [hloop]
    have hwaited := waitLoop_time hprompt timeout (waiting arrivals r).now (waitFuel timeout)
      (waiting arrivals r) (by omega)
    rw [hwait] at hwaited
    have hthird := after_time hprompt 0 r₂
    have hfourth := after_time hprompt 0 (r₂.getBodySize arrivals).1
    have hsame : (r₂.getBodySize arrivals).1.now = (r₂.after arrivals 0).now := rfl
    split
    · show (r₂.after arrivals 0).now ≤ _
      omega
    · show ((r₂.getBodySize arrivals).1.after arrivals 0).now ≤ _
      omega
  · simp only [if_neg hzero]
    show (r.after arrivals 0).now ≤ _
    omega

theorem behind_some {r : Reader} {amount : Nat}
    (hamount : (sample arrivals timeout r).2 = some amount) :
    (behind arrivals timeout r).consumed = (lookOf arrivals timeout r).consumed + amount ∧
      (behind arrivals timeout r).now = (lookOf arrivals timeout r).now +
        arrivals.lag (lookOf arrivals timeout r).operations := by
  unfold behind
  rw [hamount]
  exact ⟨rfl, rfl⟩

theorem pass_time (hprompt : Prompt arrivals δ) (timeout : Int) (r : Reader) :
    (behind arrivals timeout r).now ≤ r.now + passTime timeout δ := by
  have hlook := lookOf_time hprompt timeout r
  have hlag := hprompt (lookOf arrivals timeout r).operations
  unfold passTime
  cases hamount : (sample arrivals timeout r).2 with
  | none =>
    unfold behind
    rw [hamount]
    show (lookOf arrivals timeout r).now ≤ _
    omega
  | some amount =>
    rw [(behind_some hamount).2]
    omega

/-- **One pass for each full block, and one more.** Induction on the fuel. -/
theorem readLoop_time (hprompt : Prompt arrivals δ) (timeout : Int) :
    ∀ (fuel : Nat) (r : Reader) (out : Str), Sound arrivals r → ∃ blocks,
      r.consumed + 4096 * blocks ≤
        (readLoop arrivals timeout (fun out block => out ++ block) fuel r out).1.consumed ∧
      (readLoop arrivals timeout (fun out block => out ++ block) fuel r out).1.now ≤
        r.now + (blocks + 1) * passTime timeout δ := by
  intro fuel
  induction fuel with
  | zero => exact fun r out _ => ⟨0, Nat.le_refl _, Nat.le_add_right _ _⟩
  | succ fuel ih =>
    intro r out hr
    have hpass := pass_time hprompt timeout r
    have hconsumed := behind_consumed timeout hr
    rw [readLoop_succ]
    by_cases hfull : (sample arrivals timeout r).2 = some 4096
    · have hlength : (blockOf arrivals timeout r).length = 4096 := length_blockOf hr hfull
      obtain ⟨blocks, hblocks, htime⟩ := ih (behind arrivals timeout r)
        (out ++ blockOf arrivals timeout r) (behind_sound hr)
      rw [if_pos hfull]
      refine ⟨blocks + 1, by omega, ?_⟩
      rw [Nat.succ_mul (blocks + 1)]
      omega
    · rw [if_neg hfull]
      refine ⟨0, ?_, ?_⟩
      · show _ ≤ (behind arrivals timeout r).consumed
        omega
      · rw [Nat.zero_add, Nat.one_mul]
        exact hpass

/-- What one call can take. -/
theorem call_time (hprompt : Prompt arrivals δ) (call : Call) {r : Reader}
    (hr : Sound arrivals r) : (call.run arrivals r).1.now ≤
      r.now + ((call.delivered arrivals r).length / 4096 + 1) * passTime call.timeout δ := by
  have hcounted := (call_delivers call hr).2.counted
  obtain ⟨blocks, hblocks, htime⟩ := readLoop_time hprompt call.timeout
    (arrivals.body.length + 1) r call.stream hr
  rw [← run_eq] at hblocks htime
  have hle : blocks + 1 ≤ (call.delivered arrivals r).length / 4096 + 1 := by omega
  exact Nat.le_trans htime (Nat.add_le_add_left (Nat.mul_le_mul_right _ hle) _)

theorem passTime_mono {timeout' : Int} (h : timeout' ≤ timeout) (δ : Nat) :
    passTime timeout' δ ≤ passTime timeout δ := by
  unfold passTime nanoseconds
  omega

/-- The same for any number of calls. Induction on the calls, from any connection that is intact. -/
theorem foldl_time (hprompt : Prompt arrivals δ) : ∀ (calls : List Call) (s : Reading),
    Intact arrivals s → (∀ call ∈ calls, call.timeout ≤ timeout) →
    ∃ more, (calls.foldl (Reading.call arrivals) s).delivered = s.delivered ++ more ∧
      (calls.foldl (Reading.call arrivals) s).reader.now ≤
        s.reader.now + (more.length / 4096 + calls.length) * passTime timeout δ := by
  intro calls
  induction calls with
  | nil => exact fun s _ _ => ⟨[], (List.append_nil _).symm, Nat.le_add_right _ _⟩
  | cons call calls ih =>
    intro s hs hcalls
    obtain ⟨more, hmore, htime⟩ := ih (s.call arrivals call) (intact_call hs call)
      (fun next hnext => hcalls next (List.mem_cons_of_mem call hnext))
    have hfirst := call_time hprompt call hs.sound
    have hpass := passTime_mono (hcalls call List.mem_cons_self) δ
    refine ⟨call.delivered arrivals s.reader ++ more, ?_, ?_⟩
    · rw [List.foldl_cons, hmore, ← List.append_assoc]
      rfl
    · rw [List.foldl_cons, List.length_append, List.length_cons]
      generalize (call.delivered arrivals s.reader).length = first at hfirst ⊢
      generalize more.length = later at htime ⊢
      calc _ ≤ (call.run arrivals s.reader).1.now +
            (later / 4096 + calls.length) * passTime timeout δ := htime
        _ ≤ s.reader.now + (first / 4096 + 1) * passTime timeout δ +
            (later / 4096 + calls.length) * passTime timeout δ :=
          Nat.add_le_add_right
            (hfirst.trans (Nat.add_le_add_left (Nat.mul_le_mul_left _ hpass) _)) _
        _ = s.reader.now + (first / 4096 + 1 + (later / 4096 + calls.length)) *
            passTime timeout δ := by rw [Nat.add_assoc, ← Nat.add_mul]
        _ ≤ s.reader.now + ((first + later) / 4096 + (calls.length + 1)) * passTime timeout δ :=
          Nat.add_le_add_left (Nat.mul_le_mul_right _ (by omega)) _

/-! ## A peer that makes it last -/

/-- Blocks that come in one by one, each at the end of a timeout. No operation takes any time. -/
def trickle (blocks period : Nat) : Arrivals where
  body := List.replicate (4096 * blocks) 'x'
  received t := min (4096 * blocks) (4096 * (t / period))
  received_mono := by
    intro t t' htt'
    have hdiv : t / period ≤ t' / period := Nat.div_le_div_right htt'
    show min _ _ ≤ min _ _
    omega
  received_le := by
    intro t
    rw [List.length_replicate]
    exact Nat.min_le_left _ _
  visible t consumed := min (4096 * blocks) (4096 * (t / period)) - consumed
  visible_le := fun _ _ => Nat.le_refl _
  lag := fun _ => 0

theorem waitLoop_silent (hlag : ∀ i, arrivals.lag i = 0) {seconds : Nat} (start consumed : Nat)
    (hsilent : ∀ t, start ≤ t → t < start + seconds * 1000000000 →
      arrivals.visible t consumed = 0) : ∀ (fuel i : Nat) (r : Reader), r.consumed = consumed →
    r.now = start + i * 10000000 → i < seconds * 100 → seconds * 100 ≤ i + fuel →
    (waitLoop arrivals seconds start fuel r).consumed = consumed ∧
      (waitLoop arrivals seconds start fuel r).now = start + seconds * 1000000000 := by
  intro fuel
  induction fuel with
  | zero =>
    intro i r _ _ hi hfuel
    omega
  | succ fuel ih =>
    intro i r hconsumed hnow hi hfuel
    have hlook : (r.getBodySize arrivals).1.now = r.now := by
      show r.now + 0 + arrivals.lag _ = r.now
      rw [hlag]
      rfl
    have hnothing : ¬ (r.getBodySize arrivals).2 > 0 := by
      show ¬ arrivals.visible (r.getBodySize arrivals).1.now r.consumed > 0
      rw [hlook, hconsumed, hsilent _ (by omega) (by omega)]
      exact Nat.lt_irrefl 0
    unfold waitLoop
    simp only [if_neg hnothing]
    generalize hr : ((r.getBodySize arrivals).1.sleep arrivals).clock arrivals = slept
    have hslept : slept.1.consumed = consumed ∧ slept.2 = slept.1.now ∧
        slept.1.now = start + (i + 1) * 10000000 := by
      rw [← hr]
      refine ⟨hconsumed, rfl, ?_⟩
      show (r.getBodySize arrivals).1.now + 10000000 + arrivals.lag _ + 0 + arrivals.lag _ = _
      rw [hlook, hlag, hlag]
      omega
    unfold nanoseconds
    split
    · exact ih (i + 1) slept.1 hslept.1 hslept.2.2 (by omega) (by omega)
    · exact ⟨hslept.1, by omega⟩

/-- A pass that finds nothing for a whole timeout looks again at its end. -/
theorem sample_silent (hlag : ∀ i, arrivals.lag i = 0) {seconds : Nat} (hseconds : 0 < seconds)
    {r : Reader} (hsilent : ∀ t, r.now ≤ t → t < r.now + seconds * 1000000000 →
      arrivals.visible t r.consumed = 0) {size : Nat}
    (hsize : arrivals.visible (r.now + seconds * 1000000000) r.consumed = size) :
    (lookOf arrivals seconds r).consumed = r.consumed ∧
      (lookOf arrivals seconds r).now = r.now + seconds * 1000000000 ∧
      (sample arrivals seconds r).2 = if size = 0 then none else some (min size 4096) := by
  have hafter : ∀ r' : Reader, (r'.getBodySize arrivals).1.now = r'.now := by
    intro r'
    show r'.now + 0 + arrivals.lag _ = r'.now
    rw [hlag]
    rfl
  have hfirst : min (r.getBodySize arrivals).2 4096 = 0 := by
    show min (arrivals.visible (r.getBodySize arrivals).1.now r.consumed) 4096 = 0
    rw [hafter, hsilent r.now (Nat.le_refl _) (by omega)]
    rfl
  have hstart : (waiting arrivals r).now = r.now := by
    show (r.getBodySize arrivals).1.now + 0 + arrivals.lag _ = r.now
    rw [hlag, hafter]
    rfl
  have hwaited := waitLoop_silent hlag r.now r.consumed hsilent (waitFuel seconds) 0
    (waiting arrivals r) rfl (by omega) (by omega) (by unfold waitFuel; omega)
  generalize hwait : waitLoop arrivals seconds r.now (waitFuel seconds) (waiting arrivals r) = r₂
    at hwaited
  have hloop : waitLoop arrivals seconds ((r.getBodySize arrivals).1.clock arrivals).2
      (waitFuel seconds) ((r.getBodySize arrivals).1.clock arrivals).1 = r₂ := by
    rw [← hwait, ← hstart]
    rfl
  have hthird : (r₂.getBodySize arrivals).2 = size := by
    show arrivals.visible (r₂.getBodySize arrivals).1.now r₂.consumed = size
    rw [hafter, hwaited.1, hwaited.2, hsize]
  have hfourth : ((r₂.getBodySize arrivals).1.getBodySize arrivals).2 = size := by
    show arrivals.visible ((r₂.getBodySize arrivals).1.getBodySize arrivals).1.now r₂.consumed = size
    rw [hafter, hafter, hwaited.1, hwaited.2, hsize]
  unfold lookOf sample
  simp only [if_pos hfirst, hloop, hthird]
  by_cases hzero : size = 0
  · rw [if_pos hzero, if_pos hzero]
    exact ⟨hwaited.1, (hafter r₂).trans hwaited.2, rfl⟩
  · rw [if_neg hzero, if_neg hzero, hfourth]
    exact ⟨hwaited.1, (hafter _).trans ((hafter r₂).trans hwaited.2), rfl⟩

/-- **Every block of a trickle takes a whole timeout**, and so does the silence behind the last one.
Induction on the fuel. -/
theorem readLoop_trickle {seconds : Nat} (hseconds : 0 < seconds) (blocks : Nat) :
    ∀ (fuel k : Nat) (r : Reader) (out : Str), k ≤ blocks → blocks < k + fuel →
      r.consumed = 4096 * k → r.now = k * (seconds * 1000000000) →
      (readLoop (trickle blocks (seconds * 1000000000)) seconds (fun out block => out ++ block) fuel r
        out).1.consumed = 4096 * blocks ∧
      (readLoop (trickle blocks (seconds * 1000000000)) seconds (fun out block => out ++ block) fuel r
        out).1.now = (blocks + 1) * (seconds * 1000000000) := by
  intro fuel
  generalize hperiod : seconds * 1000000000 = period
  have hpositive : 0 < period := by omega
  induction fuel with
  | zero =>
    intro k r out hk hfuel
    omega
  | succ fuel ih =>
    intro k r out hk hfuel hconsumed hnow
    have hdiv : ∀ t, k * period ≤ t → t < k * period + period → t / period = k := by
      intro t hle hlt
      exact Nat.div_eq_of_lt_le hle (by rw [Nat.succ_mul]; exact hlt)
    have hsilent : ∀ t, r.now ≤ t → t < r.now + seconds * 1000000000 →
        (trickle blocks period).visible t r.consumed = 0 := by
      intro t hle hlt
      show min (4096 * blocks) (4096 * (t / period)) - r.consumed = 0
      rw [hdiv t (by omega) (by omega)]
      omega
    have hsize : (trickle blocks period).visible (r.now + seconds * 1000000000) r.consumed =
        min (4096 * blocks) (4096 * (k + 1)) - 4096 * k := by
      show min (4096 * blocks) (4096 * ((r.now + seconds * 1000000000) / period)) - r.consumed = _
      rw [hperiod, hnow, hconsumed, ← Nat.succ_mul, Nat.mul_div_cancel _ hpositive]
    obtain ⟨hlooked, htime, hsample⟩ := sample_silent (fun _ => rfl) hseconds hsilent hsize
    rw [readLoop_succ]
    by_cases hlast : k = blocks
    · rw [if_pos (by omega)] at hsample
      rw [if_neg (by rw [hsample]; nofun)]
      unfold behind
      rw [hsample]
      refine ⟨hlooked.trans (by rw [hconsumed, hlast]), htime.trans ?_⟩
      rw [hperiod, hnow, hlast, Nat.succ_mul]
    · have hfull : (sample (trickle blocks period) seconds r).2 = some 4096 := by
        rw [hsample, if_neg (by omega)]
        exact congrArg some (by omega)
      rw [if_pos hfull]
      obtain ⟨hconsumed', hnow'⟩ := behind_some hfull
      refine ih (k + 1) _ _ (by omega) (by omega) ?_ ?_
      · rw [hconsumed', hlooked, hconsumed]
        omega
      · rw [hnow', htime, hnow, hperiod, Nat.succ_mul]
        exact Nat.add_zero _

/-- **How long reading can take.** With calls whose timeouts are at most `timeout` seconds:

- however a body arrives, any number of calls take no longer than a pass for each call and one for
  each 4096 bytes that they deliver, where a pass has the timeout, ten milliseconds, and what eight
  operations take beyond their sleep;
- for every number of blocks, if the timeout is not zero, there is a peer that keeps up with it and
  makes one call that delivers its whole body last for a timeout for each block and one more, even if
  no operation takes any time. -/
theorem read_time (timeout : Nat) :
    (∀ (arrivals : Arrivals) (δ : Nat), Prompt arrivals δ → ∀ (start : Nat) (calls : List Call),
      (∀ call ∈ calls, call.timeout ≤ timeout) →
      (readings arrivals start calls).reader.now ≤
        start + ((readings arrivals start calls).delivered.length / 4096 + calls.length) *
          passTime timeout δ) ∧
    (0 < timeout → ∀ blocks, ∃ arrivals : Arrivals,
      Prompt arrivals 0 ∧ Exact arrivals ∧ KeepsUp arrivals timeout ∧
      arrivals.body.length = 4096 * blocks ∧
      (readString arrivals timeout ⟨0, 0, 0⟩).2 = arrivals.body ∧
      (readString arrivals timeout ⟨0, 0, 0⟩).1.now =
        (blocks + 1) * (nanoseconds timeout).toNat) := by
  refine ⟨fun arrivals δ hprompt start calls hcalls => ?_, fun htimeout blocks => ?_⟩
  · obtain ⟨more, hmore, htime⟩ := foldl_time hprompt calls { reader := ⟨start, 0, 0⟩ }
      ⟨rfl, rfl, Nat.zero_le _⟩ hcalls
    rw [← show (readings arrivals start calls).delivered = more from hmore] at htime
    exact htime
  · have hperiod : (nanoseconds timeout).toNat = timeout * 1000000000 := by
      unfold nanoseconds
      omega
    have hlength : (trickle blocks (timeout * 1000000000)).body.length = 4096 * blocks :=
      List.length_replicate
    obtain ⟨hconsumed, hnow⟩ := readLoop_trickle htimeout blocks (4096 * blocks + 1) 0 ⟨0, 0, 0⟩ []
      (Nat.zero_le _) (by omega) rfl (Nat.zero_mul _).symm
    refine ⟨trickle blocks (timeout * 1000000000), fun _ => Nat.le_refl _, fun _ _ => rfl, ?_,
      hlength, ?_, ?_⟩
    · intro t ht
      rw [hlength] at ht
      rw [hperiod]
      show min (4096 * blocks) (4096 * (t / (timeout * 1000000000))) <
        min (4096 * blocks) (4096 * ((t + timeout * 1000000000) / (timeout * 1000000000)))
      have hshort : min (4096 * blocks) (4096 * (t / (timeout * 1000000000))) < 4096 * blocks := ht
      rw [Nat.add_div_right _ (by omega)]
      omega
    · -- what has been consumed has been delivered, and that is the whole body
      have hsound : Sound (trickle blocks (timeout * 1000000000)) ⟨0, 0, 0⟩ := Nat.zero_le _
      have hnext := (call_delivers (.readString timeout) hsound).2.next
      have hnone : left (trickle blocks (timeout * 1000000000))
          ((Call.readString timeout).run (trickle blocks (timeout * 1000000000)) ⟨0, 0, 0⟩).1 =
            [] := by
        rw [run_eq, hlength]
        unfold left
        rw [Call.timeout, Call.stream, hconsumed, ← hlength, List.drop_length]
      rw [hnone, List.append_nil] at hnext
      exact hnext
    · rw [hperiod, ← hnow]
      unfold readString BodyRead.read
      rw [hlength]

/-- Two blocks can take nine seconds where the timeout is three. -/
theorem read_time_three : ∃ arrivals : Arrivals, arrivals.body.length = 8192 ∧
    (readString arrivals 3 ⟨0, 0, 0⟩).2 = arrivals.body ∧
    (readString arrivals 3 ⟨0, 0, 0⟩).1.now = 9000000000 := by
  have hpositive : 0 < 3 := by decide
  obtain ⟨arrivals, _, _, _, hlength, hbody, hnow⟩ := (read_time 3).2 hpositive 2
  exact ⟨arrivals, hlength, hbody, hnow⟩

end Rest.BodyRead
