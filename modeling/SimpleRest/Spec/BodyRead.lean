import SimpleRest.Cpp.Text
import Mathlib.Order.Monotone.Defs

/-!
# SimpleREST — reading the body (`connection.cpp`)

`read` decides from the number of bytes that happen to be there whether to wait, to go on or to
stop, so time is part of the model. `Arrivals` is what one body and one run of the clock do to a
reader: how much has been received at every moment, how much of that the stream shows, and how
long each operation takes beyond what it sleeps. Times are in nanoseconds.
-/

namespace Rest.BodyRead

open Cpp

/-- The body of a request, and how it comes in. -/
structure Arrivals where
  body : Str
  received : Nat → Nat
  received_mono : Monotone received
  received_le : ∀ t, received t ≤ body.length
  /-- `available() + in_avail()` at a time, when so many bytes have been read -/
  visible : Nat → Nat → Nat
  visible_le : ∀ t consumed, visible t consumed ≤ received t - consumed
  /-- what the operations take, in their order -/
  lag : Nat → Nat

/-- A thread that reads: its clock, the operations it has done and the bytes it has read. -/
structure Reader where
  now : Nat
  operations : Nat := 0
  consumed : Nat := 0

namespace Reader

/-- The reader behind an operation that takes at least `duration`. -/
def after (arrivals : Arrivals) (duration : Nat) (r : Reader) : Reader :=
  { r with
    now := r.now + duration + arrivals.lag r.operations
    operations := r.operations + 1 }

def getBodySize (arrivals : Arrivals) (r : Reader) : Reader × Nat :=
  let r := r.after arrivals 0
  (r, arrivals.visible r.now r.consumed)

/-- `high_resolution_clock::now()` -/
def clock (arrivals : Arrivals) (r : Reader) : Reader × Nat :=
  let r := r.after arrivals 0
  (r, r.now)

/-- `sleep_for(milliseconds(10))` -/
def sleep (arrivals : Arrivals) (r : Reader) : Reader := r.after arrivals 10000000

/-- `stream_.read(buffer, amount)`: the block, and the reader behind it. -/
def take (arrivals : Arrivals) (r : Reader) (amount : Nat) : Reader × Str :=
  let block := (arrivals.body.drop r.consumed).take amount
  ({ r.after arrivals 0 with consumed := r.consumed + amount }, block)

end Reader

open Reader

/-- A `duration <long>` counts seconds, and is compared with a duration in nanoseconds. The product
is exact here. In a `long` it would overflow for a timeout of more than 292 years. -/
def nanoseconds (timeout : Int) : Int := timeout * 1000000000

/-- The inner loop. Every pass sleeps for ten milliseconds, so it has run into the timeout after
a hundred passes for each second. -/
def waitLoop (arrivals : Arrivals) (timeout : Int) (start : Nat) : Nat → Reader → Reader
  | 0, r => r
  | fuel + 1, r =>
    let (r, size) := r.getBodySize arrivals
    if size > 0 then r
    else
      -- the clock is looked at behind the sleep, so one pass is made in any case
      let r := r.sleep arrivals
      let (r, now) := r.clock arrivals
      if ((now - start : Nat) : Int) < nanoseconds timeout then
        waitLoop arrivals timeout start fuel r
      else r

def waitFuel (timeout : Int) : Nat := timeout.toNat * 100 + 1

/-- How much the next block will have: the upper half of a pass. `none` is the `break`. -/
def sample (arrivals : Arrivals) (timeout : Int) (r : Reader) : Reader × Option Nat :=
  let (r, size) := r.getBodySize arrivals
  let amount := min size 4096
  if amount = 0 then
    let (r, now) := r.clock arrivals
    let r := waitLoop arrivals timeout now (waitFuel timeout) r
    -- two more looks: one for the `break`, one for the amount
    let (r, size) := r.getBodySize arrivals
    if size = 0 then (r, none)
    else
      let (r, size) := r.getBodySize arrivals
      (r, some (min size 4096))
  else (r, some amount)

/-- The outer loop. A pass that is followed by another one has taken 4096 bytes, so there are
fewer passes than bytes, and one. -/
def readLoop {σ : Type} (arrivals : Arrivals) (timeout : Int) (writer : σ → Str → σ) :
    Nat → Reader → σ → Reader × σ
  | 0, r, out => (r, out)
  | fuel + 1, r, out =>
    match sample arrivals timeout r with
    | (r, none) => (r, out)
    | (r, some amount) =>
      let (r, block) := r.take arrivals amount
      let out := writer out block
      -- a shorter block ends the loop, whatever is still to come
      if amount = 4096 then readLoop arrivals timeout writer fuel r out else (r, out)

def read {σ : Type} (arrivals : Arrivals) (timeout : Int) (writer : σ → Str → σ) (r : Reader)
    (out : σ) : Reader × σ :=
  readLoop arrivals timeout writer (arrivals.body.length + 1) r out

/-- `result.append(buffer, amount)` on an empty string. -/
def readString (arrivals : Arrivals) (timeout : Int) (r : Reader) : Reader × Str :=
  read arrivals timeout (fun result block => result ++ block) r []

/-- `stream.write(buffer, amount)` on a stream that holds `stream`. -/
def readStream (arrivals : Arrivals) (timeout : Int) (r : Reader) (stream : Str) : Reader × Str :=
  read arrivals timeout (fun stream block => stream ++ block) r stream

end Rest.BodyRead
