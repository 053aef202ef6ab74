import SimpleRest.Cpp.Text

/-!
# Reading a file through `std::ifstream`

A file that can be opened has a content, and does not change while it is open. Of the stream
there is what `seekg`, `tellg`, `read` and `gcount` need: the position, the two bits of its state,
and how much the last `read` has got. A block that is asked for is cut short by the end of the
file only, and such a `read` sets `eofbit` and `failbit`.

- `read_full`: a whole block, behind which the stream is good, even at the end of the file;
- `read_short`: the last block, which may be empty.
-/

namespace Cpp

structure IFStream where
  content : Str
  pos : Nat := 0
  eof : Bool := false
  fail : Bool := false
  gcount : Nat := 0

namespace IFStream

/-- `std::ifstream(fileName)`: `none` is a file that cannot be opened. -/
def «open» : Option Str → IFStream
  | some content => { content }
  | none => { content := [], fail := true }

def good (is : IFStream) : Bool := !is.eof && !is.fail

/-- `is.seekg(0, is.end)`. It takes `eofbit` back, and does not move a stream that has failed. -/
def seekgEnd (is : IFStream) : IFStream :=
  { is with eof := false, pos := if is.fail then is.pos else is.content.length }

/-- `is.seekg(0, is.beg)` -/
def seekgBeg (is : IFStream) : IFStream :=
  { is with eof := false, pos := if is.fail then is.pos else 0 }

/-- `is.tellg()` -/
def tellg (is : IFStream) : Int := if is.fail then -1 else is.pos

/-- `is.read(buffer, n)`: the stream, and what has been stored at the front of the buffer. -/
def read (is : IFStream) (n : Nat) : IFStream × Str :=
  if is.good then
    let block := (is.content.drop is.pos).take n
    let short := decide (block.length < n)
    ({ is with
        pos := is.pos + block.length, eof := short, fail := short, gcount := block.length }, block)
  else ({ is with fail := true, gcount := 0 }, [])

/-! ## What is read -/

variable {is : IFStream} {n : Nat}

/-- What has not been read yet. -/
def rest (is : IFStream) : Str := is.content.drop is.pos

/-- A whole block: the stream is good behind it, even at the end of the file. -/
theorem read_full (hgood : is.good = true) (hfull : n ≤ is.rest.length) :
    (is.read n).1.good = true ∧ (is.read n).1.rest = is.rest.drop n ∧ (is.read n).1.gcount = n ∧
      (is.read n).2 = is.rest.take n := by
  have hlength : (is.rest.take n).length = n := List.length_take_of_le hfull
  have hshort : decide ((is.rest.take n).length < n) = false := by
    rw [hlength]
    exact decide_eq_false (Nat.lt_irrefl n)
  unfold read
  rw [if_pos hgood]
  refine ⟨?_, ?_, hlength, rfl⟩
  · show (!decide ((is.rest.take n).length < n) && !decide ((is.rest.take n).length < n)) = true
    rw [hshort]
    rfl
  · show is.content.drop (is.pos + (is.rest.take n).length) = is.rest.drop n
    rw [hlength]
    exact (List.drop_drop).symm

/-- The last block, which may be empty. -/
theorem read_short (hgood : is.good = true) (hshort : is.rest.length < n) :
    (is.read n).1.gcount = is.rest.length ∧ (is.read n).2 = is.rest := by
  have htake : is.rest.take n = is.rest := List.take_of_length_le (Nat.le_of_lt hshort)
  unfold read
  rw [if_pos hgood]
  exact ⟨congrArg List.length htake, htake⟩

end IFStream

end Cpp
