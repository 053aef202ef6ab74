import Mathlib.Data.List.Basic

/-!
# Cutting a text at a separator

A separator is found at the first place where the text goes on with it. A piece without the
separator's first member has no such place, so a text that has been put together from such pieces
is cut into them again.
-/

namespace Cut

universe u

variable {α : Type u} [DecidableEq α]

/-- What stands in front of the first separator, and what stands behind it. -/
def cut (sep : List α) : List α → Option (List α × List α)
  | [] => if sep = [] then some ([], []) else none
  | a :: s =>
    if sep.isPrefixOf (a :: s) then some ([], (a :: s).drop sep.length)
    else (cut sep s).map fun p => (a :: p.1, p.2)

/-- The lines up to the first empty one, and what stands behind that. A line takes a member of
the text at least, so there are fewer lines than members. -/
def cutLinesFuel (sep : List α) : Nat → List α → Option (List (List α) × List α)
  | 0, _ => none
  | fuel + 1, s =>
    (cut sep s).bind fun p =>
      if p.1 = [] then some ([], p.2)
      else (cutLinesFuel sep fuel p.2).map fun q => (p.1 :: q.1, q.2)

def cutLines (sep s : List α) : Option (List (List α) × List α) := cutLinesFuel sep s.length s

variable {x : α} {sep : List α}

/-- Induction on the piece in front: no member of it begins a separator. -/
theorem cut_append (sep : List α) {a : List α} (ha : x ∉ a) (b : List α) :
    cut (x :: sep) (a ++ (x :: sep ++ b)) = some (a, b) := by
  induction a with
  | nil =>
    have hprefix : (x :: sep).isPrefixOf (x :: (sep ++ b)) = true := by
      rw [List.isPrefixOf_iff_prefix]
      exact List.prefix_append (x :: sep) b
    show cut (x :: sep) (x :: (sep ++ b)) = _
    rw [cut, if_pos hprefix]
    simp
  | cons c a ih =>
    have hne : x ≠ c := fun h => ha (by simp [h])
    have hno : ¬ (x :: sep).isPrefixOf (c :: (a ++ (x :: sep ++ b))) = true := by
      simp [hne]
    show cut (x :: sep) (c :: (a ++ (x :: sep ++ b))) = _
    rw [cut, if_neg hno, ih fun h => ha (List.mem_cons_of_mem c h)]
    rfl

theorem cutLinesFuel_append (b : List α) : ∀ (lines : List (List α)) (fuel : Nat),
    lines.length < fuel → (∀ l ∈ lines, l ≠ [] ∧ x ∉ l) →
    cutLinesFuel (x :: sep) fuel (lines.flatMap (· ++ x :: sep) ++ (x :: sep ++ b)) =
      some (lines, b) := by
  intro lines
  induction lines with
  | nil =>
    intro fuel hfuel _
    cases fuel with
    | zero => exact absurd hfuel (Nat.not_lt_zero _)
    | succ fuel =>
      have hcut : cut (x :: sep) (x :: sep ++ b) = some ([], b) :=
        cut_append sep List.not_mem_nil b
      show cutLinesFuel (x :: sep) (fuel + 1) (x :: sep ++ b) = _
      rw [cutLinesFuel, hcut]
      rfl
  | cons l lines ih =>
    intro fuel hfuel hlines
    cases fuel with
    | zero => exact absurd hfuel (Nat.not_lt_zero _)
    | succ fuel =>
      obtain ⟨hne, hx⟩ := hlines l (by simp)
      have hrest := ih fuel (Nat.lt_of_succ_lt_succ hfuel)
        fun k hk => hlines k (List.mem_cons_of_mem l hk)
      have hcut := cut_append sep hx (lines.flatMap (· ++ x :: sep) ++ (x :: sep ++ b))
      have htext : (l :: lines).flatMap (· ++ x :: sep) ++ (x :: sep ++ b) =
          l ++ (x :: sep ++ (lines.flatMap (· ++ x :: sep) ++ (x :: sep ++ b))) := by
        simp
      rw [htext, cutLinesFuel, hcut]
      show (if l = [] then _ else Option.map _ (cutLinesFuel (x :: sep) fuel _)) = _
      rw [if_neg hne, hrest]
      rfl

/-- **Lines that are not empty are read back**, and what stands behind the empty line is left. -/
theorem cutLines_append {lines : List (List α)} (hlines : ∀ l ∈ lines, l ≠ [] ∧ x ∉ l)
    (b : List α) :
    cutLines (x :: sep) (lines.flatMap (· ++ x :: sep) ++ (x :: sep ++ b)) = some (lines, b) := by
  refine cutLinesFuel_append b lines _ ?_ hlines
  have hlength : lines.length ≤ (lines.flatMap (· ++ x :: sep)).length := by
    induction lines with
    | nil => exact Nat.zero_le _
    | cons l lines ih =>
      have hrest := ih fun k hk => hlines k (List.mem_cons_of_mem l hk)
      simp only [List.flatMap_cons, List.length_append, List.length_cons]
      omega
  simp only [List.length_append, List.length_cons]
  omega

end Cut
