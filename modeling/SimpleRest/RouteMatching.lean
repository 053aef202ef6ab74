import SimpleRest.TargetParser
import SimpleRest.Spec.Restful

/-!
# SimpleREST — what a route matches and what it binds

A pattern and a target are lists of segments. `PathMatches` is the relation the router decides:
as many segments on both sides, and each segment of the pattern a parameter or the target's
own. `bindings` are the parameters with what stands in their place.

- `matching_eq`: `matching` decides the relation, and ends in no fault;
- `extractParameters_eq`: on a match `extractParameters` enters the bindings in their order, so
  its assertion and its cast are met.
-/

namespace Rest

open Cpp InterfaceProvider

/-! ## The relation -/

/-- A segment of a pattern stands for a segment of a target: any, if it is a parameter. -/
def SegmentMatches (pattern segment : Str) : Prop := front pattern = ':' ∨ pattern = segment

instance (pattern segment : Str) : Decidable (SegmentMatches pattern segment) :=
  inferInstanceAs (Decidable (_ ∨ _))

def SegmentsMatch (pattern target : List Str) : Prop := List.Forall₂ SegmentMatches pattern target

instance (pattern target : List Str) : Decidable (SegmentsMatch pattern target) :=
  inferInstanceAs (Decidable (List.Forall₂ _ _ _))

/-- The path of a pattern matches the path of a target, segment by segment. -/
def PathMatches (pattern target : Str) : Prop :=
  SegmentsMatch (splitPath pattern) (splitPath target)

instance (pattern target : Str) : Decidable (PathMatches pattern target) :=
  inferInstanceAs (Decidable (SegmentsMatch _ _))

/-- The parameters of a pattern, each with the segment in its place. -/
def segmentBindings (pattern target : List Str) : List (Str × Str) :=
  (pattern.zip target).filterMap fun x =>
    if front x.1 = ':' then some (x.1.drop 1, x.2) else none

def bindings (pattern target : Str) : List (Str × Str) :=
  segmentBindings (splitPath pattern) (splitPath target)

/-! ## The parts of a path -/

@[simp] theorem getType_parameter (value id : Str) :
    (PathPart.parameter value id).getType = .parameter := rfl

@[simp] theorem getType_string (value : Str) : (PathPart.string value).getType = .string := rfl

@[simp] theorem getValue_string (value : Str) : (PathPart.string value).getValue = value := rfl

/-- The part a segment of a pattern makes. -/
def patternPart (s : Str) : PathPart :=
  if front s = ':' then .parameter [] (s.drop 1) else .string s

theorem pathPart_pattern (s : Str) : pathPart false s = .ok (patternPart s) := by
  unfold pathPart patternPart
  by_cases h : front s = ':'
  · cases s with
    | nil => exact absurd h (by decide)
    | cons c s =>
      have hsub : substr (c :: s) 1 (some ((c :: s).length - 1)) = .ok s := by
        rw [substr, substr?_one]
      rw [if_pos (by simp [h]), if_pos h, hsub]
      rfl
  · rw [if_neg (by simp [h]), if_neg h]
    rfl

theorem pathPart_target (s : Str) : pathPart true s = .ok (.string s) := rfl

/-- A path splits into parts without a fault, as a pattern and as a target. -/
theorem parsePath_eq {disableIds : Bool} {part : Str → PathPart}
    (h : ∀ s, pathPart disableIds s = .ok (part s)) (url : Url) :
    url.parsePath disableIds = .ok ((splitPath url.path).map part) := by
  unfold Url.parsePath
  induction splitPath url.path with
  | nil => rfl
  | cons s segments ih =>
    rw [List.mapM_cons, h, ih]
    rfl

/-! ## The two loops -/

/-- `matching` over parts: it decides the relation. Induction on the pattern. -/
theorem matchParts_eq : ∀ (pattern target : List Str), pattern.length = target.length →
    matchParts (pattern.map patternPart) (target.map PathPart.string) =
      .ok (decide (SegmentsMatch pattern target)) := by
  intro pattern
  induction pattern with
  | nil =>
    intro target hlen
    rw [List.length_eq_zero_iff.mp hlen.symm]
    rfl
  | cons p pattern ih =>
    intro target hlen
    cases target with
    | nil => exact absurd hlen (by simp)
    | cons t target =>
      have ih := ih target (by simpa using hlen)
      have hcons : SegmentsMatch (p :: pattern) (t :: target) ↔
          SegmentMatches p t ∧ SegmentsMatch pattern target := List.forall₂_cons
      show matchParts (patternPart p :: _) (.string t :: _) = _
      by_cases hparam : front p = ':'
      · -- a parameter: nothing is compared
        rw [matchParts, patternPart, if_pos hparam, if_neg (by simp), ih]
        simp [hcons, SegmentMatches, hparam]
      · rw [matchParts, patternPart, if_neg hparam, if_pos (getType_string p)]
        by_cases heq : p = t
        · -- the segment is the target's own, the rest decides
          rw [if_neg (by simpa using heq), ih]
          have hmatch : SegmentsMatch (p :: pattern) (t :: target) ↔ SegmentsMatch pattern target := by
            rw [hcons]
            exact ⟨fun h => h.2, fun h => ⟨Or.inr heq, h⟩⟩
          rw [decide_eq_decide.mpr hmatch]
        · rw [if_pos (by simpa using heq)]
          simp [hcons, SegmentMatches, hparam, heq]
          rfl

/-- **`matching` decides whether the paths match**, for any two URLs. -/
theorem matching_eq (received registered : Url) :
    InterfaceProvider.matching received registered =
      .ok (decide (PathMatches registered.path received.path)) := by
  unfold InterfaceProvider.matching
  rw [parsePath_eq pathPart_pattern, parsePath_eq pathPart_target]
  show (if _ then _ else _) = _
  by_cases hlen : (splitPath registered.path).length = (splitPath received.path).length
  · rw [if_neg (by simpa using hlen), matchParts_eq _ _ hlen]
    rfl
  · -- the loop is not entered
    rw [if_pos (by simpa using hlen)]
    have hnot : ¬ PathMatches registered.path received.path := fun h => hlen h.length_eq
    simp [hnot]
    rfl

/-- `extractParameters` over parts of one length: it enters the bindings one after the other.
Induction on the pattern. -/
theorem extractParts_eq : ∀ (pattern target : List Str) (map : UnorderedMap Str Str),
    pattern.length = target.length →
    extractParts (pattern.map patternPart) (target.map PathPart.string) map =
      .ok (UnorderedMap.insertAll map (segmentBindings pattern target)) := by
  intro pattern
  induction pattern with
  | nil =>
    intro target map hlen
    rw [List.length_eq_zero_iff.mp hlen.symm]
    rfl
  | cons p pattern ih =>
    intro target map hlen
    cases target with
    | nil => exact absurd hlen (by simp)
    | cons t target =>
      have hlen : pattern.length = target.length := by simpa using hlen
      show extractParts (patternPart p :: _) (.string t :: _) map = _
      by_cases hparam : front p = ':'
      · -- the cast is applied to a `PathParameter`
        have hbindings : segmentBindings (p :: pattern) (t :: target) =
            (p.drop 1, t) :: segmentBindings pattern target := by
          simp [segmentBindings, hparam]
        rw [hbindings, extractParts, patternPart, if_pos hparam, if_pos (getType_parameter [] _)]
        exact ih target (map.insert (p.drop 1) t) hlen
      · have hbindings : segmentBindings (p :: pattern) (t :: target) =
            segmentBindings pattern target := by
          simp [segmentBindings, hparam]
        rw [hbindings, extractParts, patternPart, if_neg hparam,
          if_neg (by simp)]
        exact ih target map hlen

/-- **`extractParameters` on a match**: the assertion holds, every cast is to the class the part
is of, and the map has the bindings, the last one for each name. -/
theorem extractParameters_eq {received registered : Url}
    (h : PathMatches registered.path received.path) :
    InterfaceProvider.extractParameters received registered =
      .ok (UnorderedMap.insertAll ∅ (bindings registered.path received.path)) := by
  have hlen : (splitPath registered.path).length = (splitPath received.path).length :=
    List.Forall₂.length_eq h
  unfold InterfaceProvider.extractParameters
  rw [parsePath_eq pathPart_pattern, parsePath_eq pathPart_target]
  show (if _ then _ else _) = _
  rw [if_pos (by simpa using hlen)]
  exact extractParts_eq _ _ ∅ hlen

/-- A search with a predicate that never throws is a search. -/
theorem findIf_eq {α : Type} {p : α → Except Fault Bool} {q : α → Bool} (h : ∀ x, p x = .ok (q x))
    (xs : List α) : findIf p xs = .ok (xs.find? q) := by
  induction xs with
  | nil => rfl
  | cons x xs ih =>
    rw [findIf, h, List.find?_cons]
    show (if _ then _ else _) = _
    cases q x with
    | true => rfl
    | false => exact ih

end Rest
