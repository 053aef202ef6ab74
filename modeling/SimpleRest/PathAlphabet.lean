import SimpleRest.PathParts
import SimpleRest.UnroutedAnswer

/-!
# SimpleREST — the alphabet of paths

The characters that a path segment may hold without percent-encoding are the letters, the digits
and seventeen more. The class of the parser is spelled after them, group by group, and leaves one of
them out: the dot.

- `segmentChar_iff`: the two alphabets against each other;
- `dotFree_of_path`: no path that the parser stores has a dot;
- `ordinary_path_iff`: so a path over the whole alphabet is served exactly if none of its segments
  has a dot.
-/

namespace Rest

open Cpp Regex RestConnection
open InterfaceProvider (connectionHandler registerRequest reply)
open ReducedUrlParser (parse segmentChar IsPath)

/-! ## The two alphabets -/

/-- Letters, digits and `- . _ ~ ! $ & ' ( ) * + , ; = : @`. -/
def ordinaryChar (c : Char) : Bool := c.isAlphanum || "-._~!$&'()*+,;=:@".toList.contains c

/-- The class of the parser is this alphabet without the dot. -/
theorem segmentChar_iff (c : Char) : segmentChar c = true ↔ ordinaryChar c = true ∧ c ≠ '.' := by
  have hparser : "-_~!$&'()*+,;=:@".toList.all ordinaryChar = true := by decide
  have hordinary : ("-._~!$&'()*+,;=:@".toList.all fun d => d == '.' || segmentChar d) = true := by
    decide
  refine ⟨fun h => ⟨?_, fun heq => ?_⟩, fun h => ?_⟩
  · rcases Bool.or_eq_true_iff.mp h with halpha | hlist
    · unfold ordinaryChar
      rw [halpha, Bool.true_or]
    · exact List.all_eq_true.mp hparser c (by simpa using hlist)
  · have hdot : segmentChar '.' = false := by decide
    rw [heq, hdot] at h
    cases h
  · rcases Bool.or_eq_true_iff.mp h.1 with halpha | hlist
    · unfold ReducedUrlParser.segmentChar
      rw [halpha, Bool.true_or]
    · have hc := List.all_eq_true.mp hordinary c (by simpa using hlist)
      rw [beq_false_of_ne h.2, Bool.false_or] at hc
      exact hc

theorem word_of_ordinary {seg : Str} (h : Word ordinaryChar seg) (hdot : '.' ∉ seg) :
    Word segmentChar seg :=
  ⟨h.1, fun c hc => (segmentChar_iff c).mpr ⟨h.2 c hc, fun heq => hdot (heq ▸ hc)⟩⟩

/-- No path that the parser stores has a dot. -/
theorem dotFree_of_path {p : Str} (h : IsPath p) : '.' ∉ p := by
  rcases h with hempty | hroot | ⟨segs, _, hsegs, heq⟩
  · rw [hempty]
    exact List.not_mem_nil
  · rw [hroot]
    decide
  · rw [heq]
    intro hmem
    obtain ⟨seg, hseg, hdot⟩ := List.mem_flatMap.mp hmem
    rcases List.mem_cons.mp hdot with hslash | hdot
    · exact absurd hslash (by decide)
    · exact ((segmentChar_iff '.').mp ((hsegs seg hseg).2 '.' hdot)).2 rfl

/-! ## Ordinary paths -/

/-- A slash, and the segments with slashes between them. -/
def pathOf (segs : List Str) : Str := '/' :: ['/'].intercalate segs

/-- The path is taken for what it is: the parser stores it, no request for it is answered with 400
by the handler, and every route for it can be registered. -/
structure Served (path : Str) : Prop where
  stored : ∃ u, parse path = .ok u ∧ u.path = path
  answered : ∀ (κ : Type) (order : IterationOrder Str Str) (run : Run κ) (requests_ : Requests κ)
    (c : RestConnection), c.request_.url = path →
    (connectionHandler order run requests_ c).invoked = [] →
    statusSent c (connectionHandler order run requests_ c).connection ≠ some 400
  registered : ∀ (κ : Type) (requests_ : Requests κ) (type : Str) (callback : κ),
    (registerRequest requests_ type path callback).2 = .ok ()

/-- What the parser stores is served. -/
theorem served_of_stored {path : Str} {u : Url} (hparse : parse path = .ok u)
    (hpath : u.path = path) : Served path where
  stored := ⟨u, hparse, hpath⟩
  answered := by
    intro κ order run requests_ c hurl hinvoked
    rcases connectionHandler_cases order run requests_ c with
      ⟨_, code, hcode, htarget, heq⟩ | ⟨_, i, _, heq⟩
    · have hne : code ≠ 400 := by
        intro h400
        rw [hurl] at htarget
        exact htarget.mp h400 u hparse
      rw [heq]
      rcases hcode with h | h | h
      · exact absurd h hne
      · rw [h, statusSent_reply order (by decide)]
        split
        · decide
        · simp
      · rw [h, statusSent_reply order (by decide)]
        split
        · decide
        · simp
    · rw [heq] at hinvoked
      cases hinvoked
  registered := by
    intro κ requests_ type callback
    rw [registerRequest, hparse]

/-- **When an ordinary path is served.** For all segments over the alphabet, none of them empty:
their path is stored by the parser, is never answered with 400 by the handler, and can be
registered, if and only if no segment has a dot. -/
theorem ordinary_path_iff {segs : List Str} (hne : segs ≠ [])
    (hsegs : ∀ seg ∈ segs, Word ordinaryChar seg) :
    Served (pathOf segs) ↔ ∀ seg ∈ segs, '.' ∉ seg := by
  have hjoin : pathOf segs = segs.flatMap ('/' :: ·) := (flatMap_eq_intercalate hne).symm
  rw [hjoin]
  refine ⟨fun hserved seg hseg hdot => ?_, fun hdots => ?_⟩
  · obtain ⟨u, hparse, hpath⟩ := hserved.stored
    have hfree := dotFree_of_path (parse_path hparse).2
    rw [hpath] at hfree
    exact hfree (List.mem_flatMap.mpr ⟨seg, hseg, List.mem_cons_of_mem '/' hdot⟩)
  · have hwords : ∀ seg ∈ segs, Word segmentChar seg :=
      fun seg hseg => word_of_ordinary (hsegs seg hseg) (hdots seg hseg)
    obtain ⟨u, hparse, hpath⟩ := parse_join hne hwords
    exact served_of_stored hparse hpath

/-- `/users/42` is served. -/
theorem ordinary_path_users : Served (pathOf ["users".toList, "42".toList]) :=
  (ordinary_path_iff (List.cons_ne_nil _ _) (by decide)).mpr (by decide)

/-- `/index.html` is not: the parser rejects it. -/
theorem ordinary_path_index : ¬ ∀ segs : List Str, segs ≠ [] →
    (∀ seg ∈ segs, Word ordinaryChar seg) → Served (pathOf segs) := by
  intro hall
  obtain ⟨u, hparse, _⟩ := (hall ["index.html".toList] (List.cons_ne_nil _ _) (by decide)).stored
  have hrejected : parse (pathOf ["index.html".toList]) =
      .error (.invalidArgument "Not a valid sub url".toList) := rfl
  rw [hrejected] at hparse
  cases hparse

end Rest
