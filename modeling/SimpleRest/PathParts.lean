import SimpleRest.RouteMatching

/-!
# SimpleREST — the parts of a parsed path

`parsePath` cuts a path at its slashes, throws the first piece away and looks at the first
character of the others. It checks neither that there is a first piece to throw away, nor that a
piece has a first character. What makes it safe is the regular expression of the parser.

- `splitPath_flatMap`: pieces behind slashes are cut where they were joined;
- `parse_segments`: the path of a string the parser accepts is made of non-empty segments, or is
  the root;
- `parsePath_splits_iff`: so the parts are right for every accepted string but those with the path
  `/`, which has one piece, and that is empty.
-/

namespace Rest

open Cpp Regex ReducedUrlParser

/-! ## Cutting at the slashes -/

theorem splitOnP_flatMap : ∀ (segs : List Str) (first : Str), '/' ∉ first →
    (∀ seg ∈ segs, '/' ∉ seg) →
    (first ++ segs.flatMap ('/' :: ·)).splitOnP (· == '/') = first :: segs := by
  intro segs
  have hplain : ∀ piece : Str, '/' ∉ piece → ∀ c ∈ piece, (c == '/') = false := by
    intro piece hpiece c hc
    have hne : c ≠ '/' := fun heq => hpiece (heq ▸ hc)
    simpa using hne
  induction segs with
  | nil =>
    intro first hfirst _
    rw [List.flatMap_nil, List.append_nil]
    exact List.splitOnP_eq_singleton (hplain first hfirst)
  | cons seg segs ih =>
    intro first hfirst hsegs
    have hseg : '/' ∉ seg := hsegs seg List.mem_cons_self
    have hrest : ∀ seg ∈ segs, '/' ∉ seg := fun s hs => hsegs s (List.mem_cons_of_mem seg hs)
    show (first ++ '/' :: (seg ++ segs.flatMap ('/' :: ·))).splitOnP (· == '/') = _
    rw [List.splitOnP_append_cons_of_forall_mem (hplain first hfirst) '/' rfl, ih seg hseg hrest]

/-- **Pieces behind slashes are cut where they were joined.** -/
theorem splitPath_flatMap {segs : List Str} (h : ∀ seg ∈ segs, '/' ∉ seg) :
    splitPath (segs.flatMap ('/' :: ·)) = segs := by
  have hsplit := splitOnP_flatMap segs [] List.not_mem_nil h
  rw [List.nil_append] at hsplit
  unfold splitPath
  rw [hsplit]
  rfl

/-- Segments behind slashes are a slash and the segments with slashes between them. -/
theorem flatMap_eq_intercalate {segs : List Str} (h : segs ≠ []) :
    segs.flatMap ('/' :: ·) = '/' :: ['/'].intercalate segs := by
  induction segs with
  | nil => exact absurd rfl h
  | cons seg segs ih =>
    cases segs with
    | nil => simp [List.intercalate_singleton]
    | cons seg' segs =>
      rw [List.flatMap_cons, ih (List.cons_ne_nil _ _), List.intercalate_cons_cons]
      simp

/-! ## What the parser lets through -/

/-- Where the path of a string ends. -/
theorem parse_path {s : Str} {u : Url} (h : parse s = .ok u) :
    u.path = s.takeWhile beforeQuery ∧ IsPath u.path := by
  rcases parse_cases s with ⟨P, Q, F, u', hdec, hu', _, hpath, _⟩ | ⟨_, herror⟩
  · rw [h] at hu'
    cases hu'
    rw [hpath, hdec.eq, takeWhile_stop hdec.path.before hdec.tail_head?]
    exact ⟨rfl, hdec.path⟩
  · rw [h] at herror
    cases herror

theorem segment_slashFree {seg : Str} (h : Word segmentChar seg) : '/' ∉ seg :=
  fun hmem => (segmentChar_stop (h.2 '/' hmem)).2.2 rfl

/-- The path of an accepted string: the root, or segments of the grammar, each behind a slash. -/
theorem parse_segments {s : Str} {u : Url} (h : parse s = .ok u) (hroot : u.path ≠ ['/']) :
    ∃ segs, (∀ seg ∈ segs, Word segmentChar seg) ∧ u.path = segs.flatMap ('/' :: ·) ∧
      splitPath u.path = segs := by
  have hpath : ∃ segs : List Str, (∀ seg ∈ segs, Word segmentChar seg) ∧
      u.path = segs.flatMap ('/' :: ·) := by
    rcases (parse_path h).2 with hempty | hslash | ⟨segs, _, hsegs, heq⟩
    · exact ⟨[], nofun, hempty⟩
    · exact absurd hslash hroot
    · exact ⟨segs, hsegs, heq⟩
  obtain ⟨segs, hsegs, heq⟩ := hpath
  refine ⟨segs, hsegs, heq, ?_⟩
  rw [heq]
  exact splitPath_flatMap fun seg hseg => segment_slashFree (hsegs seg hseg)

/-- Segments of the grammar, each behind a slash, are accepted and are the path. -/
theorem parse_join {segs : List Str} (hne : segs ≠ [])
    (hsegs : ∀ seg ∈ segs, Word segmentChar seg) :
    ∃ u, parse (segs.flatMap ('/' :: ·)) = .ok u ∧ u.path = segs.flatMap ('/' :: ·) := by
  have hdec : Decomposes (segs.flatMap ('/' :: ·)) (segs.flatMap ('/' :: ·)) [] [] :=
    ⟨(List.append_nil _).symm, Or.inr (Or.inr ⟨segs, hne, hsegs, rfl⟩), Or.inl rfl, Or.inl rfl⟩
  obtain ⟨m, hm⟩ := runQuery_ok (segs.flatMap ('/' :: ·)) (segs.flatMap ('/' :: ·)) []
  exact ⟨_, parse_decomposes hdec hm, rfl⟩

theorem parse_slash : ∃ u, parse ['/'] = .ok u ∧ u.path = ['/'] := by
  have hdec : Decomposes ['/'] ['/'] [] [] := ⟨rfl, Or.inr (Or.inl rfl), Or.inl rfl, Or.inl rfl⟩
  obtain ⟨m, hm⟩ := runQuery_ok ['/'] ['/'] []
  exact ⟨_, parse_decomposes hdec hm, rfl⟩

theorem splitPath_root : splitPath ['/'] = [[]] := by decide

/-! ## What is asked for -/

/-- The pieces whose `front()` is taken, in this order. -/
def frontCalls (u : Url) (disableIds : Bool) : List Str :=
  if disableIds then [] else splitPath u.path

/-- `part` is what a piece stands for in a pattern: a parameter if it is `:` and an id. -/
def StandsFor (part : PathPart) (seg : Str) : Prop :=
  (∀ x, (∃ value, part = .parameter value x) ↔ seg = ':' :: x) ∧
    ((∀ x, seg ≠ ':' :: x) → part = .string seg)

/-- The path of `u` is cut into these segments, and nothing is lost. -/
structure Splits (u : Url) (segs : List Str) : Prop where
  strings : u.parsePath true = .ok (segs.map .string)
  segments : ∀ seg ∈ segs, seg ≠ [] ∧ '/' ∉ seg
  path : u.path = if segs = [] then [] else '/' :: ['/'].intercalate segs
  parts : ∃ parts, u.parsePath false = .ok parts ∧ List.Forall₂ StandsFor parts segs
  fronts : ∀ disableIds, ∀ i ∈ frontCalls u disableIds, i ≠ []

/-! ## The parts -/

theorem standsFor_patternPart (seg : Str) : StandsFor (patternPart seg) seg := by
  unfold patternPart
  cases seg with
  | nil =>
    refine ⟨fun x => iff_of_false (fun h => ?_) nofun, fun _ => rfl⟩
    obtain ⟨value, hvalue⟩ := h
    cases hvalue
  | cons c seg =>
    rw [front_cons]
    by_cases hc : c = ':'
    · rw [hc, if_pos rfl]
      refine ⟨fun x => ⟨fun h => ?_, fun h => ?_⟩, fun h => absurd rfl (h seg)⟩
      · obtain ⟨value, hvalue⟩ := h
        cases hvalue
        rfl
      · cases h
        exact ⟨[], rfl⟩
    · rw [if_neg hc]
      refine ⟨fun x => iff_of_false (fun h => ?_) (fun h => hc (List.cons.inj h).1), fun _ => rfl⟩
      obtain ⟨value, hvalue⟩ := h
      cases hvalue

theorem splits_of_segments {u : Url} {segs : List Str} (hpath : u.path = segs.flatMap ('/' :: ·))
    (hsplit : splitPath u.path = segs) (hsegs : ∀ seg ∈ segs, seg ≠ [] ∧ '/' ∉ seg) :
    Splits u segs where
  strings := by rw [parsePath_eq pathPart_target, hsplit]
  segments := hsegs
  path := by
    rw [hpath]
    split
    · next hempty => rw [hempty, List.flatMap_nil]
    · next hne => exact flatMap_eq_intercalate hne
  parts := by
    refine ⟨segs.map patternPart, by rw [parsePath_eq pathPart_pattern, hsplit], ?_⟩
    rw [List.forall₂_map_left_iff, List.forall₂_same]
    exact fun seg _ => standsFor_patternPart seg
  fronts := by
    intro disableIds i hi
    unfold frontCalls at hi
    split at hi
    · cases hi
    · rw [hsplit] at hi
      exact (hsegs i hi).1

/-- **When a parsed path is split without a loss.** For every string the parser accepts, the path
is the join of non-empty segments that `parsePath` returns as they are, and as parameters where a
colon leads them, and `front()` is called on no empty one, if and only if the path of the string,
which ends in front of the first `?` or `#`, is not `/`. -/
theorem parsePath_splits_iff {s : Str} {u : Url} (h : parse s = .ok u) :
    (∃ segs, Splits u segs) ↔ s.takeWhile beforeQuery ≠ ['/'] := by
  rw [← (parse_path h).1]
  refine ⟨fun hsplits hroot => ?_, fun hroot => ?_⟩
  · -- the root is cut into one empty piece
    obtain ⟨segs, hsegs⟩ := hsplits
    have hstrings := hsegs.strings
    rw [parsePath_eq pathPart_target, hroot, splitPath_root] at hstrings
    have hmap : [PathPart.string []] = segs.map .string := Except.ok.inj hstrings
    cases segs with
    | nil => cases hmap
    | cons seg segs =>
      have hempty : ([] : Str) = seg := PathPart.string.inj (List.cons.inj hmap).1
      exact (hsegs.segments seg List.mem_cons_self).1 hempty.symm
  · obtain ⟨segs, hsegs, hpath, hsplit⟩ := parse_segments h hroot
    exact ⟨segs, splits_of_segments hpath hsplit fun seg hseg =>
      ⟨(hsegs seg hseg).1, segment_slashFree (hsegs seg hseg)⟩⟩

/-- The path of the target `/users?id=7`. -/
theorem parsePath_splits_users :
    ∃ u, parse "/users?id=7".toList = .ok u ∧ ∃ segs, Splits u segs := by
  have hdec : Decomposes "/users?id=7".toList "/users".toList "?id=7".toList [] := by
    refine ⟨rfl, Or.inr (Or.inr ⟨["users".toList], by simp, ?_, rfl⟩), Or.inr ?_, Or.inl rfl⟩
    · intro seg hseg
      rw [List.mem_singleton.mp hseg]
      decide
    · exact ⟨"id=7".toList, [], ⟨⟨"id".toList, "7".toList, by decide, by decide, rfl⟩, nofun⟩, rfl⟩
  obtain ⟨m, hm⟩ := runQuery_ok "/users?id=7".toList "/users".toList "?id=7".toList
  have hu := parse_decomposes hdec hm
  exact ⟨_, hu, (parsePath_splits_iff hu).mpr (by decide)⟩

/-- The root is accepted, and its one piece is empty. -/
theorem parsePath_root : ¬ ∀ s u, parse s = .ok u → ∃ segs, Splits u segs := by
  intro hall
  obtain ⟨u, hu, hpath⟩ := parse_slash
  obtain ⟨segs, hsegs⟩ := hall ['/'] u hu
  have hcalled : ([] : Str) ∈ frontCalls u false := by
    unfold frontCalls
    rw [hpath]
    decide
  exact hsegs.fronts false [] hcalled rfl

end Rest
