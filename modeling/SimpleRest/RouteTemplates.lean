import SimpleRest.Lib.Template
import SimpleRest.PathParts

/-!
# SimpleREST — routes as templates

A registered path is a template, with a hole for every parameter. Matching should be the question
whether the template can be filled to the path of the request with segments that are not empty, and
extraction the answer. The router asks for no more than the number of the segments and the ones
that are no parameters, so it depends on the parser that no segment is empty.

- `segmentsMatch_iff`: where no segment is empty, the router's relation is the one of templates;
- `extraction_assigns`: what is extracted fills the template, when the names are distinct;
- `matching_template_iff`: all this holds for accepted URLs but for a request for the root `/` and
  a pattern of one parameter, which is bound to the empty segment then.
-/

namespace Rest

open Cpp Regex Template InterfaceProvider ReducedUrlParser

/-! ## What is asked for -/

/-- The name of a segment `:name`. -/
def parameterName : Str → Option Str
  | ':' :: name => some name
  | _ => none

/-- The parameter names of a pattern, each as often as it comes. -/
def parameterNames (registered : Url) : List Str :=
  holes parameterName (splitPath registered.path)

/-- `m` has a segment for every parameter name and for nothing else, none of them empty, and with
them in the places of the names the pattern is the path of the request. -/
structure Assigns (registered received : Url) (m : UnorderedMap Str Str) : Prop where
  names : ∀ k, k ∈ m ↔ k ∈ parameterNames registered
  nonempty : ∀ k v, m.lookup k = some v → v ≠ []
  fills : (splitPath registered.path).map (fill parameterName fun k => m.index k []) =
    splitPath received.path

/-- `m` has exactly the parameter names, each with the segment at its last occurrence. -/
structure LastOccurrences (registered received : Url) (m : UnorderedMap Str Str) : Prop where
  names : ∀ k, k ∈ m ↔ k ∈ parameterNames registered
  last : ∀ k before behind before' t behind',
    splitPath registered.path = before ++ (':' :: k) :: behind →
    splitPath received.path = before' ++ t :: behind' → before.length = before'.length →
    ':' :: k ∉ behind → m.lookup k = some t

/-- Matching is filling a template, and extraction gives what it is filled with. -/
structure MatchesTemplate (received registered : Url) : Prop where
  distinct : (parameterNames registered).Nodup →
    (matching received registered = .ok true ↔ ∃ m, Assigns registered received m) ∧
      ∀ m, Assigns registered received m →
        (∀ m', Assigns registered received m' → m' = m) ∧
          extractParameters received registered = .ok m
  /-- a name that is repeated may stand for different segments -/
  repeated : matching received registered = .ok true ↔
    List.Forall₂ (Fits parameterName (· ≠ [])) (splitPath registered.path)
      (splitPath received.path)
  extracted : matching received registered = .ok true →
    ∃ m, extractParameters received registered = .ok m ∧ LastOccurrences registered received m

/-! ## The router's relation -/

theorem parameterName_eq (p : Str) :
    parameterName p = if front p = ':' then some (p.drop 1) else none := by
  cases p with
  | nil => rfl
  | cons c p =>
    rw [front_cons]
    by_cases hc : c = ':'
    · rw [hc, if_pos rfl]
      rfl
    · rw [if_neg hc]
      unfold parameterName
      split
      · next heq => exact absurd (List.cons.inj heq).1 hc
      · rfl

theorem parameterName_some {p name : Str} (h : parameterName p = some name) : p = ':' :: name := by
  unfold parameterName at h
  split at h
  · rw [Option.some.inj h]
  · cases h

theorem segmentBindings_eq (pattern target : List Str) :
    segmentBindings pattern target = Template.bindings parameterName pattern target := by
  unfold segmentBindings Template.bindings
  refine List.filterMap_congr fun x _ => ?_
  rw [parameterName_eq]
  split
  · rfl
  · rfl

theorem segmentMatches_iff {p t : Str} (h : parameterName p ≠ none → t ≠ []) :
    SegmentMatches p t ↔ Fits parameterName (· ≠ []) p t := by
  cases hp : parameterName p with
  | none =>
    rw [fits_none hp]
    rw [parameterName_eq] at hp
    have hfront : front p ≠ ':' := by
      intro hfront
      rw [if_pos hfront] at hp
      cases hp
    exact or_iff_right hfront
  | some name =>
    rw [fits_some hp, parameterName_some hp]
    exact iff_of_true (Or.inl rfl) (h (by rw [hp]; nofun))

/-- Where no segment is empty, the router's relation is the one of templates. Induction on the
pattern. -/
theorem segmentsMatch_iff : ∀ (pattern target : List Str), (∀ t ∈ target, t ≠ []) →
    (SegmentsMatch pattern target ↔
      List.Forall₂ (Fits parameterName (· ≠ [])) pattern target) := by
  intro pattern
  induction pattern with
  | nil =>
    intro target _
    unfold SegmentsMatch
    rw [List.forall₂_nil_left_iff, List.forall₂_nil_left_iff]
  | cons p pattern ih =>
    intro target htarget
    unfold SegmentsMatch at ih ⊢
    cases target with
    | nil => exact iff_of_false nofun nofun
    | cons t target =>
      have ht : t ≠ [] := htarget t List.mem_cons_self
      rw [List.forall₂_cons, List.forall₂_cons, segmentMatches_iff fun _ => ht,
        ih target fun t' ht' => htarget t' (List.mem_cons_of_mem t ht')]

/-- The same for the root, if the pattern is not one parameter. -/
theorem segmentsMatch_root_iff {pattern : List Str} (h : ∀ name, pattern ≠ [':' :: name]) :
    SegmentsMatch pattern [[]] ↔
      List.Forall₂ (Fits parameterName (· ≠ [])) pattern [[]] := by
  unfold SegmentsMatch
  cases pattern with
  | nil => exact iff_of_false nofun nofun
  | cons p pattern =>
    rw [List.forall₂_cons, List.forall₂_cons, List.forall₂_nil_right_iff,
      List.forall₂_nil_right_iff]
    refine and_congr_left fun hnil => segmentMatches_iff fun hp => ?_
    obtain ⟨name, hname⟩ := Option.ne_none_iff_exists'.mp hp
    rw [hnil, parameterName_some hname] at h
    exact absurd rfl (h name)

theorem matching_iff (received registered : Url) :
    matching received registered = .ok true ↔ PathMatches registered.path received.path := by
  rw [matching_eq]
  show (Except.ok (decide _) : Except Fault Bool) = .ok true ↔ _
  rw [Except.ok.injEq, decide_eq_true_iff]

/-! ## What is extracted -/

section

variable {received registered : Url}

/-- The map that is extracted. -/
def extraction (registered received : Url) : UnorderedMap Str Str :=
  UnorderedMap.insertAll ∅
    (Template.bindings parameterName (splitPath registered.path) (splitPath received.path))

theorem extractParameters_extraction (h : PathMatches registered.path received.path) :
    extractParameters received registered = .ok (extraction registered received) := by
  rw [extractParameters_eq h]
  unfold bindings extraction
  rw [segmentBindings_eq]

theorem mem_extraction (h : PathMatches registered.path received.path) (k : Str) :
    k ∈ extraction registered received ↔ k ∈ parameterNames registered := by
  unfold extraction
  rw [UnorderedMap.mem_insertAll, map_fst_bindings h.length_eq]
  exact or_iff_right (Finmap.notMem_empty)

/-- What is extracted fills the template, when the names are distinct. -/
theorem extraction_assigns (hmatch : PathMatches registered.path received.path)
    (hfits : List.Forall₂ (Fits parameterName (· ≠ [])) (splitPath registered.path)
      (splitPath received.path)) (hnodup : (parameterNames registered).Nodup) :
    Assigns registered received (extraction registered received) := by
  have hkeys : (Template.bindings parameterName (splitPath registered.path)
      (splitPath received.path)).map Prod.fst = parameterNames registered :=
    map_fst_bindings hmatch.length_eq
  have hlookup : ∀ b ∈ Template.bindings parameterName (splitPath registered.path)
      (splitPath received.path), (extraction registered received).lookup b.1 = some b.2 :=
    fun b hb => UnorderedMap.lookup_insertAll_of_nodup ∅ (by rw [hkeys]; exact hnodup) hb
  refine ⟨mem_extraction hmatch, fun k v hv => ?_, fill_of_bindings hfits fun b hb => ?_⟩
  · -- the value is that of a binding
    have hk : k ∈ parameterNames registered :=
      (mem_extraction hmatch k).mp (Finmap.mem_of_lookup_eq_some hv)
    rw [← hkeys] at hk
    obtain ⟨b, hb, hbk⟩ := List.mem_map.mp hk
    have hb2 := hlookup b hb
    rw [hbk, hv] at hb2
    rw [Option.some.inj hb2]
    exact mem_bindings_ok hfits b hb
  · show (extraction registered received).index b.1 [] = b.2
    unfold UnorderedMap.index
    rw [hlookup b hb]
    rfl

theorem extraction_lastOccurrences (h : PathMatches registered.path received.path) :
    LastOccurrences registered received (extraction registered received) := by
  refine ⟨mem_extraction h, ?_⟩
  intro k before behind before' t behind' hpattern htarget hlen hlast
  have hlength : behind.length = behind'.length := by
    have htotal := h.length_eq
    rw [hpattern, htarget, List.length_append, List.length_append, List.length_cons,
      List.length_cons] at htotal
    omega
  have hname : parameterName (':' :: k) = some k := rfl
  unfold extraction
  rw [hpattern, htarget, bindings_middle hlen hname]
  refine UnorderedMap.lookup_insertAll_last ∅ _ k t ?_
  rw [map_fst_bindings hlength, mem_holes]
  intro hmem
  obtain ⟨p, hp, hsame⟩ := hmem
  rw [parameterName_some hsame] at hp
  exact hlast hp

theorem Assigns.fits {m : UnorderedMap Str Str} (h : Assigns registered received m) :
    List.Forall₂ (Fits parameterName (· ≠ [])) (splitPath registered.path)
      (splitPath received.path) := by
  rw [← h.fills]
  refine fits_of_fill fun k hk => ?_
  obtain ⟨v, hv⟩ := Option.isSome_iff_exists.mp (Finmap.lookup_isSome.mpr ((h.names k).mpr hk))
  show (m.lookup k).getD [] ≠ []
  rw [hv]
  exact h.nonempty k v hv

/-- There is one assignment at most. -/
theorem Assigns.unique {m m' : UnorderedMap Str Str} (h : Assigns registered received m)
    (h' : Assigns registered received m') : m' = m := by
  have hvalues := fill_injOn (h'.fills.trans h.fills.symm)
  refine Finmap.ext_lookup fun k => ?_
  by_cases hk : k ∈ parameterNames registered
  · obtain ⟨v, hv⟩ := Option.isSome_iff_exists.mp (Finmap.lookup_isSome.mpr ((h.names k).mpr hk))
    obtain ⟨v', hv'⟩ := Option.isSome_iff_exists.mp
      (Finmap.lookup_isSome.mpr ((h'.names k).mpr hk))
    have heq : (m'.lookup k).getD [] = (m.lookup k).getD [] := hvalues k hk
    rw [hv, hv'] at heq
    rw [hv, hv']
    exact congrArg some heq
  · rw [Finmap.lookup_eq_none.mpr fun hmem => hk ((h.names k).mp hmem),
      Finmap.lookup_eq_none.mpr fun hmem => hk ((h'.names k).mp hmem)]

/-- Where the router's relation is the one of templates, all the rest follows. -/
theorem matchesTemplate_of_fits (h : PathMatches registered.path received.path ↔
    List.Forall₂ (Fits parameterName (· ≠ [])) (splitPath registered.path)
      (splitPath received.path)) : MatchesTemplate received registered where
  distinct hnodup := by
    refine ⟨⟨fun hmatching => ?_, fun hassigns => ?_⟩, fun m hm => ⟨fun m' hm' => ?_, ?_⟩⟩
    · have hmatch := (matching_iff received registered).mp hmatching
      exact ⟨_, extraction_assigns hmatch (h.mp hmatch) hnodup⟩
    · obtain ⟨m, hm⟩ := hassigns
      exact (matching_iff received registered).mpr (h.mpr hm.fits)
    · exact hm.unique hm'
    · have hmatch := h.mpr hm.fits
      rw [extractParameters_extraction hmatch,
        hm.unique (extraction_assigns hmatch hm.fits hnodup)]
  repeated := (matching_iff received registered).trans h
  extracted hmatching := by
    have hmatch := (matching_iff received registered).mp hmatching
    exact ⟨_, extractParameters_extraction hmatch, extraction_lastOccurrences hmatch⟩

end

/-! ## Accepted URLs -/

theorem splitPath_parameter {name : Str} (h : '/' ∉ name) :
    splitPath ('/' :: ':' :: name) = [':' :: name] := by
  have hsplit : splitPath ([':' :: name].flatMap ('/' :: ·)) = [':' :: name] :=
    splitPath_flatMap (by simpa using h)
  rw [List.flatMap_singleton] at hsplit
  exact hsplit

/-- **When matching is filling a template.** For all accepted URLs, what is said of matching and of
extraction holds if and only if it is not the root `/` that is asked for with a pattern of one
parameter. -/
theorem matching_template_iff {target pattern : Str} {received registered : Url}
    (hreceived : parse target = .ok received) (hregistered : parse pattern = .ok registered) :
    MatchesTemplate received registered ↔
      ¬ (received.path = ['/'] ∧ ∃ name, '/' ∉ name ∧ registered.path = '/' :: ':' :: name) := by
  refine ⟨fun h hroot => ?_, fun hcond => matchesTemplate_of_fits ?_⟩
  · -- the parameter is bound to the empty segment
    obtain ⟨hpath, name, hname, hparameter⟩ := hroot
    have hrepeated := h.repeated
    rw [matching_iff] at hrepeated
    unfold PathMatches SegmentsMatch at hrepeated
    rw [hpath, hparameter, splitPath_root, splitPath_parameter hname, List.forall₂_cons,
      List.forall₂_cons] at hrepeated
    have hfits := (hrepeated.mp ⟨Or.inl rfl, .nil⟩).1
    have hhole : parameterName (':' :: name) = some name := rfl
    exact (fits_some hhole).mp hfits rfl
  · unfold PathMatches
    by_cases hpath : received.path = ['/']
    · rw [hpath, splitPath_root]
      refine segmentsMatch_root_iff fun name hone => hcond ⟨hpath, name, ?_⟩
      have hroot : registered.path ≠ ['/'] := by
        intro hroot
        rw [hroot, splitPath_root] at hone
        cases hone
      obtain ⟨segs, hsegs, heq, hsplit⟩ := parse_segments hregistered hroot
      rw [hone] at hsplit
      rw [← hsplit] at hsegs heq
      refine ⟨fun hmem => ?_, heq.trans (List.flatMap_singleton _ _)⟩
      exact segment_slashFree (hsegs _ List.mem_cons_self) (List.mem_cons_of_mem _ hmem)
    · obtain ⟨segs, hsegs, _, hsplit⟩ := parse_segments hreceived hpath
      refine segmentsMatch_iff _ _ fun t ht => ?_
      rw [hsplit] at ht
      exact (hsegs t ht).1

/-- The pattern `/users/:id` and a request for `/users/42`. -/
theorem matching_template_users : ∃ received registered, parse "/users/42".toList = .ok received ∧
    parse "/users/:id".toList = .ok registered ∧ MatchesTemplate received registered := by
  have hpiece : ∀ a b : Str, Word segmentChar a → Word segmentChar b →
      ∀ seg ∈ [a, b], Word segmentChar seg := by
    intro a b ha hb seg hseg
    rcases List.mem_cons.mp hseg with heq | hseg
    · rw [heq]
      exact ha
    · rw [List.mem_singleton.mp hseg]
      exact hb
  obtain ⟨received, hreceived, htarget⟩ := parse_join (List.cons_ne_nil _ _)
    (hpiece "users".toList "42".toList (by decide) (by decide))
  obtain ⟨registered, hregistered, _⟩ := parse_join (List.cons_ne_nil _ _)
    (hpiece "users".toList ":id".toList (by decide) (by decide))
  refine ⟨received, registered, hreceived, hregistered,
    (matching_template_iff hreceived hregistered).mpr fun hroot => ?_⟩
  rw [htarget] at hroot
  exact absurd hroot.1 (by decide)

/-- The pattern `/:x` matches a request for the root. -/
theorem matching_root : ¬ ∀ target pattern received registered, parse target = .ok received →
    parse pattern = .ok registered → MatchesTemplate received registered := by
  intro hall
  obtain ⟨received, hreceived, htarget⟩ := parse_slash
  obtain ⟨registered, hregistered, hpattern⟩ := parse_join (List.cons_ne_nil ":x".toList [])
    (fun seg hseg => by rw [List.mem_singleton.mp hseg]; decide)
  have hsplit : splitPath registered.path = [":x".toList] := by
    rw [hpattern]
    decide
  have hmatching : matching received registered = .ok true := by
    rw [matching_iff]
    unfold PathMatches
    rw [htarget, hsplit, splitPath_root]
    exact .cons (Or.inl rfl) .nil
  have hnodup : (parameterNames registered).Nodup := by
    unfold parameterNames
    rw [hsplit]
    exact List.nodup_singleton _
  obtain ⟨m, hm⟩ := (((hall _ _ _ _ hreceived hregistered).distinct hnodup).1).mp hmatching
  -- the root has no segment for `x`
  have hfits := hm.fits
  rw [htarget, hsplit, splitPath_root, List.forall₂_cons] at hfits
  have hhole : parameterName ":x".toList = some "x".toList := rfl
  exact (fits_some hhole).mp hfits.1 rfl

end Rest
