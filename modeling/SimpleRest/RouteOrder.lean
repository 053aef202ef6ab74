import SimpleRest.Lib.TemplateOrder
import SimpleRest.RouteChoice

/-!
# SimpleREST — which registrations matter, and when their order does

The first pattern that matches is taken, so a registration can be without effect because of what
has been registered before it, and two registrations can take requests from each other. Both can be
read off the patterns, with no request in hand: a pattern is a template, and a segment that no
pattern has tells a parameter from a segment that stands for itself.

- `serves_iff_fits`: a registration serves the targets that fit its template, the root included;
- `redundant_iff`: a registration changes nothing for any client, whatever is registered later, if
  and only if one earlier template of its method covers its own;
- `order_free_iff`: the order of registration does not matter to any client if and only if no two
  registrations are in conflict, which is decided on one common target.
-/

namespace Rest

open Cpp Regex FirstMatch Template InterfaceProvider ReducedUrlParser

variable {κ : Type}

/-! ## Templates -/

/-- The template that is registered, if the parser takes the pattern. -/
def Registration.pattern (r : Registration κ) : Option (List Str) :=
  match parse r.url with
  | .ok url => some (splitPath url.path)
  | .error _ => none

/-- What a registration has its callback called with. -/
def Registration.gives (target : Url) (r : Registration κ) : Option (κ × UnorderedMap Str Str) :=
  r.pattern.map fun p =>
    (r.callback, UnorderedMap.insertAll ∅ (segmentBindings p (splitPath target.path)))

/-- The router puts any segment in the place of a parameter. -/
abbrev FitsRoute (pattern target : List Str) : Prop :=
  List.Forall₂ (Fits parameterName fun _ => True) pattern target

theorem segmentMatches_fits (p t : Str) :
    SegmentMatches p t ↔ Fits parameterName (fun _ => True) p t := by
  unfold SegmentMatches
  cases hp : parameterName p with
  | none =>
    rw [fits_none hp]
    refine or_iff_right fun hfront => ?_
    rw [parameterName_eq, if_pos hfront] at hp
    cases hp
  | some name =>
    rw [fits_some hp, parameterName_some hp]
    exact iff_of_true (Or.inl rfl) trivial

section

variable {r : Registration κ} {method : Str} {target : Url} {p : List Str}

theorem Registration.pattern_eq_some :
    r.pattern = some p ↔ ∃ url, parse r.url = .ok url ∧ splitPath url.path = p := by
  unfold pattern
  cases parse r.url with
  | error fault => simp
  | ok url => simp

theorem Registration.pattern_pieces (h : r.pattern = some p) : IsPieces p := by
  obtain ⟨url, hurl, hsplit⟩ := pattern_eq_some.mp h
  rw [← hsplit]
  exact parse_pieces hurl

/-- **A registration serves what fits its template.** -/
theorem Registration.serves_iff_fits : r.Serves method target ↔
    r.verb.method = method ∧ ∃ p, r.pattern = some p ∧ FitsRoute p (splitPath target.path) := by
  have hmatches : ∀ pattern, PathMatches pattern target.path ↔
      FitsRoute (splitPath pattern) (splitPath target.path) := by
    intro pattern
    have hrel : SegmentMatches = Fits parameterName fun _ => True := by
      funext p t
      exact propext (segmentMatches_fits p t)
    unfold PathMatches SegmentsMatch
    rw [hrel]
  unfold Serves
  simp only [hmatches, pattern_eq_some]
  refine and_congr_right fun _ => ⟨fun h => ?_, fun h => ?_⟩
  · obtain ⟨url, hurl, hfits⟩ := h
    exact ⟨_, ⟨url, hurl, rfl⟩, hfits⟩
  · obtain ⟨_, ⟨url, hurl, rfl⟩, hfits⟩ := h
    exact ⟨url, hurl, hfits⟩

theorem Registration.chosen_gives {log : List (Registration κ)}
    (h : Earliest (Serves method target) log r) :
    chosen (registerAll log) method target = r.gives target := by
  obtain ⟨url, hurl, _⟩ := h.mem.2.2
  have hpattern : r.pattern = some (splitPath url.path) := pattern_eq_some.mpr ⟨url, hurl, rfl⟩
  rw [chosen_earliest h hurl, gives, hpattern]
  rfl

end

/-! ## Segments that no pattern has -/

/-- So many different segments, longer than those of `l`. -/
def newSegments (l : List Str) (k : Nat) : List Str :=
  (List.range k).map fun i => List.replicate (l.flatten.length + 1 + i) 'a'

theorem newSegments_length (l : List Str) (k : Nat) : (newSegments l k).length = k := by
  simp [newSegments]

theorem newSegments_nodup (l : List Str) (k : Nat) : (newSegments l k).Nodup := by
  refine List.Nodup.map (fun i i' h => ?_) List.nodup_range
  have hlen := congrArg List.length h
  rw [List.length_replicate, List.length_replicate] at hlen
  omega

theorem newSegments_word {l : List Str} {k : Nat} {a : Str} (h : a ∈ newSegments l k) :
    Word segmentChar a := by
  obtain ⟨i, _, rfl⟩ := List.mem_map.mp h
  refine ⟨?_, fun c hc => ?_⟩
  · rw [Nat.add_right_comm]
    exact List.cons_ne_nil _ _
  · rw [List.eq_of_mem_replicate hc]
    decide

theorem newSegments_notMem {l : List Str} {k : Nat} {a : Str} (h : a ∈ newSegments l k) :
    a ∉ l := by
  obtain ⟨i, _, rfl⟩ := List.mem_map.mp h
  intro hmem
  have hlen := (List.sublist_flatten_of_mem hmem).length_le
  rw [List.length_replicate] at hlen
  omega

/-! ## Registrations without effect -/

/-- A template with its holes filled is a path that is accepted. -/
theorem isPieces_fill {p : List Str} {value : Str → Str} (hp : IsPieces p)
    (hvalue : ∀ k ∈ holes parameterName p, Word segmentChar (value k)) :
    IsPieces (p.map (fill parameterName value)) := by
  rcases hp with hroot | hwords
  · rw [hroot]
    exact Or.inl rfl
  · refine Or.inr fun seg hseg => ?_
    obtain ⟨x, hx, rfl⟩ := List.mem_map.mp hseg
    cases hhole : parameterName x with
    | none =>
      rw [fill_none hhole]
      exact hwords x hx
    | some name =>
      rw [fill_some hhole]
      exact hvalue name (mem_holes.mpr ⟨x, hx, hhole⟩)

/-- **When a registration is redundant.** For every history of registrations: one more changes
nothing for any client, whatever is registered behind it and for all callbacks, if and only if its
pattern is rejected, or the pattern of a registration of the same method in front of it covers its
own, segment by segment. -/
theorem redundant_iff (before : List (Registration κ)) (r : Registration κ) :
    (∀ after, ServesAlike (before ++ r :: after) (before ++ after)) ↔
      ∀ p ∈ r.pattern, ∃ y ∈ before, y.verb = r.verb ∧ ∃ q ∈ y.pattern, Covers parameterName q p := by
  refine ⟨fun h p hp => ?_, fun h after => servesAlike_iff.mpr fun v s target _ => ?_⟩
  · -- a target that has a new segment for every parameter
    obtain ⟨a, ha⟩ : ∃ a, a ∈ newSegments (before.flatMap fun y => y.pattern.getD []) 1 :=
      ⟨_, List.mem_singleton.mpr rfl⟩
    obtain ⟨s, target, _, htarget, hsplit⟩ :=
      exists_target (isPieces_fill (Registration.pattern_pieces hp) fun _ _ => newSegments_word ha)
    have hserves : r.Serves r.verb.method target := by
      rw [Registration.serves_iff_fits]
      refine ⟨rfl, p, hp, ?_⟩
      rw [hsplit]
      exact fits_of_fill fun _ _ => trivial
    have hsame := servesAlike_iff.mp (h []) r.verb s target htarget
    have hsome : ¬ chosen (registerAll (before ++ [])) r.verb.method target = none := by
      rw [← hsame, chosen_eq_none_iff, not_not]
      exact ⟨r, List.mem_append_right before List.mem_cons_self, hserves⟩
    rw [chosen_eq_none_iff, not_not, List.append_nil] at hsome
    obtain ⟨y, hy, hyserves⟩ := hsome
    obtain ⟨hmethod, q, hq, hfits⟩ := Registration.serves_iff_fits.mp hyserves
    refine ⟨y, hy, Verb.method_injective hmethod, q, hq, ?_⟩
    rw [hsplit] at hfits
    refine covers_of_fill (fun x hx _ heq => newSegments_notMem ha ?_) hfits
    rw [← heq, List.mem_flatMap]
    exact ⟨y, hy, by rw [hq]; exact hx⟩
  · refine chosen_registerAll_congr fun r' => ?_
    by_cases hserves : r.Serves v.method target
    · -- one that has been registered in front of it serves first
      obtain ⟨hmethod, p, hp, hfits⟩ := Registration.serves_iff_fits.mp hserves
      obtain ⟨y, hy, hverb, q, hq, hcovers⟩ := h p hp
      have hyserves : y.Serves v.method target := by
        rw [Registration.serves_iff_fits, hverb]
        exact ⟨hmethod, q, hq, hcovers.fits (fun _ _ _ => trivial) hfits⟩
      obtain ⟨e, he⟩ := exists_earliest.mpr ⟨y, hy, hyserves⟩
      refine ⟨fun hr' => ?_, fun hr' => ?_⟩
      · rw [hr'.unique (he.append _)]
        exact he.append _
      · rw [hr'.unique (he.append _)]
        exact he.append _
    · exact earliest_middle hserves before after

/-! ## Registrations that take requests from each other -/

/-- A target that fits both templates, with a new segment for two parameters. -/
def commonTarget (p q : List Str) : List Str :=
  meet parameterName p q (newSegments (p ++ q) p.length)

/-- Two registrations of one method have a target in common, and do not have the same callback
called with the same parameters for it. -/
def Conflict (r r' : Registration κ) : Prop :=
  r.verb = r'.verb ∧ ∃ p ∈ r.pattern, ∃ q ∈ r'.pattern, Meets parameterName p q ∧
    (r.callback ≠ r'.callback ∨
      UnorderedMap.insertAll ∅ (segmentBindings p (commonTarget p q)) ≠
        UnorderedMap.insertAll ∅ (segmentBindings q (commonTarget p q)))

instance [DecidableEq κ] (r r' : Registration κ) : Decidable (Conflict r r') :=
  inferInstanceAs (Decidable (_ ∧ _))

theorem isPieces_common {p q : List Str} (h : Meets parameterName p q) (hp : IsPieces p)
    (hq : IsPieces q) : IsPieces (commonTarget p q) := by
  unfold commonTarget
  rcases hp with hroot | hwords
  · -- the root has a piece that is no parameter
    subst hroot
    obtain ⟨q, rfl⟩ := List.length_eq_one_iff.mp h.length_eq.symm
    exact Or.inl rfl
  · rcases hq with hroot | hwords'
    · subst hroot
      obtain ⟨x, rfl⟩ := List.length_eq_one_iff.mp h.length_eq
      have hempty : ∀ a, meetAt parameterName x [] a = [] := by
        intro a
        rcases meetAt_cases parameterName x [] a with ⟨hx, hm⟩ | ⟨_, _, hm⟩ | ⟨_, hnil, _⟩
        · cases h with
          | cons hhead _ =>
            rcases hhead with hx' | hnil | heq
            · exact absurd hx hx'
            · exact absurd rfl hnil
            · exact hm.trans heq
        · exact hm
        · exact absurd rfl hnil
      exact Or.inl (congrArg (fun seg => [seg]) (hempty _))
    · refine Or.inr fun seg hseg => ?_
      rcases mem_meet hseg with ⟨hmem, _⟩ | hnew
      · exact hmem.elim (hwords seg) (hwords' seg)
      · exact newSegments_word hnew

/-- **One target decides**: two registrations that are not in conflict agree on every target that
both of them serve. -/
theorem not_conflict_iff {r r' : Registration κ} (hverb : r.verb = r'.verb) :
    ¬ Conflict r r' ↔ ∀ s target, parse s = .ok target → r.Serves r.verb.method target →
      r'.Serves r.verb.method target → r.gives target = r'.gives target := by
  refine ⟨fun h s target _ hserves hserves' => ?_, fun h hconflict => ?_⟩
  · obtain ⟨_, p, hp, hfits⟩ := Registration.serves_iff_fits.mp hserves
    obtain ⟨_, q, hq, hfits'⟩ := Registration.serves_iff_fits.mp hserves'
    have hboth : r.callback = r'.callback ∧
        UnorderedMap.insertAll ∅ (segmentBindings p (commonTarget p q)) =
          UnorderedMap.insertAll ∅ (segmentBindings q (commonTarget p q)) := by
      by_contra hne
      exact h ⟨hverb, p, hp, q, hq, .of_fits hfits hfits', not_and_or.mp hne⟩
    -- the target is made from the common one by putting segments in for the new ones
    have hσ : ∃ σ : Str → Str, (commonTarget p q).map σ = splitPath target.path := by
      obtain ⟨σ, hσ, _⟩ := exists_map_meet (newSegments_nodup (p ++ q) p.length) hfits hfits'
        (newSegments_length _ _).ge fun x hx _ hmem =>
          newSegments_notMem hmem (List.mem_append.mpr hx)
      exact ⟨σ, hσ⟩
    obtain ⟨σ, hσ⟩ := hσ
    have hparameters : UnorderedMap.insertAll ∅ (segmentBindings p (splitPath target.path)) =
        UnorderedMap.insertAll ∅ (segmentBindings q (splitPath target.path)) := by
      rw [segmentBindings_eq, segmentBindings_eq] at hboth ⊢
      rw [← hσ, bindings_map, bindings_map]
      refine Finmap.ext_lookup fun k => ?_
      rw [UnorderedMap.lookup_insertAll_map, UnorderedMap.lookup_insertAll_map, hboth.2]
    unfold Registration.gives
    rw [hp, hq]
    exact congrArg some (Prod.ext hboth.1 hparameters)
  · obtain ⟨_, p, hp, q, hq, hmeets, hne⟩ := hconflict
    obtain ⟨s, target, _, htarget, hsplit⟩ := exists_target
      (isPieces_common hmeets (Registration.pattern_pieces hp) (Registration.pattern_pieces hq))
    have hfits : FitsRoute p (commonTarget p q) ∧ FitsRoute q (commonTarget p q) :=
      hmeets.fits (newSegments_length _ _).ge fun _ _ => trivial
    rw [← hsplit] at hfits
    have hsame := h s target htarget (Registration.serves_iff_fits.mpr ⟨rfl, p, hp, hfits.1⟩)
      (Registration.serves_iff_fits.mpr ⟨congrArg Verb.method hverb.symm, q, hq, hfits.2⟩)
    unfold Registration.gives at hsame
    rw [hp, hq, hsplit] at hsame
    have hpair := Prod.mk.inj (Option.some.inj hsame)
    exact hne.elim (fun hcallback => hcallback hpair.1) fun hparameters => hparameters hpair.2

/-- **When the order of registration does not matter.** For every history of registrations: every
order of the same registrations serves all clients alike, for all callbacks, if and only if no two
of them are in conflict: of one method, with a target in common that they have different callbacks
or different parameters for. -/
theorem order_free_iff (log : List (Registration κ)) :
    (∀ log', log'.Perm log → ServesAlike log' log) ↔ ∀ r ∈ log, ∀ r' ∈ log, ¬ Conflict r r' := by
  refine ⟨fun h r hr r' hr' hconflict => ?_, fun h log' hperm => ?_⟩
  · -- each of the two can be the first of all
    have hfirst : ∀ x ∈ log, ∀ s target, parse s = .ok target →
        x.Serves r.verb.method target →
        x.gives target = chosen (registerAll log) r.verb.method target := by
      intro x hx s target htarget hserves
      obtain ⟨before, behind, hlog⟩ := List.append_of_mem hx
      have hperm : (x :: (before ++ behind)).Perm log := by
        rw [hlog]
        exact List.perm_middle.symm
      rw [← servesAlike_iff.mp (h _ hperm) r.verb s target htarget,
        Registration.chosen_gives (earliest_cons_of_pos _ hserves)]
    refine (not_conflict_iff hconflict.1).mpr (fun s target htarget hserves hserves' => ?_) hconflict
    rw [hfirst r hr s target htarget hserves, hfirst r' hr' s target htarget hserves']
  · refine servesAlike_iff.mpr fun v s target htarget => ?_
    by_cases hserves : ∃ r ∈ log, r.Serves v.method target
    · obtain ⟨r, hr⟩ := exists_earliest.mpr hserves
      obtain ⟨x, hx, hxserves⟩ := hserves
      obtain ⟨r', hr'⟩ := exists_earliest.mpr ⟨x, hperm.mem_iff.mpr hx, hxserves⟩
      have hverb : r'.verb.method = v.method := hr'.mem.2.1
      have hsame : r'.verb = r.verb :=
        Verb.method_injective (hverb.trans hr.mem.2.1.symm)
      rw [Registration.chosen_gives hr', Registration.chosen_gives hr]
      refine (not_conflict_iff hsame).mp (h r' (hperm.mem_iff.mp hr'.mem.1) r hr.mem.1) s target
        htarget ?_ ?_
      · rw [hverb]
        exact hr'.mem.2
      · rw [hverb]
        exact hr.mem.2
    · rw [chosen_none hserves, chosen_none fun hserves' => hserves ?_]
      obtain ⟨x, hx, hxserves⟩ := hserves'
      exact ⟨x, hperm.mem_iff.mp hx, hxserves⟩

end Rest
