import SimpleRest.TargetParser

/-!
# SimpleREST — what becomes of a query

`parseQuery` is handed the query as a whole and reads two groups off it: the first pair and,
because a group inside a repetition keeps its last pass, the last of the further pairs. Each
is entered with the sides of its `=` exchanged. `query_entries` gives the resulting map for
every list of pairs; `query_decoding_iff` says for which lists it is the one the pairs spell.
-/

namespace Rest.ReducedUrlParser

open Cpp Regex

/-- `key=value` -/
def renderPair (kv : Str × Str) : Str := kv.1 ++ '=' :: kv.2

/-- The pairs joined by their separators. -/
def renderQuery (kv : Str × Str) (rest : List (Char × Str × Str)) : Str :=
  pairs (renderPair kv) (rest.map fun x => (x.1, renderPair x.2))

/-- All pairs of a query. -/
def allPairs (kv : Str × Str) (rest : List (Char × Str × Str)) : List (Str × Str) :=
  kv :: rest.map Prod.snd

/-- Word characters on the left of every `=`, word characters or `-` on the right, and `&` or
`;` in between. -/
def WellFormedPairs (kv : Str × Str) (rest : List (Char × Str × Str)) : Prop :=
  (∀ x ∈ allPairs kv rest, Word wordChar x.1 ∧ Word valueChar x.2) ∧
  ∀ x ∈ rest, IsSeparator x.1

/-- The map has exactly the entries the pairs spell: as many as there are pairs, and each key
bound to its value. -/
def Decodes (query : UnorderedMap Str Str) (kvs : List (Str × Str)) : Prop :=
  query.keys.card = kvs.length ∧ ∀ kv ∈ kvs, query.lookup kv.1 = some kv.2

/-- There are exactly two pairs, and exchanging the sides of their `=` gives the same two
pairs again: `a=a&b=b` or `a=b&b=a`. -/
def ExchangesToItself (kv : Str × Str) (rest : List (Char × Str × Str)) : Prop :=
  ∃ sep kv', rest = [(sep, kv')] ∧
    ((kv.2 = kv.1 ∧ kv'.2 = kv'.1) ∨ (kv.2 = kv'.1 ∧ kv'.2 = kv.1))

/-! ## The entries -/

theorem WellFormedPairs.isPairs {kv : Str × Str} {rest : List (Char × Str × Str)}
    (h : WellFormedPairs kv rest) :
    IsPairs (renderPair kv) (rest.map fun x => (x.1, renderPair x.2)) := by
  have hpair : ∀ x ∈ allPairs kv rest, IsPair (renderPair x) := by
    intro x hx
    obtain ⟨hk, hv⟩ := h.1 x hx
    exact ⟨x.1, x.2, hk, hv, rfl⟩
  refine ⟨hpair kv (by simp [allPairs]), ?_⟩
  intro x hx
  obtain ⟨y, hy, hyx⟩ := List.mem_map.mp hx
  rw [← hyx]
  exact ⟨h.2 y hy, hpair y.2 (by simp only [allPairs, List.mem_cons, List.mem_map]
                                 exact Or.inr ⟨y, hy, rfl⟩)⟩

/-- What group 2 of the expression stands for: the last further pair, or two empty sides. -/
def lastPair (rest : List (Char × Str × Str)) : Str × Str :=
  (rest.getLast?.map Prod.snd).getD ([], [])

/-- The map of a query: the first pair and the last further one, their sides exchanged. -/
def exchanged (kv : Str × Str) (rest : List (Char × Str × Str)) : UnorderedMap Str Str :=
  ((∅ : UnorderedMap Str Str).insert kv.2 kv.1).insert (lastPair rest).2 (lastPair rest).1

/-- **The map of a query**, entered into an empty map. -/
theorem query_entries {kv : Str × Str} {rest : List (Char × Str × Str)}
    (h : WellFormedPairs kv rest) {url : Url} (hurl : url.query = ∅) :
    parseQuery (renderQuery kv rest) url = .ok { url with query := exchanged kv rest } := by
  have hfirst : '=' ∉ kv.1 := wordChar_ne_equals (h.1 kv (by simp [allPairs])).1
  rw [parseQuery, renderQuery, regexMatch_query h.isPairs]
  simp only [List.foldlM_cons, List.foldlM_nil, bind, Except.bind]
  rw [renderPair, addQuery_pair url kv.2 hfirst, exchanged, lastPair, hurl]
  simp only [List.getLast?_map, Option.map_map]
  cases hlast : rest.getLast? with
  -- the group took no part: its pass enters the empty key
  | none => rfl
  | some x =>
    have hx : '=' ∉ x.2.1 := by
      have hmem : x.2 ∈ allPairs kv rest :=
        List.mem_cons_of_mem _ (List.mem_map_of_mem (List.mem_of_getLast? hlast))
      exact wordChar_ne_equals (h.1 x.2 hmem).1
    simp only [Option.map_some, Option.getD_some, Function.comp_apply, renderPair]
    rw [addQuery_pair _ x.2.2 hx]
    rfl

/-- The query of a string whose query part is the pairs, between any path and fragment. -/
theorem parse_query {P F : Str} {kv : Str × Str} {rest : List (Char × Str × Str)}
    (hP : IsPath P) (hF : IsFragment F) (h : WellFormedPairs kv rest) :
    ∃ u, parse (P ++ ('?' :: renderQuery kv rest ++ F)) = .ok u ∧
      u.query = exchanged kv rest := by
  have hdec : Decomposes (P ++ ('?' :: renderQuery kv rest ++ F)) P ('?' :: renderQuery kv rest) F :=
    ⟨rfl, hP, Or.inr ⟨_, _, h.isPairs, rfl⟩, hF⟩
  refine ⟨_, parse_decomposes hdec (m := exchanged kv rest) ?_, rfl⟩
  rw [runQuery, if_neg (by simp)]
  exact query_entries h rfl

/-! ## When the map is the one the pairs spell -/

theorem exchanged_lookup (kv : Str × Str) (rest : List (Char × Str × Str)) (k : Str) :
    (exchanged kv rest).lookup k =
      if k = (lastPair rest).2 then some (lastPair rest).1
      else if k = kv.2 then some kv.1 else none := by
  rw [exchanged, UnorderedMap.lookup_insert_eq, UnorderedMap.lookup_insert_eq, Finmap.lookup_empty]

theorem exchanged_card (kv : Str × Str) (rest : List (Char × Str × Str)) :
    (exchanged kv rest).keys.card = if kv.2 = (lastPair rest).2 then 1 else 2 := by
  rw [exchanged, UnorderedMap.keys_insert, UnorderedMap.keys_insert, Finmap.keys_empty]
  split
  · next heq =>
    rw [heq, Finset.insert_eq_of_mem (by simp)]
    rfl
  · next hne => rw [Finset.card_insert_of_notMem (by simpa using Ne.symm hne)]; rfl

/-- Only a list of two pairs can come out right: the map has at most two entries, and a single pair
brings the empty key along. -/
theorem two_of_decodes {kv : Str × Str} {rest : List (Char × Str × Str)} (hvalue : kv.2 ≠ [])
    (hdec : Decodes (exchanged kv rest) (allPairs kv rest)) : ∃ sep kv', rest = [(sep, kv')] := by
  have hcard := hdec.1
  rw [exchanged_card] at hcard
  rcases rest with _ | ⟨x, _ | ⟨y, rest⟩⟩
  · -- the value is a key beside the empty one
    rw [if_neg (show kv.2 ≠ (lastPair []).2 from hvalue)] at hcard
    simp [allPairs] at hcard
  · exact ⟨x.1, x.2, rfl⟩
  · have hlen : (allPairs kv (x :: y :: rest)).length = rest.length + 3 := by simp [allPairs]
    split at hcard <;> omega

/-- Two pairs come out right exactly when exchanging their sides gives them back. -/
theorem decodes_two_iff {kv kv' : Str × Str} (sep : Char) (hkeys : kv.1 ≠ kv'.1) :
    Decodes (exchanged kv [(sep, kv')]) (allPairs kv [(sep, kv')]) ↔
      (kv.2 = kv.1 ∧ kv'.2 = kv'.1) ∨ (kv.2 = kv'.1 ∧ kv'.2 = kv.1) := by
  have hlast : lastPair [(sep, kv')] = kv' := rfl
  refine ⟨?_, ?_⟩
  · intro hdec
    have hfirst := hdec.2 kv (by simp [allPairs])
    have hsecond := hdec.2 kv' (by simp [allPairs])
    rw [exchanged_lookup, hlast] at hfirst hsecond
    by_cases h1 : kv.1 = kv'.2
    · -- the first key is the second value: the pairs are each other's mirror image
      rw [if_pos h1] at hfirst
      exact Or.inr ⟨(Option.some.inj hfirst).symm, h1.symm⟩
    · rw [if_neg h1] at hfirst
      by_cases h2 : kv.1 = kv.2
      · refine Or.inl ⟨h2.symm, ?_⟩
        by_cases h3 : kv'.1 = kv'.2
        · exact h3.symm
        · rw [if_neg h3] at hsecond
          by_cases h4 : kv'.1 = kv.2
          · exact absurd (h2.trans h4.symm) hkeys
          · rw [if_neg h4] at hsecond
            exact absurd hsecond (by simp)
      · rw [if_neg h2] at hfirst
        exact absurd hfirst (by simp)
  · intro hcases
    have hvalues : kv.2 ≠ kv'.2 := by
      rcases hcases with ⟨h1, h2⟩ | ⟨h1, h2⟩
      · rw [h1, h2]
        exact hkeys
      · rw [h1, h2]
        exact hkeys.symm
    refine ⟨?_, ?_⟩
    · rw [exchanged_card, hlast, if_neg hvalues]
      rfl
    · intro z hz
      rw [exchanged_lookup, hlast]
      have hz : z = kv ∨ z = kv' := by simpa [allPairs] using hz
      rcases hcases with ⟨h1, h2⟩ | ⟨h1, h2⟩ <;> rcases hz with hz | hz
      · rw [hz, h1, h2, if_neg hkeys, if_pos rfl]
      · rw [hz, h2, if_pos rfl]
      · rw [hz, h1, h2, if_pos rfl]
      · rw [hz, h1, h2, if_neg hkeys.symm, if_pos rfl]

theorem keys_ne {kv kv' : Str × Str} {sep : Char}
    (hnodup : ((allPairs kv [(sep, kv')]).map Prod.fst).Nodup) : kv.1 ≠ kv'.1 := by
  have hn : [kv.1, kv'.1].Nodup := hnodup
  simpa using hn

/-- **For which pairs the decoding is faithful.** -/
theorem exchanged_decodes_iff {kv : Str × Str} {rest : List (Char × Str × Str)}
    (h : WellFormedPairs kv rest) (hnodup : ((allPairs kv rest).map Prod.fst).Nodup) :
    Decodes (exchanged kv rest) (allPairs kv rest) ↔ ExchangesToItself kv rest := by
  refine ⟨?_, ?_⟩
  · intro hdec
    have hvalue : kv.2 ≠ [] := (h.1 kv (by simp [allPairs])).2.1
    obtain ⟨sep, kv', hrest⟩ := two_of_decodes hvalue hdec
    rw [hrest] at hdec hnodup
    exact ⟨sep, kv', hrest, (decodes_two_iff sep (keys_ne hnodup)).mp hdec⟩
  · intro hself
    obtain ⟨sep, kv', hrest, hcases⟩ := hself
    rw [hrest] at hnodup ⊢
    exact (decodes_two_iff sep (keys_ne hnodup)).mpr hcases

/-- **The query map is the one the pairs spell exactly when there are two pairs that exchange
to themselves**, for every accepted path in front and every fragment behind. -/
theorem query_decoding_iff (P F : Str) (kv : Str × Str) (rest : List (Char × Str × Str))
    (hP : IsPath P) (hF : IsFragment F) (h : WellFormedPairs kv rest)
    (hnodup : ((allPairs kv rest).map Prod.fst).Nodup) :
    (∃ u, parse (P ++ ('?' :: renderQuery kv rest ++ F)) = .ok u ∧
      Decodes u.query (allPairs kv rest)) ↔ ExchangesToItself kv rest := by
  obtain ⟨u, hu, hquery⟩ := parse_query hP hF h
  rw [← exchanged_decodes_iff h hnodup, ← hquery]
  refine ⟨?_, ?_⟩
  · intro hdec
    obtain ⟨u', hu', hdec⟩ := hdec
    rw [hu] at hu'
    exact Except.ok.inj hu' ▸ hdec
  · intro hdec
    exact ⟨u, hu, hdec⟩

/-- `/users?sort=desc` comes out as `desc = sort` and an empty entry. -/
theorem query_decoding_users :
    ¬ ∃ u, parse "/users?sort=desc".toList = .ok u ∧
      Decodes u.query [("sort".toList, "desc".toList)] := by
  intro h
  obtain ⟨u, hu, _, hlookup⟩ := h
  have hcode : (parse "/users?sort=desc".toList).toOption.map (·.query.lookup "sort".toList) =
      some none := by decide
  rw [hu] at hcode
  have hsort := hlookup ("sort".toList, "desc".toList) (by simp)
  simp only [Except.toOption, Option.map_some, Option.some.injEq] at hcode
  rw [hcode] at hsort
  exact absurd hsort (by simp)

/-- `/?a=b&b=a` exchanges to itself, so it decodes faithfully. -/
theorem query_decoding_iff_mirror :
    ∃ u, parse "/?a=b&b=a".toList = .ok u ∧
      Decodes u.query [("a".toList, "b".toList), ("b".toList, "a".toList)] := by
  have hwell : WellFormedPairs (['a'], ['b']) [('&', ['b'], ['a'])] := by
    refine ⟨?_, ?_⟩
    · intro x hx
      have hx : x = (['a'], ['b']) ∨ x = (['b'], ['a']) := by simpa [allPairs] using hx
      rcases hx with hx | hx
      · rw [hx]
        exact ⟨by decide, by decide⟩
      · rw [hx]
        exact ⟨by decide, by decide⟩
    · intro x hx
      rw [List.mem_singleton.mp hx]
      exact Or.inl rfl
  exact (query_decoding_iff ['/'] [] (['a'], ['b']) [('&', ['b'], ['a'])] (Or.inr (Or.inl rfl))
    (Or.inl rfl) hwell (by decide)).mpr ⟨'&', (['b'], ['a']), rfl, Or.inr ⟨rfl, rfl⟩⟩

end Rest.ReducedUrlParser
