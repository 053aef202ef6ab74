import SimpleRest.TargetGrammar

/-!
# SimpleREST — the target parser computes the decomposition

`regexMatch_url` and `regexMatch_query` give the sub-matches of the two expressions; with
them `parse` and `parseQuery` are evaluated on an arbitrary string (`parse_decomposes`,
`parse_rejects`, `parseQuery_ok`). `parse_grammar` is assembled from these.
-/

namespace Rest.ReducedUrlParser

open Cpp Regex

/-! ## The sub-matches of the expression of `parse` -/

/-- The expression behind the path. -/
def tailRegex : Regex Char := .seq (.opt (.group 2 queryGroup)) (.opt (.group 3 fragmentGroup))

theorem consumes_tail {w : Str} {c c' : Captures Char} :
    Consumes tailRegex w c c' ↔
      ∃ Q F, w = Q ++ F ∧ IsQuery Q ∧ IsFragment F ∧ c' = keep (keep c 2 Q) 3 F := by
  have hquery : ∀ {w : Str} {c c' : Captures Char},
      Consumes (.opt (.group 2 queryGroup)) w c c' ↔ IsQuery w ∧ c' = keep c 2 w :=
    consumes_opt_group plain_queryGroup (by rintro w ⟨p, l, _, hw⟩; simp [hw]) 2
  have hfragment : ∀ {w : Str} {c c' : Captures Char},
      Consumes (.opt (.group 3 fragmentGroup)) w c c' ↔ IsFragment w ∧ c' = keep c 3 w :=
    consumes_opt_group plain_fragmentGroup (by rintro w ⟨v, _, hw⟩; simp [hw]) 3
  rw [tailRegex, consumes_seq]
  refine ⟨?_, ?_⟩
  · intro h
    obtain ⟨Q, F, c₁, hw, hQ, hF⟩ := h
    rw [hquery] at hQ
    rw [hfragment] at hF
    exact ⟨Q, F, hw, hQ.1, hF.1, by rw [hF.2, hQ.2]⟩
  · intro h
    obtain ⟨Q, F, hw, hQ, hF, hc⟩ := h
    exact ⟨Q, F, keep c 2 Q, hw, hquery.mpr ⟨hQ, rfl⟩, hfragment.mpr ⟨hF, hc⟩⟩

/-- A path expression in front of the tail decomposes the string, whatever it captures. -/
theorem consumes_path_tail {a : Regex Char} {L : Str → Prop} {f : Str → Captures Char}
    {c : Captures Char} (ha : ∀ w c', Consumes a w c c' ↔ L w ∧ c' = f w) {s : Str}
    {c' : Captures Char} :
    Consumes (.seq a tailRegex) s c c' ↔
      ∃ P Q F, L P ∧ s = P ++ (Q ++ F) ∧ IsQuery Q ∧ IsFragment F ∧
        c' = keep (keep (f P) 2 Q) 3 F := by
  rw [consumes_seq]
  refine ⟨?_, ?_⟩
  · intro h
    obtain ⟨P, w, c₁, hs, hP, hw⟩ := h
    obtain ⟨hL, hc₁⟩ := (ha P c₁).mp hP
    obtain ⟨Q, F, hw, hQ, hF, hc⟩ := consumes_tail.mp hw
    exact ⟨P, Q, F, hL, by rw [hs, hw], hQ, hF, by rw [hc, hc₁]⟩
  · intro h
    obtain ⟨P, Q, F, hL, hs, hQ, hF, hc⟩ := h
    exact ⟨P, Q ++ F, f P, hs, (ha P _).mpr ⟨hL, rfl⟩, consumes_tail.mpr ⟨Q, F, rfl, hQ, hF, hc⟩⟩

/-- No group has taken part. -/
def noCaptures : Captures Char := fun _ => none

theorem consumes_captured {w : Str} {c c' : Captures Char} :
    Consumes (.group 1 pathGroup) w c c' ↔ (w = ['/'] ∨ IsSegments w) ∧ c' = c.set 1 w := by
  rw [consumes_group]
  refine ⟨?_, ?_⟩
  · intro h
    obtain ⟨c₁, hw, hc⟩ := h
    obtain ⟨hL, hc₁⟩ := (plain_pathGroup w c c₁).mp hw
    exact ⟨hL, by rw [hc, hc₁]⟩
  · intro h
    exact ⟨c, (plain_pathGroup w c c).mpr ⟨h.1, rfl⟩, h.2⟩

theorem isSegments_ne_nil {w : Str} (h : IsSegments w) : w ≠ [] := by
  obtain ⟨segs, hne, _, hw⟩ := h
  cases segs with
  | nil => exact absurd rfl hne
  | cons s segs => simp [hw]

/-- **The captures of an accepted string are its path, query and fragment.** The branch that
captures the path is tried first and takes every non-empty path; the bare `/` behind it is
reached only when the path is empty, and then fails. -/
theorem fullMatch_url {s P Q F : Str} (h : Decomposes s P Q F) :
    urlRegex.fullMatch s noCaptures =
      some (keep (keep (keep noCaptures 1 P) 2 Q) 3 F) := by
  have hsplit : urlRegex.fullMatch s noCaptures =
      (((seq (.group 1 pathGroup) tailRegex).fullMatch s noCaptures).or
        ((seq (chr '/') tailRegex).fullMatch s noCaptures)).or
        ((seq .eps tailRegex).fullMatch s noCaptures) := by
    rw [show urlRegex = seq (.alt (.alt (.group 1 pathGroup) (chr '/')) .eps) tailRegex from rfl,
      fullMatch_seq_alt, fullMatch_seq_alt]
  -- every way of a branch is a decomposition, and there is only one
  have hbranch : ∀ {a : Regex Char} {L : Str → Prop} {f : Str → Captures Char},
      (∀ w c', Consumes a w noCaptures c' ↔ L w ∧ c' = f w) → (∀ w, L w → IsPath w) →
      ∀ c', Consumes (seq a tailRegex) s noCaptures c' →
        L P ∧ c' = keep (keep (f P) 2 Q) 3 F := by
    intro a L f ha hL c' hc
    obtain ⟨P', Q', F', hP', hs, hQ', hF', hc'⟩ := (consumes_path_tail ha).mp hc
    obtain ⟨hP, hQ, hF⟩ := h.unique ⟨hs, hL P' hP', hQ', hF'⟩
    rw [hP, hQ, hF]
    exact ⟨hP', hc'⟩
  have hcaptured : ∀ w c', Consumes (.group 1 pathGroup) w noCaptures c' ↔
      (w = ['/'] ∨ IsSegments w) ∧ c' = noCaptures.set 1 w := fun _ _ => consumes_captured
  have hslash : ∀ w c', Consumes (chr '/') w noCaptures c' ↔ w = ['/'] ∧ c' = noCaptures :=
    fun w c' => plain_chr '/' w noCaptures c'
  have hempty : ∀ w c', Consumes (.eps : Regex Char) w noCaptures c' ↔ w = [] ∧ c' = noCaptures :=
    fun _ _ => consumes_eps
  rw [hsplit]
  by_cases hP : P = []
  · have hfirst : (seq (.group 1 pathGroup) tailRegex).fullMatch s noCaptures = none := by
      rw [fullMatch_eq_none_iff]
      intro c' hc
      have hL := (hbranch hcaptured (fun w hw => Or.inr hw) c' hc).1
      rw [hP] at hL
      rcases hL with hL | hL
      · simp at hL
      · exact isSegments_ne_nil hL rfl
    have hsecond : (seq (chr '/') tailRegex).fullMatch s noCaptures = none := by
      rw [fullMatch_eq_none_iff]
      intro c' hc
      have hL := (hbranch hslash (fun w hw => Or.inr (Or.inl hw)) c' hc).1
      rw [hP] at hL
      simp at hL
    rw [hfirst, hsecond, Option.none_or, Option.none_or]
    have hthis : Consumes (seq .eps tailRegex) s noCaptures (keep (keep noCaptures 2 Q) 3 F) :=
      (consumes_path_tail hempty).mpr ⟨[], Q, F, rfl, by rw [← hP]; exact h.eq, h.query, h.fragment,
        rfl⟩
    rw [hP, show keep noCaptures 1 [] = noCaptures from rfl]
    exact fullMatch_eq_some hthis fun c' hc =>
      (hbranch hempty (fun w hw => Or.inl hw) c' hc).2
  · have hL : P = ['/'] ∨ IsSegments P := h.path.resolve_left hP
    have hkeep : keep noCaptures 1 P = noCaptures.set 1 P := by rw [keep, if_neg hP]
    have hfirst : (seq (.group 1 pathGroup) tailRegex).fullMatch s noCaptures =
        some (keep (keep (keep noCaptures 1 P) 2 Q) 3 F) := by
      rw [hkeep]
      refine fullMatch_eq_some ?_ fun c' hc => (hbranch hcaptured (fun w hw => Or.inr hw) c' hc).2
      exact (consumes_path_tail hcaptured).mpr ⟨P, Q, F, hL, h.eq, h.query, h.fragment, rfl⟩
    rw [hfirst, Option.some_or, Option.some_or]

theorem regexMatch_url {s P Q F : Str} (h : Decomposes s P Q F) :
    regexMatch 3 urlRegex s = some [P, Q, F] := by
  rw [regexMatch, show (fun _ => none : Captures Char) = noCaptures from rfl, fullMatch_url h]
  have hP : ((keep (keep (keep noCaptures 1 P) 2 Q) 3 F) 1).getD [] = P := by
    rw [keep_other _ _ (by decide), keep_other _ _ (by decide), keep_same]
    split
    · next hnil => rw [hnil]; rfl
    · rfl
  have hQ : ((keep (keep (keep noCaptures 1 P) 2 Q) 3 F) 2).getD [] = Q := by
    rw [keep_other _ _ (by decide), keep_same, keep_other _ _ (by decide)]
    split
    · next hnil => rw [hnil]; rfl
    · rfl
  have hF : ((keep (keep (keep noCaptures 1 P) 2 Q) 3 F) 3).getD [] = F := by
    rw [keep_same, keep_other _ _ (by decide), keep_other _ _ (by decide)]
    split
    · next hnil => rw [hnil]; rfl
    · rfl
  simp only [Option.map_some, List.range, List.range.loop, List.map_cons, List.map_nil, hP, hQ, hF]

theorem regexMatch_url_none {s : Str} (h : ∀ P Q F, ¬ Decomposes s P Q F) :
    regexMatch 3 urlRegex s = none := by
  rw [regexMatch, Option.map_eq_none_iff, fullMatch_eq_none_iff]
  intro c' hc
  rw [show urlRegex = seq (.alt (.alt (.group 1 pathGroup) (chr '/')) .eps) tailRegex from rfl] at hc
  obtain ⟨P, w, c₁, hs, hP, hw⟩ := consumes_seq.mp hc
  obtain ⟨Q, F, hw, hQ, hF, _⟩ := consumes_tail.mp hw
  refine h P Q F ⟨by rw [hs, hw], ?_, hQ, hF⟩
  rw [consumes_alt, consumes_alt] at hP
  -- whichever branch took the path, it is one of the grammar
  rcases hP with (hP | hP) | hP
  · exact Or.inr (consumes_captured.mp hP).1
  · exact Or.inr (Or.inl ((plain_chr '/' _ _ _).mp hP).1)
  · exact Or.inl (consumes_eps.mp hP).1

/-! ## The sub-matches of the expression of `parseQuery` -/

theorem consumes_query {w : Str} {c c' : Captures Char} :
    Consumes queryRegex w c c' ↔
      ∃ p l, IsPairs p l ∧ w = pairs p l ∧
        c' = (l.getLast?.map fun x => (c.set 1 p).set 2 x.2).getD (c.set 1 p) := by
  have hsep : ∀ w : Str, (∃ d, IsSeparator d ∧ w = [d]) → w ≠ [] := by
    intro w h
    obtain ⟨d, _, hw⟩ := h
    simp [hw]
  rw [queryRegex, consumes_seq]
  refine ⟨?_, ?_⟩
  · intro h
    obtain ⟨p, r, c₁, hw, hp, hr⟩ := h
    obtain ⟨c₀, hp, hc₁⟩ := consumes_group.mp hp
    obtain ⟨hp, hc₀⟩ := (plain_pair _ _ _).mp hp
    obtain ⟨l, hl, hr, hc'⟩ := (consumes_star_group plain_separator plain_pair hsep 2).mp hr
    -- a separator is a word of one character
    have hlist : ∃ l' : List (Char × Str), l = l'.map (fun x => ([x.1], x.2)) ∧
        ∀ x ∈ l', IsSeparator x.1 ∧ IsPair x.2 := by
      clear hr hc' hw
      induction l with
      | nil => exact ⟨[], rfl, by simp⟩
      | cons x l ih =>
        obtain ⟨l', hl', hall⟩ := ih fun y hy => hl y (List.mem_cons_of_mem x hy)
        obtain ⟨⟨d, hd, hx⟩, hpair⟩ := hl x (by simp)
        refine ⟨(d, x.2) :: l', by rw [List.map_cons, ← hl', ← hx], ?_⟩
        intro y hy
        rcases List.mem_cons.mp hy with hy | hy
        · exact hy ▸ ⟨hd, hpair⟩
        · exact hall y hy
    obtain ⟨l', hl', hall⟩ := hlist
    refine ⟨p, l', ⟨hp, hall⟩, ?_, ?_⟩
    · rw [hw, hr, hl', List.flatMap_map]
      rfl
    · rw [hc', hc₁, hc₀, hl', List.getLast?_map, Option.map_map]
      rfl
  · intro h
    obtain ⟨p, l, hpl, hw, hc'⟩ := h
    refine ⟨p, _, c.set 1 p, hw, consumes_group.mpr ⟨c, (plain_pair _ _ _).mpr ⟨hpl.1, rfl⟩, rfl⟩,
      (consumes_star_group plain_separator plain_pair hsep 2).mpr ?_⟩
    refine ⟨l.map fun x => ([x.1], x.2), ?_, by rw [List.flatMap_map]; rfl, ?_⟩
    · intro x hx
      obtain ⟨y, hy, hyx⟩ := List.mem_map.mp hx
      rw [← hyx]
      exact ⟨⟨y.1, (hpl.2 y hy).1, rfl⟩, (hpl.2 y hy).2⟩
    · rw [hc', List.getLast?_map, Option.map_map]
      rfl

/-- **Group 1 holds the first pair, group 2 the last of the further ones.** -/
theorem regexMatch_query {p : Str} {l : List (Char × Str)} (h : IsPairs p l) :
    regexMatch 2 queryRegex (pairs p l) = some [p, (l.getLast?.map Prod.snd).getD []] := by
  have hmatch : queryRegex.fullMatch (pairs p l) noCaptures = some
      ((l.getLast?.map fun x => (noCaptures.set 1 p).set 2 x.2).getD (noCaptures.set 1 p)) := by
    refine fullMatch_eq_some (consumes_query.mpr ⟨p, l, h, rfl, rfl⟩) fun c' hc => ?_
    obtain ⟨p', l', h', heq, hc'⟩ := consumes_query.mp hc
    obtain ⟨hp, hl⟩ := pairs_unique h h' heq
    rw [hc', hp, hl]
  rw [regexMatch, show (fun _ => none : Captures Char) = noCaptures from rfl, hmatch]
  cases l.getLast? with
  | none => rfl
  | some x => rfl

/-! ## `parseQuery` on a list of pairs -/

/-- One pass of the loop on `key=value`: the text behind the first `=` becomes the key of the
entry and the text in front of it the value. -/
theorem addQuery_pair (url : Url) {k : Str} (v : Str) (hk : '=' ∉ k) :
    addQuery url (k ++ '=' :: v) = .ok { url with query := url.query.insert v k } := by
  have hkey : substr (k ++ '=' :: v) (Pos.succ (some k.length)) none = .ok v := by
    simp [substr, substr?, Pos.succ]
  have hvalue : substr (k ++ '=' :: v) 0 (some k.length) = .ok k := by
    simp [substr]
  simp only [addQuery, find_append hk, hkey, hvalue]
  rfl

theorem wordChar_ne_equals {k : Str} (h : Word wordChar k) : '=' ∉ k := by
  intro hk
  exact absurd (h.2 '=' hk) (by decide)

/-- Every pass of the loop returns and touches the query only. -/
theorem addQuery_ok (url : Url) (i : Str) :
    ∃ m, addQuery url i = .ok { url with query := m } := by
  by_cases h : '=' ∈ i
  · obtain ⟨k, v, hi, hk⟩ := List.eq_append_cons_of_mem h
    exact ⟨_, by rw [hi, addQuery_pair url v hk]⟩
  · have hpos : find i '=' = none := find_eq_none.mpr h
    have hkey : substr i (Pos.succ none) none = .ok i := by simp [substr, Pos.succ]
    have hvalue : substr i 0 none = .ok i := by simp [substr]
    refine ⟨url.query.insert i i, ?_⟩
    simp only [addQuery, hpos, hkey, hvalue]
    rfl

theorem parseQuery_ok (query : Str) (url : Url) :
    ∃ m, parseQuery query url = .ok { url with query := m } := by
  unfold parseQuery
  cases regexMatch 2 queryRegex query with
  | none => exact ⟨url.query, rfl⟩
  | some subMatches =>
    simp only
    induction subMatches generalizing url with
    | nil => exact ⟨url.query, rfl⟩
    | cons i rest ih =>
      obtain ⟨m, hm⟩ := addQuery_ok url i
      obtain ⟨m', hm'⟩ := ih { url with query := m }
      refine ⟨m', ?_⟩
      rw [List.foldlM_cons, hm]
      exact hm'

/-! ## `parse` on an arbitrary string -/

theorem classify_path {P : Str} (h : IsPath P) :
    classify P = .ok (if P = [] then .unused else .path P) := by
  have hslash : ∀ p : Str, classify ('/' :: p) = .ok (.path ('/' :: p)) := fun _ => rfl
  cases P with
  | nil => rfl
  | cons c p =>
    have hc : c = '/' := by
      rcases h with h | h | ⟨segs, hne, _, h⟩
      · simp at h
      · exact (List.cons.inj h).1
      · cases segs with
        | nil => exact absurd rfl hne
        | cons s segs => exact (List.cons.inj h).1
    rw [hc, hslash, if_neg (by simp)]

theorem classify_query {Q : Str} (h : IsQuery Q) :
    classify Q = .ok (if Q = [] then .unused else .query (Q.drop 1)) := by
  cases Q with
  | nil => rfl
  | cons c q =>
    have hc : c = '?' := h.head? c rfl
    have hsub : substr ('?' :: q) 1 (some (('?' :: q).length - 1)) = .ok q := by
      rw [substr, substr?_one]
    rw [hc, if_neg (by simp), classify, if_neg (by simp), if_pos (by simp), hsub]
    rfl

theorem classify_fragment {F : Str} (h : IsFragment F) :
    classify F = .ok (if F = [] then .unused else .fragment (F.drop 1)) := by
  cases F with
  | nil => rfl
  | cons c f =>
    have hc : c = '#' := h.head? c rfl
    have hsub : substr ('#' :: f) 1 (some (('#' :: f).length - 1)) = .ok f := by
      rw [substr, substr?_one]
    rw [hc, if_neg (by simp), classify, if_neg (by simp), if_neg (by simp), if_pos (by simp), hsub]
    rfl

/-- The query of an accepted string, run when there is one. -/
def runQuery (s P Q : Str) : Except Fault Url :=
  if Q = [] then .ok { url := s, path := P } else parseQuery (Q.drop 1) { url := s, path := P }

theorem runQuery_ok (s P Q : Str) : ∃ m, runQuery s P Q = .ok { url := s, path := P, query := m } := by
  unfold runQuery
  split
  · exact ⟨∅, rfl⟩
  · exact parseQuery_ok (Q.drop 1) { url := s, path := P }

/-- **`parse` on an accepted string.** The path is stored as it stands, the query is run on
the text behind its `?`, and the fragment is stored without its `#`. -/
theorem parse_decomposes {s P Q F : Str} (h : Decomposes s P Q F) {m : UnorderedMap Str Str}
    (hm : runQuery s P Q = .ok { url := s, path := P, query := m }) :
    parse s = .ok { url := s, path := P, query := m, fragment := F.drop 1 } := by
  -- the three passes of the loop, in order
  have hpath : (SubMatch.store { url := s } (if P = [] then .unused else .path P)) =
      .ok { url := s, path := P } := by
    split
    · next hP => rw [hP]; rfl
    · rfl
  have hquery : SubMatch.store { url := s, path := P } (if Q = [] then .unused
      else .query (Q.drop 1)) = .ok { url := s, path := P, query := m } := by
    rw [← hm, runQuery]
    split <;> rfl
  have hfragment : SubMatch.store { url := s, path := P, query := m } (if F = [] then .unused
      else .fragment (F.drop 1)) = .ok { url := s, path := P, query := m, fragment := F.drop 1 } := by
    split
    · next hF => rw [hF]; rfl
    · rfl
  rw [parse, regexMatch_url h]
  simp only [List.foldlM_cons, List.foldlM_nil, classify_path h.path, classify_query h.query,
    classify_fragment h.fragment]
  simp only [bind, Except.bind, hpath, hquery, hfragment]
  rfl

theorem parse_rejects {s : Str} (h : ∀ P Q F, ¬ Decomposes s P Q F) :
    parse s = .error (.invalidArgument "Not a valid sub url".toList) := by
  rw [parse, regexMatch_url_none h]
  rfl

theorem parseQueryRuns_decomposes {s P Q F : Str} (h : Decomposes s P Q F) :
    parseQueryRuns s = if Q = [] then [] else [Q.drop 1] := by
  rw [parseQueryRuns, regexMatch_url h]
  simp only [Option.getD_some, List.filterMap_cons, List.filterMap_nil, classify_path h.path,
    classify_query h.query, classify_fragment h.fragment]
  by_cases hP : P = [] <;> by_cases hQ : Q = [] <;> by_cases hF : F = [] <;> simp [hP, hQ, hF]

/-- An accepted string decomposes, and a rejected one is thrown back as an invalid argument. -/
theorem parse_cases (s : Str) :
    (∃ P Q F u, Decomposes s P Q F ∧ parse s = .ok u ∧ u.url = s ∧ u.path = P ∧
      u.fragment = F.drop 1) ∨
    ((∀ P Q F, ¬ Decomposes s P Q F) ∧
      parse s = .error (.invalidArgument "Not a valid sub url".toList)) := by
  by_cases h : ∃ P Q F, Decomposes s P Q F
  · obtain ⟨P, Q, F, hdec⟩ := h
    obtain ⟨m, hm⟩ := runQuery_ok s P Q
    exact Or.inl ⟨P, Q, F, _, hdec, parse_decomposes hdec hm, rfl, rfl, rfl⟩
  · right
    have hnone : ∀ P Q F, ¬ Decomposes s P Q F := fun P Q F hdec => h ⟨P, Q, F, hdec⟩
    exact ⟨hnone, parse_rejects hnone⟩

/-! ## The parser accepts exactly the grammar -/

/-- **Acceptance, uniqueness and result.** `parse` returns exactly on the strings of the
grammar and throws `std::invalid_argument` on all others. The decomposition is unique, and
the result carries the string, its path as it stands (`/` included), its fragment without
`#`, and a query that was run exactly when there is one. -/
theorem parse_grammar (s : Str) :
    ((∃ u, parse s = .ok u) ↔ ∃ P Q F, Decomposes s P Q F) ∧
    ((¬ ∃ P Q F, Decomposes s P Q F) →
      parse s = .error (.invalidArgument "Not a valid sub url".toList)) ∧
    (∀ P Q F P' Q' F', Decomposes s P Q F → Decomposes s P' Q' F' →
      P = P' ∧ Q = Q' ∧ F = F') ∧
    (∀ P Q F, Decomposes s P Q F → ∃ u, parse s = .ok u ∧ u.url = s ∧ u.path = P ∧
      u.fragment = F.drop 1 ∧ parseQueryRuns s = (if Q = [] then [] else [Q.drop 1]) ∧
      runQuery s P Q = .ok { u with fragment := [] }) := by
  refine ⟨?_, ?_, fun P Q F P' Q' F' h h' => h.unique h', ?_⟩
  · rcases parse_cases s with ⟨P, Q, F, u, hdec, hu, _⟩ | ⟨hnone, herror⟩
    · exact ⟨fun _ => ⟨P, Q, F, hdec⟩, fun _ => ⟨u, hu⟩⟩
    · refine ⟨?_, ?_⟩
      · intro h
        obtain ⟨u, hu⟩ := h
        rw [herror] at hu
        exact absurd hu (by simp)
      · intro h
        obtain ⟨P, Q, F, hdec⟩ := h
        exact absurd hdec (hnone P Q F)
  · intro h
    exact parse_rejects fun P Q F hdec => h ⟨P, Q, F, hdec⟩
  · intro P Q F hdec
    -- the query may be run with whatever result, it does not touch the rest
    obtain ⟨m, hm⟩ := runQuery_ok s P Q
    exact ⟨_, parse_decomposes hdec hm, rfl, rfl, rfl, parseQueryRuns_decomposes hdec, hm⟩

/-- The root path is stored as `/`: it is not turned into the empty path. -/
theorem parse_root_keeps_slash :
    ¬ ∀ s P Q F, Decomposes s P Q F →
      ∃ u, parse s = .ok u ∧ u.url = s ∧ u.path = (if P = ['/'] then [] else P) := by
  intro h
  obtain ⟨u, hu, _, hpath⟩ := h ['/'] ['/'] [] []
    ⟨rfl, Or.inr (Or.inl rfl), Or.inl rfl, Or.inl rfl⟩
  have hcode : (parse ['/']).toOption.map (·.path) = some ['/'] := by decide
  rw [hu] at hcode
  rw [if_pos rfl] at hpath
  simp [Except.toOption, hpath] at hcode

end Rest.ReducedUrlParser
