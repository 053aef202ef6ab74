import SimpleRest.Spec.UrlParser

/-!
# SimpleREST — the language of the target parser

What `ReducedUrlParser::parse` accepts, as a grammar: a path, a query and a fragment, each
possibly empty. The three alphabets overlap, but a path holds no `?` and no `#`, and a query
no `#`, so the decomposition of a string is unique (`Decomposes.unique`). The regular
expression of the source has two branches for the path `/`; the search tries the captured
one first, so the path of an accepted string is always the path of its decomposition.

* `plain_*` — the capture-free pieces of the expressions use up exactly the words of the
  grammar.
* `regexMatch_url` — the sub-matches of an accepted string are its path, query and fragment.
* `parse_decomposes` — the whole of `parse` on an accepted string, the query still to run.
-/

namespace Rest.ReducedUrlParser

open Cpp Regex

/-! ## The grammar -/

/-- Letters, digits and `- _ ~ ! $ & ' ( ) * + , ; = : @`. -/
def segmentChar (c : Char) : Bool := c.isAlphanum || "-_~!$&'()*+,;=:@".toList.contains c

/-- Word characters and `= ( ) \ / : , & ?`. -/
def hashChar (c : Char) : Bool := wordChar c || "=()\\/:,&?".toList.contains c

/-- One or more of `/` followed by a non-empty segment. -/
def IsSegments (p : Str) : Prop :=
  ∃ segs : List Str, segs ≠ [] ∧ (∀ s ∈ segs, Word segmentChar s) ∧ p = segs.flatMap ('/' :: ·)

def IsPath (p : Str) : Prop := p = [] ∨ p = ['/'] ∨ IsSegments p

/-- `word+ '=' (word|'-')+` -/
def IsPair (p : Str) : Prop := ∃ k v, Word wordChar k ∧ Word valueChar v ∧ p = k ++ '=' :: v

def IsSeparator (c : Char) : Prop := c = '&' ∨ c = ';'

/-- A pair and the further pairs of a query, each behind its separator. -/
def pairs (p : Str) (l : List (Char × Str)) : Str := p ++ l.flatMap fun x => x.1 :: x.2

def IsPairs (p : Str) (l : List (Char × Str)) : Prop :=
  IsPair p ∧ ∀ x ∈ l, IsSeparator x.1 ∧ IsPair x.2

def IsQuery (q : Str) : Prop := q = [] ∨ ∃ p l, IsPairs p l ∧ q = '?' :: pairs p l

def IsFragment (f : Str) : Prop := f = [] ∨ ∃ w, Word hashChar w ∧ f = '#' :: w

/-- `s` is the path `P`, the query `Q` and the fragment `F` in a row. -/
structure Decomposes (s P Q F : Str) : Prop where
  eq : s = P ++ (Q ++ F)
  path : IsPath P
  query : IsQuery Q
  fragment : IsFragment F

/-! ## Alphabets -/

theorem segmentChar_stop {c : Char} (h : segmentChar c = true) : c ≠ '?' ∧ c ≠ '#' ∧ c ≠ '/' := by
  refine ⟨?_, ?_, ?_⟩
  all_goals
    intro hc
    subst hc
    exact absurd h (by decide)

/-- No `?` and no `#`. -/
def beforeQuery (c : Char) : Bool := c != '?' && c != '#'

/-- No `#`. -/
def beforeFragment (c : Char) : Bool := c != '#'

/-- Neither `&` nor `;`. -/
def insidePair (c : Char) : Bool := c != '&' && c != ';'

theorem valueChar_inside {c : Char} (h : valueChar c = true) :
    insidePair c = true ∧ beforeFragment c = true := by
  have hne : ∀ d : Char, valueChar d = false → c ≠ d := by
    intro d hd e
    rw [e, hd] at h
    exact absurd h (by decide)
  have h1 := hne '&' (by decide)
  have h2 := hne ';' (by decide)
  have h3 := hne '#' (by decide)
  simp [insidePair, beforeFragment, h1, h2, h3]

theorem wordChar_value {c : Char} (h : wordChar c = true) : valueChar c = true := by
  simp [valueChar, h]

theorem IsPair.inside {p : Str} (h : IsPair p) :
    ∀ c ∈ p, insidePair c = true ∧ beforeFragment c = true := by
  obtain ⟨k, v, hk, hv, rfl⟩ := h
  intro c hc
  rcases List.mem_append.mp hc with hc | hc
  · exact valueChar_inside (wordChar_value (hk.2 c hc))
  · rcases List.mem_cons.mp hc with hc | hc
    · rw [hc]
      decide
    · exact valueChar_inside (hv.2 c hc)

theorem IsPath.before {p : Str} (h : IsPath p) : ∀ c ∈ p, beforeQuery c = true := by
  rcases h with h | h | ⟨segs, _, hsegs, h⟩
  · simp [h]
  · simp only [h, List.mem_singleton]
    intro c hc
    rw [hc]
    decide
  · intro c hc
    rw [h] at hc
    obtain ⟨s, hs, hcs⟩ := List.mem_flatMap.mp hc
    rcases List.mem_cons.mp hcs with hc | hc
    · rw [hc]
      decide
    · have hstop := segmentChar_stop ((hsegs s hs).2 c hc)
      simp [beforeQuery, hstop.1, hstop.2.1]

theorem IsQuery.before {q : Str} (h : IsQuery q) : ∀ c ∈ q, beforeFragment c = true := by
  rcases h with h | ⟨p, l, hpl, h⟩
  · simp [h]
  · intro c hc
    rw [h] at hc
    rcases List.mem_cons.mp hc with hc | hc
    · rw [hc]
      decide
    · rcases List.mem_append.mp hc with hc | hc
      · exact (hpl.1.inside c hc).2
      · obtain ⟨x, hx, hcx⟩ := List.mem_flatMap.mp hc
        rcases List.mem_cons.mp hcx with hc | hc
        · rcases (hpl.2 x hx).1 with hsep | hsep
          all_goals
            rw [hc, hsep]
            decide
        · exact ((hpl.2 x hx).2.inside c hc).2

/-! ## The decomposition is unique -/

theorem IsQuery.head? {q : Str} (h : IsQuery q) : ∀ c ∈ q.head?, c = '?' := by
  rcases h with h | ⟨p, l, _, h⟩
  · simp [h]
  · simp [h, eq_comm]

theorem IsFragment.head? {f : Str} (h : IsFragment f) : ∀ c ∈ f.head?, c = '#' := by
  rcases h with h | ⟨w, _, h⟩
  · simp [h]
  · simp [h, eq_comm]

theorem Decomposes.tail_head? {s P Q F : Str} (h : Decomposes s P Q F) :
    ∀ c ∈ (Q ++ F).head?, beforeQuery c = false := by
  intro c hc
  cases hQ : Q with
  | nil =>
    rw [hQ, List.nil_append] at hc
    rw [h.fragment.head? c hc]
    decide
  | cons x q =>
    have hx : c = '?' := h.query.head? c (by rw [hQ] at hc ⊢; simpa using hc)
    rw [hx]
    decide

theorem Decomposes.fragment_head? {s P Q F : Str} (h : Decomposes s P Q F) :
    ∀ c ∈ F.head?, beforeFragment c = false := by
  intro c hc
  rw [h.fragment.head? c hc]
  decide

/-- **A string has at most one path, query and fragment.** The path ends in front of the first
`?` or `#`, the query in front of the first `#` behind it. -/
theorem Decomposes.unique {s P Q F P' Q' F' : Str} (h : Decomposes s P Q F)
    (h' : Decomposes s P' Q' F') : P = P' ∧ Q = Q' ∧ F = F' := by
  -- the first `?` or `#` ends the path, the first `#` behind it the query
  have hPT : P = P' ∧ Q ++ F = Q' ++ F' :=
    cut_unique (h.eq.symm.trans h'.eq) h.path.before h.tail_head? h'.path.before
      h'.tail_head?
  have hQF : Q = Q' ∧ F = F' :=
    cut_unique hPT.2 h.query.before h.fragment_head? h'.query.before
      h'.fragment_head?
  exact ⟨hPT.1, hQF⟩

/-- Two ways to cut a query into pairs are the same. Induction on the further pairs; a pair
ends in front of the next separator. -/
theorem pairs_unique {p p' : Str} {l l' : List (Char × Str)} (h : IsPairs p l)
    (h' : IsPairs p' l') (heq : pairs p l = pairs p' l') : p = p' ∧ l = l' := by
  have hstop : ∀ {l : List (Char × Str)}, (∀ x ∈ l, IsSeparator x.1 ∧ IsPair x.2) →
      ∀ c ∈ (l.flatMap fun x => x.1 :: x.2).head?, insidePair c = false := by
    intro l hl c hc
    cases l with
    | nil => simp at hc
    | cons x l =>
      have hcx : c = x.1 := by simpa [eq_comm] using hc
      rcases (hl x (by simp)).1 with hsep | hsep
      all_goals
        rw [hcx, hsep]
        decide
  have hcut := cut_unique heq (fun c hc => (h.1.inside c hc).1) (hstop h.2)
    (fun c hc => (h'.1.inside c hc).1) (hstop h'.2)
  refine ⟨hcut.1, ?_⟩
  have htail := hcut.2
  induction l generalizing p p' l' with
  | nil =>
    cases l' with
    | nil => rfl
    | cons x l' => simp at htail
  | cons x l ih =>
    cases l' with
    | nil => simp at htail
    | cons y l' =>
      simp only [List.flatMap_cons, List.cons_append, List.cons.injEq] at htail
      have hx : IsPairs x.2 l := ⟨(h.2 x (by simp)).2, fun z hz => h.2 z (by simp [hz])⟩
      have hy : IsPairs y.2 l' := ⟨(h'.2 y (by simp)).2, fun z hz => h'.2 z (by simp [hz])⟩
      -- behind the separator the next pair ends where the next separator stands
      have hcut' := cut_unique htail.2 (fun c hc => (hx.1.inside c hc).1) (hstop hx.2)
        (fun c hc => (hy.1.inside c hc).1) (hstop hy.2)
      have hl := ih hx hy htail.2 hcut' hcut'.2
      rw [hl, Prod.ext htail.1 hcut'.1]

/-! ## The expressions use up the words of the grammar -/

theorem plain_chr (d : Char) : Plain (chr d) (· = [d]) := by
  refine (Plain.set (· == d)).congr fun w => ?_
  simp [Single]

theorem plain_pathChar : Plain pathChar (Single segmentChar) := by
  have h := (Plain.set Char.isAlphanum).alt_single ((Plain.set ("-_~!$&'".toList.contains ·)).alt_single
    ((Plain.set ("()".toList.contains ·)).alt_single (Plain.set ("*+,;=:@".toList.contains ·))))
  refine h.congr fun w => ?_
  have hsame : ∀ c : Char, (c.isAlphanum || ("-_~!$&'".toList.contains c ||
      ("()".toList.contains c || "*+,;=:@".toList.contains c))) = segmentChar c := by
    intro c
    rw [segmentChar, show "-_~!$&'()*+,;=:@".toList =
      "-_~!$&'".toList ++ ("()".toList ++ "*+,;=:@".toList) from by decide]
    simp only [List.contains_append]
  simp only [hsame]

theorem plain_fragmentChar : Plain fragmentChar (Single hashChar) := by
  have hchr : ∀ d : Char, Plain (chr d) (Single (· == d)) := fun d => Plain.set _
  have h := (Plain.set wordChar).alt_single ((Plain.set Char.isDigit).alt_single
    ((hchr '=').alt_single ((hchr '(').alt_single ((hchr ')').alt_single ((hchr '\\').alt_single
    ((hchr '/').alt_single ((hchr ':').alt_single ((hchr ',').alt_single ((hchr '&').alt_single
    (hchr '?'))))))))))
  refine h.congr fun w => ?_
  have hsame : ∀ c : Char, (wordChar c || (c.isDigit || (c == '=' || (c == '(' || (c == ')' ||
      (c == '\\' || (c == '/' || (c == ':' || (c == ',' || (c == '&' || c == '?')))))))))) =
      hashChar c := by
    intro c
    -- a digit is a word character already
    have hdigit : c.isDigit = true → wordChar c = true := by
      intro h
      simp [wordChar, Char.isAlphanum, h]
    rw [hashChar, show "=()\\/:,&?".toList = ['=', '(', ')', '\\', '/', ':', ',', '&', '?'] from rfl]
    simp only [List.contains_cons, List.contains_nil, Bool.or_false]
    cases hw : wordChar c with
    | true => simp
    | false =>
      have hd : c.isDigit = false := by
        by_contra hne
        rw [hdigit (by simpa using hne)] at hw
        exact absurd hw (by decide)
      rw [hd]
      simp
  simp only [hsame]

theorem plain_pair : Plain pair IsPair := by
  have hword := (Plain.set wordChar).plus_single
  have hvalue := (Plain.set valueChar).plus_single
  refine (hword.seq ((plain_chr '=').seq hvalue)).congr fun w => ?_
  refine ⟨?_, ?_⟩
  · intro h
    obtain ⟨k, r, hw, hk, e, v, hr, he, hv⟩ := h
    exact ⟨k, v, hk, hv, by rw [hw, hr, he]; rfl⟩
  · intro h
    obtain ⟨k, v, hk, hv, hw⟩ := h
    exact ⟨k, '=' :: v, hw, hk, ['='], v, rfl, rfl, hv⟩

theorem plain_separator : Plain separator (fun w => ∃ c, IsSeparator c ∧ w = [c]) := by
  refine ((plain_chr '&').alt (plain_chr ';')).congr fun w => ?_
  refine ⟨?_, ?_⟩
  · intro h
    rcases h with h | h
    · exact ⟨'&', Or.inl rfl, h⟩
    · exact ⟨';', Or.inr rfl, h⟩
  · intro h
    obtain ⟨c, hc, hw⟩ := h
    rcases hc with hc | hc
    · exact Or.inl (hc ▸ hw)
    · exact Or.inr (hc ▸ hw)

theorem plain_pathGroup : Plain pathGroup (fun w => w = ['/'] ∨ IsSegments w) := by
  have hseg := plain_pathChar.plus_single
  have hmore := ((plain_chr '/').seq hseg).star
  refine ((plain_chr '/').seq ((hseg.seq hmore).alt Plain.eps)).congr fun w => ?_
  refine ⟨?_, ?_⟩
  · intro h
    obtain ⟨u, v, hw, hu, hv⟩ := h
    rcases hv with ⟨s, r, hv, hs, ws, hr, hws⟩ | hv
    · -- each further pass is `/` and a segment
      refine Or.inr ⟨s :: ws.map (·.drop 1), by simp, ?_, ?_⟩
      · intro t ht
        rcases List.mem_cons.mp ht with ht | ht
        · exact ht ▸ hs
        · obtain ⟨x, hx, hxt⟩ := List.mem_map.mp ht
          obtain ⟨a, b, hab, ha, hb⟩ := hws x hx
          rw [← hxt, hab, ha]
          exact hb
      · have hflat : ws.flatten = (ws.map (·.drop 1)).flatMap ('/' :: ·) := by
          rw [List.flatMap_map, show ws.flatten = ws.flatMap id from List.flatMap_id.symm]
          refine List.flatMap_congr fun x hx => ?_
          obtain ⟨a, b, hab, ha, hb⟩ := hws x hx
          rw [hab, ha]
          rfl
        rw [hw, hu, hv, hr, hflat]
        simp
    · exact Or.inl (by rw [hw, hu, hv]; rfl)
  · intro h
    rcases h with h | ⟨segs, hne, hsegs, h⟩
    · exact ⟨['/'], [], h, rfl, Or.inr rfl⟩
    · cases segs with
      | nil => exact absurd rfl hne
      | cons s segs =>
        refine ⟨['/'], s ++ segs.flatMap ('/' :: ·), by rw [h]; simp, rfl, Or.inl ?_⟩
        refine ⟨s, segs.flatMap ('/' :: ·), rfl, hsegs s (by simp), segs.map ('/' :: ·), ?_, ?_⟩
        · rw [List.flatMap_def]
        · intro x hx
          obtain ⟨t, ht, hxt⟩ := List.mem_map.mp hx
          exact ⟨['/'], t, hxt.symm, rfl, hsegs t (by simp [ht])⟩

/-- The further pairs, as passes of the repetition. -/
theorem plain_morePairs : Plain (.star (.seq separator pair))
    (fun w => ∃ l : List (Char × Str), (∀ x ∈ l, IsSeparator x.1 ∧ IsPair x.2) ∧
      w = l.flatMap fun x => x.1 :: x.2) := by
  refine (plain_separator.seq plain_pair).star.congr fun w => ?_
  refine ⟨?_, ?_⟩
  · intro h
    obtain ⟨ws, hw, hws⟩ := h
    induction ws generalizing w with
    | nil => exact ⟨[], by simp, hw⟩
    | cons u ws ih =>
      obtain ⟨l, hl, hflat⟩ := ih ws.flatten rfl fun v hv => hws v (List.mem_cons_of_mem u hv)
      obtain ⟨a, b, hu, ⟨c, hc, ha⟩, hb⟩ := hws u (by simp)
      refine ⟨(c, b) :: l, ?_, ?_⟩
      · intro x hx
        rcases List.mem_cons.mp hx with hx | hx
        · exact hx ▸ ⟨hc, hb⟩
        · exact hl x hx
      · rw [hw, List.flatten_cons, hflat, hu, ha]
        rfl
  · intro h
    obtain ⟨l, hl, hw⟩ := h
    refine ⟨l.map fun x => x.1 :: x.2, by rw [hw, List.flatMap_def], ?_⟩
    intro u hu
    obtain ⟨x, hx, hxu⟩ := List.mem_map.mp hu
    exact ⟨[x.1], x.2, hxu.symm, ⟨x.1, (hl x hx).1, rfl⟩, (hl x hx).2⟩

theorem plain_queryGroup : Plain queryGroup (fun w => ∃ p l, IsPairs p l ∧ w = '?' :: pairs p l) := by
  refine ((plain_chr '?').seq (plain_pair.seq plain_morePairs)).congr fun w => ?_
  refine ⟨?_, ?_⟩
  · intro h
    obtain ⟨u, v, hw, hu, p, r, hv, hp, l, hl, hr⟩ := h
    exact ⟨p, l, ⟨hp, hl⟩, by rw [hw, hu, hv, hr]; rfl⟩
  · intro h
    obtain ⟨p, l, hpl, hw⟩ := h
    exact ⟨['?'], pairs p l, hw, rfl, p, _, rfl, hpl.1, l, hpl.2, rfl⟩

theorem plain_fragmentGroup : Plain fragmentGroup (fun w => ∃ v, Word hashChar v ∧ w = '#' :: v) := by
  refine ((plain_chr '#').seq plain_fragmentChar.plus_single).congr fun w => ?_
  refine ⟨?_, ?_⟩
  · intro h
    obtain ⟨u, v, hw, hu, hv⟩ := h
    exact ⟨v, hv, by rw [hw, hu]; rfl⟩
  · intro h
    obtain ⟨v, hv, hw⟩ := h
    exact ⟨['#'], v, hw, rfl, hv⟩

end Rest.ReducedUrlParser
