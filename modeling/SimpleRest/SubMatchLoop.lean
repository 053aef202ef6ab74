import SimpleRest.TargetParser

/-!
# SimpleREST — `front()` in the loop of the target parser

The loop of `parse` goes over the three groups of its expression and asks each for its first
character, up to three times. A group that took no part in the match is the empty string, and
`front()` must not be called on that.

- `classifyFronts`: the body of the loop together with its calls of `front()`;
- `parse_fronts`: `parse` is the loop with this body;
- `mem_frontStrings`: every group is asked at least once, whatever it is;
- `front_calls_iff`: so all calls are on strings that are not empty exactly for targets with a path,
  a query and a fragment.
-/

namespace Rest.ReducedUrlParser

open Cpp Regex

/-- `classify`, and the strings on which `front()` is called for it, in order. -/
def classifyFronts (str : Str) : Except Fault SubMatch × List Str :=
  if front str == '/' then (return .path str, [str])
  else if front str == '?' then
    (do return .query (← substr str 1 (some (str.length - 1))), [str, str])
  else if front str == '#' then
    (do return .fragment (← substr str 1 (some (str.length - 1))), [str, str, str])
  else (return .unused, [str, str, str])

theorem classifyFronts_fst (str : Str) : (classifyFronts str).1 = classify str := by
  unfold classifyFronts classify
  split
  · rfl
  · split
    · rfl
    · split
      · rfl
      · rfl

theorem parse_fronts (urlString : Str) :
    parse urlString = match regexMatch 3 urlRegex urlString with
      | some subMatches => subMatches.foldlM (fun url str => do
          (← (classifyFronts str).1).store url) { url := urlString }
      | none => throw (.invalidArgument "Not a valid sub url".toList) := by
  simp only [classifyFronts_fst]
  rfl

/-- All calls are on the group that is looked at, and there is one. -/
theorem mem_classifyFronts (str x : Str) : x ∈ (classifyFronts str).2 ↔ x = str := by
  unfold classifyFronts
  split
  · exact List.mem_singleton
  · split
    · simp
    · split
      · simp
      · simp

/-- The strings on which `parse` calls `front()`, group after group. -/
def frontStrings (urlString : Str) : List Str :=
  ((regexMatch 3 urlRegex urlString).getD []).flatMap fun str => (classifyFronts str).2

theorem mem_frontStrings {s P Q F : Str} (h : Decomposes s P Q F) (x : Str) :
    x ∈ frontStrings s ↔ x = P ∨ x = Q ∨ x = F := by
  unfold frontStrings
  rw [regexMatch_url h, Option.getD_some, List.mem_flatMap]
  simp only [mem_classifyFronts, List.mem_cons, List.not_mem_nil, or_false, exists_eq_or_imp,
    exists_eq_left]

/-- **When `front()` is called on strings that are not empty only.** For every string the parser
accepts: it is exactly if the string has a path, a query and a fragment. -/
theorem front_calls_iff {s : Str} {u : Url} (h : parse s = .ok u) :
    (∀ str ∈ frontStrings s, str ≠ []) ↔
      ∃ P Q F, Decomposes s P Q F ∧ P ≠ [] ∧ Q ≠ [] ∧ F ≠ [] := by
  rcases parse_cases s with ⟨P, Q, F, _, hdec, _⟩ | ⟨_, herror⟩
  · refine ⟨fun hcalls => ?_, fun hparts str hstr => ?_⟩
    · have hpart : ∀ x, x = P ∨ x = Q ∨ x = F → x ≠ [] :=
        fun x hx => hcalls x ((mem_frontStrings hdec x).mpr hx)
      exact ⟨P, Q, F, hdec, hpart P (Or.inl rfl), hpart Q (Or.inr (Or.inl rfl)),
        hpart F (Or.inr (Or.inr rfl))⟩
    · obtain ⟨P', Q', F', hdec', hP, hQ, hF⟩ := hparts
      rcases (mem_frontStrings hdec' str).mp hstr with heq | heq | heq
      · rw [heq]
        exact hP
      · rw [heq]
        exact hQ
      · rw [heq]
        exact hF
  · rw [h] at herror
    cases herror

/-- A target with all three parts. -/
theorem front_calls_full : [] ∉ frontStrings "/users?id=7#top".toList := by
  have hdec : Decomposes "/users?id=7#top".toList "/users".toList "?id=7".toList "#top".toList := by
    refine ⟨rfl, Or.inr (Or.inr ⟨["users".toList], by simp, by decide, rfl⟩), Or.inr ?_,
      Or.inr ⟨"top".toList, by decide, rfl⟩⟩
    exact ⟨"id=7".toList, [], ⟨⟨"id".toList, "7".toList, by decide, by decide, rfl⟩, nofun⟩, rfl⟩
  obtain ⟨m, hm⟩ := runQuery_ok "/users?id=7#top".toList "/users".toList "?id=7".toList
  have hcalls := (front_calls_iff (parse_decomposes hdec hm)).mpr
    ⟨_, _, _, hdec, by decide, by decide, by decide⟩
  exact fun hempty => hcalls [] hempty rfl

/-- An ordinary target has no query and no fragment, and the parser asks both for a character. -/
theorem front_calls_users : ¬ ∀ (s : Str) (u : Url), parse s = .ok u →
    ∀ str ∈ frontStrings s, str ≠ [] := by
  intro hall
  have hdec : Decomposes "/users".toList "/users".toList [] [] :=
    ⟨rfl, Or.inr (Or.inr ⟨["users".toList], by simp, by decide, rfl⟩), Or.inl rfl, Or.inl rfl⟩
  obtain ⟨m, hm⟩ := runQuery_ok "/users".toList "/users".toList []
  have hmem : [] ∈ frontStrings "/users".toList :=
    (mem_frontStrings hdec []).mpr (Or.inr (Or.inl rfl))
  exact hall _ _ (parse_decomposes hdec hm) [] hmem rfl

end Rest.ReducedUrlParser
