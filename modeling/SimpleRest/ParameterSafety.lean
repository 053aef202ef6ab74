import SimpleRest.HandlerOutcome
import SimpleRest.RouteTemplates

/-!
# SimpleREST — what a path parameter can hold

A callback that appends a parameter to a directory name, or writes it into a header line, relies on
the parser: what the parser takes for a segment has no separator, no dot and nothing that ends a
line. The router hands such segments on, and it makes no others.

- `segmentChar_harmless`: the alphabet;
- `invoked_from`: where the parameters of a callback come from;
- `getParameter_segment`: each is a segment of the request's path;
- `parameters_safe_iff`: so they are all that is asked for, but for a request for the root `/` that
  is matched by a pattern of one parameter, which has an empty value. No byte that could do harm
  gets through in any case.
-/

namespace Rest

open Cpp Regex InterfaceProvider ReducedUrlParser
open RestConnection (accepted)

variable {κ : Type}

/-! ## The alphabet -/

/-- A printable character that is no blank, and separates nothing. -/
def harmless (c : Char) : Bool :=
  decide (32 < c.toNat) && decide (c.toNat < 127) && !"/\\.%?#".toList.contains c

theorem alphanum_bounds {c : Char} (h : c.isAlphanum = true) : 48 ≤ c.toNat ∧ c.toNat < 127 := by
  rcases Bool.or_eq_true_iff.mp h with halpha | hdigit
  · rcases Bool.or_eq_true_iff.mp halpha with hupper | hlower
    · have hrange : 65 ≤ c.toNat ∧ c.toNat ≤ 90 := of_decide_eq_true hupper
      omega
    · have hlow : 97 ≤ c.toNat := of_decide_eq_true (Bool.and_eq_true_iff.mp hlower).1
      have hhigh : c.toNat ≤ 122 := of_decide_eq_true (Bool.and_eq_true_iff.mp hlower).2
      omega
  · have hlow : 48 ≤ c.toNat := of_decide_eq_true (Bool.and_eq_true_iff.mp hdigit).1
    have hhigh : c.toNat ≤ 57 := of_decide_eq_true (Bool.and_eq_true_iff.mp hdigit).2
    omega

/-- The parser has only such characters in a segment. -/
theorem segmentChar_harmless {c : Char} (h : segmentChar c = true) : harmless c = true := by
  unfold segmentChar at h
  rcases Bool.or_eq_true_iff.mp h with halpha | hlist
  · -- letters and digits
    have hbounds := alphanum_bounds halpha
    have hmem : c ∉ "/\\.%?#".toList := by
      intro hmem
      have hnone : ("/\\.%?#".toList.all fun d => !d.isAlphanum) = true := by decide
      have hc := List.all_eq_true.mp hnone c hmem
      rw [halpha] at hc
      cases hc
    simp only [harmless, Bool.and_eq_true, decide_eq_true_eq]
    refine ⟨⟨by omega, hbounds.2⟩, by simpa using hmem⟩
  · have hall : "-_~!$&'()*+,;=:@".toList.all harmless = true := by decide
    exact List.all_eq_true.mp hall c (by simpa using hlist)

/-! ## Where a parameter comes from -/

/-- A call comes from the earliest registration that serves, and has the bindings of its own
pattern. -/
theorem invoked_from {order : IterationOrder Str Str} {run : Run κ} {log : List (Registration κ)}
    {c : RestConnection} {i : Invocation κ} (h : i ∈ invokedAfter order run log c) :
    ∃ target r pattern, parse c.request_.url = .ok target ∧
      FirstMatch.Earliest (Registration.Serves c.request_.requestType target) log r ∧
      parse r.url = .ok pattern ∧ i = invocation c target ⟨pattern, r.callback⟩ := by
  obtain ⟨target, htarget, hserves⟩ :=
    (invokedAfter_ne_nil_iff order run log c).mp (List.ne_nil_of_mem h)
  obtain ⟨r, hr⟩ := FirstMatch.exists_earliest.mpr hserves
  obtain ⟨pattern, hpattern, heq⟩ := invokedAfter_earliest htarget hr order run
  rw [heq] at h
  exact ⟨target, r, pattern, htarget, hr, hpattern, List.mem_singleton.mp h⟩

/-- Every parameter of a pattern that matches has a segment of the target for its value. -/
theorem getParameter_segment {c : RestConnection} {target pattern : Url}
    (hmatch : PathMatches pattern.path target.path) (callback : κ) {name : Str}
    (hname : name ∈ parameterNames pattern) :
    (invocation c target ⟨pattern, callback⟩).request.getParameter name ∈
      splitPath target.path := by
  have hmem : name ∈ extraction pattern target := (mem_extraction hmatch name).mpr hname
  obtain ⟨v, hv⟩ := Option.isSome_iff_exists.mp (Finmap.lookup_isSome.mpr hmem)
  have hvalue : (invocation c target ⟨pattern, callback⟩).request.getParameter name = v := by
    show UnorderedMap.index (UnorderedMap.insertAll ∅ (bindings pattern.path target.path)) name [] = v
    rw [bindings, segmentBindings_eq]
    show ((extraction pattern target).lookup name).getD [] = v
    rw [hv]
    rfl
  rw [hvalue]
  rcases UnorderedMap.lookup_insertAll_cases ∅ hv with hentry | hempty
  · exact Template.mem_of_mem_bindings hentry
  · rw [Finmap.lookup_empty] at hempty
    cases hempty

/-! ## What is asked for -/

/-- A value that is a segment of the path it is taken from, and can do no harm. -/
structure SafeParameter (received : Url) (value : Str) : Prop where
  segment : value ∈ splitPath received.path
  nonempty : value ≠ []
  harmless : ∀ c ∈ value, harmless c = true

def SafeParameters (pattern : Url) (request : Request) : Prop :=
  ∀ name ∈ parameterNames pattern, SafeParameter request.url_ (request.getParameter name)

/-- Appended to a directory a value names nothing outside, and in a header line it stays there. -/
structure Contained (value : Str) : Prop where
  noDot : '.' ∉ value
  noSlash : '/' ∉ value
  noBackslash : '\\' ∉ value
  line : CrLfFree value

theorem contained_of_harmless {value : Str} (h : ∀ c ∈ value, harmless c = true) :
    Contained value := by
  have hnot : ∀ d : Char, harmless d = false → d ∉ value := by
    intro d hd hmem
    rw [h d hmem] at hd
    cases hd
  refine ⟨hnot _ (by decide), hnot _ (by decide), hnot _ (by decide), ?_, ?_⟩
  · exact hnot _ (by decide)
  · exact hnot _ (by decide)

/-- The call is that of the earliest registration that serves, and this is its pattern. -/
structure CalledFor (log : List (Registration κ)) (c : RestConnection) (i : Invocation κ)
    (pattern : Url) : Prop where
  target : parse c.request_.url = .ok i.request.url_
  registration : ∃ r, FirstMatch.Earliest
    (Registration.Serves c.request_.requestType i.request.url_) log r ∧
      parse r.url = .ok pattern ∧ i.callback = r.callback

/-! ## What is handed on -/

/-- The segments of an accepted path are harmless. That of the root has no character at all. -/
theorem splitPath_harmless {s : Str} {u : Url} (h : parse s = .ok u) :
    ∀ seg ∈ splitPath u.path, ∀ c ∈ seg, harmless c = true := by
  by_cases hroot : u.path = ['/']
  · rw [hroot, splitPath_root]
    intro seg hseg c hc
    rw [List.mem_singleton.mp hseg] at hc
    cases hc
  · obtain ⟨segs, hsegs, _, hsplit⟩ := parse_segments h hroot
    rw [hsplit]
    intro seg hseg c hc
    exact segmentChar_harmless ((hsegs seg hseg).2 c hc)

/-- A pattern that matches the root and has a parameter is that parameter. -/
theorem pattern_of_root {s name : Str} {pattern : Url} (h : parse s = .ok pattern)
    (hmatch : PathMatches pattern.path ['/']) (hname : name ∈ parameterNames pattern) :
    ∃ name, '/' ∉ name ∧ pattern.path = '/' :: ':' :: name := by
  have hroot : pattern.path ≠ ['/'] := by
    intro hroot
    unfold parameterNames at hname
    rw [hroot, splitPath_root] at hname
    cases hname
  obtain ⟨segs, hsegs, heq, hsplit⟩ := parse_segments h hroot
  unfold PathMatches SegmentsMatch at hmatch
  rw [hsplit, splitPath_root] at hmatch
  unfold parameterNames at hname
  rw [hsplit] at hname
  -- one segment, and it is the parameter
  obtain ⟨seg, hone⟩ := List.length_eq_one_iff.mp hmatch.length_eq
  obtain ⟨p, hp, hparameter⟩ := Template.mem_holes.mp hname
  rw [hone] at hp hsegs heq
  have hseg : seg = ':' :: name := by
    rw [← List.mem_singleton.mp hp]
    exact parameterName_some hparameter
  rw [hseg] at hsegs heq
  refine ⟨name, fun hmem => ?_, heq.trans (List.flatMap_singleton _ _)⟩
  exact segment_slashFree (hsegs _ List.mem_cons_self) (List.mem_cons_of_mem _ hmem)

/-- The values a call gets are those that are asked for, but for the root and one parameter. -/
theorem safeParameters_iff {c : RestConnection} {s : Str} {target pattern : Url}
    (htarget : parse c.request_.url = .ok target) (hpattern : parse s = .ok pattern)
    (hmatch : PathMatches pattern.path target.path) (callback : κ) :
    SafeParameters pattern (invocation c target ⟨pattern, callback⟩).request ↔
      ¬ (target.path = ['/'] ∧ ∃ name, '/' ∉ name ∧ pattern.path = '/' :: ':' :: name) := by
  refine ⟨fun hsafe hroot => ?_, fun hcond name hname => ?_⟩
  · obtain ⟨hpath, name, hslash, hparameter⟩ := hroot
    have hname : name ∈ parameterNames pattern := by
      unfold parameterNames
      rw [hparameter, splitPath_parameter hslash]
      exact List.mem_singleton.mpr rfl
    have hvalue := hsafe name hname
    have hsegment : _ ∈ splitPath target.path := hvalue.segment
    rw [hpath, splitPath_root] at hsegment
    exact hvalue.nonempty (List.mem_singleton.mp hsegment)
  · have hsegment := getParameter_segment (c := c) hmatch callback hname
    refine ⟨hsegment, ?_, splitPath_harmless htarget _ hsegment⟩
    by_cases hroot : target.path = ['/']
    · rw [hroot] at hmatch
      exact absurd ⟨hroot, pattern_of_root hpattern hmatch hname⟩ hcond
    · obtain ⟨segs, hsegs, _, hsplit⟩ := parse_segments htarget hroot
      rw [hsplit] at hsegment
      exact (hsegs _ hsegment).1

/-- **What a callback gets for a parameter.** For every history of registrations, all bytes that a
client sends, and every callback that is called on them: the value of each parameter of its pattern
is a segment of the request's path, not empty and without a character that could do harm, if and
only if it is not the root `/` that is asked for with a pattern of one parameter. Even then no
value leads out of a directory or out of a header line. -/
theorem parameters_safe_iff (order : IterationOrder Str Str) (run : Run κ)
    (log : List (Registration κ)) (id : UserId) (s : Str) (i : Invocation κ)
    (h : .invoke i ∈ (InterfaceProvider.handlerThread order run (registerAll log)
      (accepted id s)).events) :
    ∃ pattern, CalledFor log (accepted id s).readHead.1 i pattern ∧
      (SafeParameters pattern i.request ↔
        ¬ (i.request.getPath = ['/'] ∧ ∃ name, '/' ∉ name ∧ pattern.path = '/' :: ':' :: name)) ∧
      ∀ name ∈ parameterNames pattern, Contained (i.request.getParameter name) := by
  obtain ⟨target, r, pattern, htarget, hr, hpattern, heq⟩ := invoked_from (invoke_mem_events h).2
  obtain ⟨_, pattern', hpattern', hmatch⟩ := hr.mem.2
  rw [hpattern] at hpattern'
  rw [← Except.ok.inj hpattern'] at hmatch
  rw [heq]
  refine ⟨pattern, ⟨htarget, r, hr, hpattern, rfl⟩,
    safeParameters_iff htarget hpattern hmatch r.callback, fun name hname => ?_⟩
  have hsegment := getParameter_segment (c := (accepted id s).readHead.1) hmatch r.callback hname
  exact contained_of_harmless (splitPath_harmless htarget _ hsegment)

/-- A request whose target matches the one pattern that is registered reaches its callback. -/
theorem invoke_of_match {id : UserId} {s : Str} {target pattern : Url} {r : Registration κ}
    (hread : (accepted id s).readHead.2 = .ok ())
    (htarget : parse (accepted id s).readHead.1.request_.url = .ok target)
    (hmethod : r.verb.method = (accepted id s).readHead.1.request_.requestType)
    (hpattern : parse r.url = .ok pattern) (hmatch : PathMatches pattern.path target.path)
    (order : IterationOrder Str Str) (run : Run κ) :
    ∃ i, .invoke i ∈ (InterfaceProvider.handlerThread order run (registerAll [r])
      (accepted id s)).events := by
  have hrouted := (routed_registerAll [r] _ _).mpr
    ⟨target, htarget, r, List.mem_cons_self, hmethod, pattern, hpattern, hmatch⟩
  obtain ⟨i, hfinished⟩ := handlerThread_routed order run hread hrouted
  refine ⟨i, ?_⟩
  rw [hfinished]
  exact List.mem_cons_self

/-- The user number 42 is asked for, and the callback gets it. -/
theorem parameters_safe_users : ∃ (i : Invocation Unit) (pattern : Url),
    .invoke i ∈ (InterfaceProvider.handlerThread IterationOrder.arbitrary (fun _ _ _ c => c)
      (registerAll [⟨.get, "/users/:id".toList, ()⟩])
      (accepted 1 "GET /users/42 HTTP/1.1\r\n\r\n".toList)).events ∧
    SafeParameters pattern i.request := by
  obtain ⟨target, htarget, hpath⟩ := parse_join (List.cons_ne_nil "users".toList ["42".toList])
    (by decide)
  obtain ⟨registered, hregistered, hpattern⟩ :=
    parse_join (List.cons_ne_nil "users".toList [":id".toList]) (by decide)
  have hmatch : PathMatches registered.path target.path := by
    rw [hpath, hpattern]
    decide
  have hread : (accepted 1 "GET /users/42 HTTP/1.1\r\n\r\n".toList).readHead.2 = .ok () := rfl
  obtain ⟨i, hi⟩ := invoke_of_match (r := ⟨.get, "/users/:id".toList, ()⟩) hread htarget rfl
    hregistered hmatch IterationOrder.arbitrary (fun _ _ _ c => c)
  obtain ⟨pattern, hcalled, hsafe, _⟩ := parameters_safe_iff _ _ _ _ _ i hi
  refine ⟨i, pattern, hi, hsafe.mpr fun hroot => ?_⟩
  have htarget' := hcalled.target.symm.trans htarget
  have hroot' : i.request.url_.path = ['/'] := hroot.1
  rw [Except.ok.inj htarget', hpath] at hroot'
  exact absurd hroot' (by decide)

/-- The pattern `/:name` gets the empty value from a request for the root. -/
theorem parameters_safe_root : ¬ ∀ (order : IterationOrder Str Str) (run : Run Unit)
    (log : List (Registration Unit)) (id : UserId) (s : Str) (i : Invocation Unit) (pattern : Url),
    .invoke i ∈ (InterfaceProvider.handlerThread order run (registerAll log)
      (accepted id s)).events →
    CalledFor log (accepted id s).readHead.1 i pattern → SafeParameters pattern i.request := by
  intro hall
  obtain ⟨target, htarget, hpath⟩ := parse_slash
  obtain ⟨registered, hregistered, hpattern⟩ := parse_join (List.cons_ne_nil ":name".toList [])
    (by decide)
  have hmatch : PathMatches registered.path target.path := by
    rw [hpath, hpattern]
    decide
  obtain ⟨i, hi⟩ := invoke_of_match (r := ⟨.get, "/:name".toList, ()⟩) readHead_rootHead htarget rfl
    hregistered hmatch IterationOrder.arbitrary (fun _ _ _ c => c)
  obtain ⟨target', r, pattern, htarget', hr, hpattern', heq⟩ := invoked_from (invoke_mem_events hi).2
  have hsafe := hall _ _ _ _ _ i pattern hi
    (heq ▸ ⟨htarget', r, hr, hpattern', rfl⟩)
  -- the one registration is the one that serves
  rw [List.mem_singleton.mp hr.mem.1] at hpattern'
  have hsame : pattern = registered := Except.ok.inj (hpattern'.symm.trans hregistered)
  have hsame' : target' = target := Except.ok.inj (htarget'.symm.trans htarget)
  rw [heq, hsame, hsame'] at hsafe
  have hiff := safeParameters_iff (c := (accepted 1 rootHead).readHead.1) htarget hregistered hmatch
    r.callback
  exact hiff.mp hsafe ⟨hpath, "name".toList, by decide, hpattern⟩

end Rest
