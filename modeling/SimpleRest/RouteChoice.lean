import SimpleRest.HandlerOutcome
import SimpleRest.HeadFields
import SimpleRest.RouteTemplates

/-!
# SimpleREST — what the clients see of the route table

The table is read through requests alone. `chosen` is what one accepted target gets from it, the
callback with its parameters, and two histories of registrations that serve every client alike are
those whose tables choose alike.

- `connectionHandler_congr`: what the handler does depends on the choice, and on whether the method
  has a vector;
- `exists_target`: any pieces the grammar has are the path of a target that a client can send;
- `servesAlike_iff`: so the choices for accepted targets are what the clients see of the table.
-/

namespace Rest

open Cpp Regex FirstMatch InterfaceProvider ReducedUrlParser RestConnection

variable {κ : Type}

/-! ## The choice -/

/-- What an accepted target gets: the callback that is called, and its parameters. -/
def chosen (requests_ : Requests κ) (method : Str) (target : Url) :
    Option (κ × UnorderedMap Str Str) :=
  ((UnorderedMap.index requests_ method []).find? fun b =>
    decide (PathMatches b.url.path target.path)).map fun b =>
      (b.callback, UnorderedMap.insertAll ∅ (bindings b.url.path target.path))

/-- The choice is made by the pieces of the path. -/
theorem chosen_congr {target target' : Url}
    (h : splitPath target.path = splitPath target'.path) (requests_ : Requests κ) (method : Str) :
    chosen requests_ method target = chosen requests_ method target' := by
  have hmatch : ∀ pattern, decide (PathMatches pattern target.path) =
      decide (PathMatches pattern target'.path) := by
    intro pattern
    rw [decide_eq_decide]
    unfold PathMatches
    rw [h]
  have hbindings : ∀ pattern, bindings pattern target.path = bindings pattern target'.path := by
    intro pattern
    unfold bindings
    rw [h]
  unfold chosen
  simp only [hmatch, hbindings]

section

variable {log log' : List (Registration κ)} {method : Str} {target : Url} {r : Registration κ}

theorem chosen_earliest {pattern : Url} (h : Earliest (Registration.Serves method target) log r)
    (hpattern : parse r.url = .ok pattern) :
    chosen (registerAll log) method target =
      some (r.callback, UnorderedMap.insertAll ∅ (bindings pattern.path target.path)) := by
  obtain ⟨pattern', hpattern', hfind⟩ := find_registerAll h
  rw [hpattern] at hpattern'
  cases hpattern'
  unfold chosen
  rw [hfind]
  rfl

theorem chosen_none (h : ¬ ∃ r ∈ log, r.Serves method target) :
    chosen (registerAll log) method target = none := by
  unfold chosen
  rw [find_registerAll_none h]
  rfl

theorem chosen_eq_none_iff :
    chosen (registerAll log) method target = none ↔ ¬ ∃ r ∈ log, r.Serves method target := by
  refine ⟨fun h hserves => ?_, chosen_none⟩
  obtain ⟨r, hr⟩ := exists_earliest.mpr hserves
  obtain ⟨pattern, hpattern, _⟩ := hr.mem.2.2
  rw [chosen_earliest hr hpattern] at h
  cases h

/-- The same registration is the first that serves, in both histories. -/
theorem chosen_registerAll_congr (h : ∀ r, Earliest (Registration.Serves method target) log r ↔
    Earliest (Registration.Serves method target) log' r) :
    chosen (registerAll log) method target = chosen (registerAll log') method target := by
  by_cases hserves : ∃ r ∈ log, r.Serves method target
  · obtain ⟨r, hr⟩ := exists_earliest.mpr hserves
    obtain ⟨pattern, hpattern, _⟩ := hr.mem.2.2
    rw [chosen_earliest hr hpattern, chosen_earliest ((h r).mp hr) hpattern]
  · rw [chosen_none hserves, chosen_none fun hserves' => hserves ?_]
    obtain ⟨r, hr⟩ := exists_earliest.mpr hserves'
    exact ⟨r, ((h r).mpr hr).mem⟩

end

/-- **The handler depends on the choice**, and where nothing is chosen on whether the method has a
vector at all. -/
theorem connectionHandler_congr {c : RestConnection} {requests_ requests_' : Requests κ}
    (hmem : c.request_.requestType ∈ requests_ ↔ c.request_.requestType ∈ requests_')
    (hchosen : ∀ target, parse c.request_.url = .ok target →
      chosen requests_ c.request_.requestType target =
        chosen requests_' c.request_.requestType target)
    (order : IterationOrder Str Str) (run : Run κ) :
    connectionHandler order run requests_ c = connectionHandler order run requests_' c := by
  cases htarget : parse c.request_.url with
  | error fault => rw [connectionHandler_rejected htarget, connectionHandler_rejected htarget]
  | ok target =>
    have hsame := hchosen target htarget
    unfold chosen at hsame
    cases hfind : (UnorderedMap.index requests_ c.request_.requestType []).find?
        (fun b => decide (PathMatches b.url.path target.path)) with
    | none =>
      rw [hfind] at hsame
      have hfind' := Option.map_eq_none_iff.mp hsame.symm
      rw [connectionHandler_unrouted htarget hfind, connectionHandler_unrouted htarget hfind']
      simp only [hmem]
    | some b =>
      rw [hfind] at hsame
      obtain ⟨b', hfind', hboth⟩ := Option.map_eq_some_iff.mp hsame.symm
      rw [connectionHandler_found htarget hfind, connectionHandler_found htarget hfind']
      have hinvocation : invocation c target b = invocation c target b' := by
        unfold invocation
        rw [(Prod.mk.inj hboth).1, (Prod.mk.inj hboth).2]
      rw [hinvocation, (Prod.mk.inj hboth).1]

/-- The calls a handler makes are the choice. -/
theorem connectionHandler_invoked {c : RestConnection} {target : Url}
    (htarget : parse c.request_.url = .ok target) (order : IterationOrder Str Str)
    (run : Run κ) (requests_ : Requests κ) :
    (connectionHandler order run requests_ c).invoked =
      (chosen requests_ c.request_.requestType target).toList.map fun x =>
        ⟨x.1, ⟨c, x.2, target⟩, {}⟩ := by
  unfold chosen
  cases hfind : (UnorderedMap.index requests_ c.request_.requestType []).find?
      (fun b => decide (PathMatches b.url.path target.path)) with
  | none =>
    rw [connectionHandler_unrouted htarget hfind]
    rfl
  | some b =>
    rw [connectionHandler_found htarget hfind]
    rfl

/-- A callback is called with a response that is new. -/
theorem response_of_invoked {c : RestConnection} {order : IterationOrder Str Str} {run : Run κ}
    {requests_ : Requests κ} {i : Invocation κ}
    (h : i ∈ (connectionHandler order run requests_ c).invoked) : i.response = {} := by
  cases htarget : parse c.request_.url with
  | error fault =>
    rw [connectionHandler_rejected htarget] at h
    exact absurd h List.not_mem_nil
  | ok target =>
    rw [connectionHandler_invoked htarget] at h
    obtain ⟨x, _, rfl⟩ := List.mem_map.mp h
    rfl

/-! ## Targets a client can send -/

/-- The pieces of a path that is accepted: segments of the grammar, or the one of the root. -/
def IsPieces (segs : List Str) : Prop := segs = [[]] ∨ ∀ seg ∈ segs, Word segmentChar seg

theorem parse_pieces {s : Str} {u : Url} (h : parse s = .ok u) :
    IsPieces (splitPath u.path) := by
  by_cases hroot : u.path = ['/']
  · rw [hroot, splitPath_root]
    exact Or.inl rfl
  · obtain ⟨segs, hsegs, _, hsplit⟩ := parse_segments h hroot
    rw [hsplit]
    exact Or.inr hsegs

theorem segmentChar_isspace {c : Char} (h : segmentChar c = true) : IStream.isspace c = false := by
  have hnot : ∀ d : Char, segmentChar d = false → c ≠ d := by
    intro d hd heq
    rw [heq, hd] at h
    cases h
  simp only [IStream.isspace, Bool.or_eq_false_iff, decide_eq_false_iff_not]
  exact ⟨⟨⟨⟨⟨hnot _ (by decide), hnot _ (by decide)⟩, hnot _ (by decide)⟩, hnot _ (by decide)⟩,
    hnot _ (by decide)⟩, hnot _ (by decide)⟩

/-- A path of the grammar with a fragment behind it is one word, also if the path is empty. -/
theorem isWord_path {path : Str} (h : IsPath path) :
    IStream.IsWord (path ++ "#a".toList) := by
  have hplain : ∀ c ∈ path, IStream.isspace c = false := by
    intro c hc
    rcases h with hempty | hslash | ⟨segs, _, hsegs, heq⟩
    · rw [hempty] at hc
      exact absurd hc List.not_mem_nil
    · rw [hslash, List.mem_singleton] at hc
      rw [hc]
      decide
    · rw [heq] at hc
      obtain ⟨seg, hseg, hc⟩ := List.mem_flatMap.mp hc
      rcases List.mem_cons.mp hc with hslash | hc
      · rw [hslash]
        decide
      · exact segmentChar_isspace ((hsegs seg hseg).2 c hc)
  refine ⟨fun hnil => ?_, fun c hc => ?_⟩
  · cases (List.append_eq_nil_iff.mp hnil).2
  · rcases List.mem_append.mp hc with hc | hc
    · exact hplain c hc
    · have hends : IStream.IsWord "#a".toList := by decide
      exact hends.2 c hc

/-- Such pieces, each behind a slash, are a path of the grammar that is cut into them again. -/
theorem isPath_pieces {segs : List Str} (h : IsPieces segs) :
    IsPath (segs.flatMap ('/' :: ·)) ∧ splitPath (segs.flatMap ('/' :: ·)) = segs := by
  rcases h with hroot | hsegs
  · rw [hroot]
    exact ⟨Or.inr (Or.inl rfl), splitPath_root⟩
  · refine ⟨?_, splitPath_flatMap fun seg hseg => segment_slashFree (hsegs seg hseg)⟩
    by_cases hnil : segs = []
    · rw [hnil]
      exact Or.inl rfl
    · exact Or.inr (Or.inr ⟨segs, hnil, hsegs, rfl⟩)

/-- **The pieces of any accepted path are those of a target a client can send.** -/
theorem exists_target {segs : List Str} (h : IsPieces segs) :
    ∃ s u, IStream.IsWord s ∧ parse s = .ok u ∧ splitPath u.path = segs := by
  obtain ⟨hpath, hsplit⟩ := isPath_pieces h
  have hdec : Decomposes (segs.flatMap ('/' :: ·) ++ "#a".toList) (segs.flatMap ('/' :: ·)) []
      "#a".toList := ⟨rfl, hpath, Or.inl rfl, Or.inr ⟨['a'], by decide, rfl⟩⟩
  obtain ⟨m, hm⟩ := runQuery_ok (segs.flatMap ('/' :: ·) ++ "#a".toList) (segs.flatMap ('/' :: ·)) []
  exact ⟨_, _, isWord_path hpath, parse_decomposes hdec hm, hsplit⟩

theorem Verb.method_injective {v w : Verb} (h : v.method = w.method) : v = w := by
  cases v <;> cases w <;> first | rfl | exact absurd h (by decide)

theorem Verb.isWord_method (v : Verb) : IStream.IsWord v.method := by
  cases v <;> decide

theorem isVersion_http11 : IsVersion "HTTP/1.1".toList := Or.inr rfl

theorem isField_nil : ∀ f ∈ ([] : List (Str × Str)), IsField f := List.forall_mem_nil _

/-- A client that sends this target and nothing behind its request line. -/
def requestFor (v : Verb) (s : Str) (h : IStream.IsWord s) : SentHead where
  method := v.method
  target := s
  version := "HTTP/1.1".toList
  fields := []
  method_word := v.isWord_method
  target_word := h
  version_known := isVersion_http11
  isField := isField_nil

/-- The connection behind the head of such a client. -/
def requested (id : UserId) (v : Verb) (s : Str) : RestConnection :=
  ⟨id, { toIStream := .of [] }, ⟨v.method, "HTTP/1.1".toList, s, ∅⟩⟩

theorem readHead_requestFor (id : UserId) (v : Verb) {s : Str} (h : IStream.IsWord s) :
    (accepted id ((requestFor v s h).render ++ [])).readHead = (requested id v s, .ok ()) :=
  readHead_render id (requestFor v s h) []

/-! ## Histories that serve alike -/

/-- Every client gets the same after both histories, for all callbacks that return: the bytes that
are sent and all the rest of its connection, and the calls of callbacks. -/
def ServesAlike (log log' : List (Registration κ)) : Prop :=
  ∀ (order : IterationOrder Str Str) (run : Run κ) (id : UserId) (s : Str),
    InterfaceProvider.handlerThread order run (registerAll log) (accepted id s) =
      InterfaceProvider.handlerThread order run (registerAll log') (accepted id s)

/-- Both tables choose alike for every target that is accepted. -/
def ChooseAlike (log log' : List (Registration κ)) : Prop :=
  ∀ (v : Verb) (s : Str) (target : Url), parse s = .ok target →
    chosen (registerAll log) v.method target = chosen (registerAll log') v.method target

section

variable {log log' : List (Registration κ)}

/-- What is registered for serves the target that is its own pattern. -/
theorem Registration.Registers.serves {method : Str} {r : Registration κ}
    (h : r.Registers method) : ∃ s target, parse s = .ok target ∧
      r.Serves method target := by
  obtain ⟨hmethod, pattern, hpattern⟩ := h
  refine ⟨r.url, pattern, hpattern, hmethod, pattern, hpattern, ?_⟩
  exact List.forall₂_same.mpr fun seg _ => Or.inr rfl

theorem ChooseAlike.symm (h : ChooseAlike log log') : ChooseAlike log' log :=
  fun v s target htarget => (h v s target htarget).symm

/-- A method that has a vector has one for each of its registrations, so the choices tell. -/
theorem ChooseAlike.mem (h : ChooseAlike log log') {method : Str}
    (hmem : method ∈ registerAll log) : method ∈ registerAll log' := by
  rw [mem_registerAll] at hmem ⊢
  obtain ⟨r, hr, hregisters⟩ := hmem
  obtain ⟨s, target, htarget, hserves⟩ := hregisters.serves
  have hsame := h r.verb s target htarget
  rw [hserves.1] at hsame
  by_contra hnone
  have hnone' : chosen (registerAll log') method target = none :=
    chosen_none fun hserves' => by
      obtain ⟨r', hr', hmethod, pattern, hpattern, _⟩ := hserves'
      exact hnone ⟨r', hr', hmethod, pattern, hpattern⟩
  rw [hnone', chosen_eq_none_iff] at hsame
  exact hsame ⟨r, hr, hserves⟩

theorem ChooseAlike.servesAlike (h : ChooseAlike log log') : ServesAlike log log' := by
  intro order run id s
  have hhandler : connectionHandler order run (registerAll log) =
      connectionHandler order run (registerAll log') := by
    funext c
    refine connectionHandler_congr ⟨h.mem, h.symm.mem⟩ (fun target htarget => ?_) order run
    by_cases hverb : ∃ v : Verb, v.method = c.request_.requestType
    · obtain ⟨v, hv⟩ := hverb
      rw [← hv]
      exact h v _ target htarget
    · -- nothing can be registered for other methods
      have hnone : ∀ log : List (Registration κ),
          ¬ ∃ r ∈ log, r.Serves c.request_.requestType target := by
        intro log hserves
        obtain ⟨r, _, hmethod, _⟩ := hserves
        exact hverb ⟨r.verb, hmethod⟩
      rw [chosen_none (hnone log), chosen_none (hnone log')]
  unfold InterfaceProvider.handlerThread
  rw [hhandler]

/-- The calls a client gets that sends its request line and nothing behind it. -/
theorem handlerThread_requestFor (order : IterationOrder Str Str) (run : Run κ)
    (requests_ : Requests κ) (id : UserId) (v : Verb) {s : Str} (h : IStream.IsWord s)
    {target : Url} (htarget : parse s = .ok target) :
    (InterfaceProvider.handlerThread order run requests_
        (accepted id ((requestFor v s h).render ++ []))).events =
      ((chosen requests_ v.method target).toList.map fun x =>
        .invoke ⟨x.1, ⟨requested id v s, x.2, target⟩, {}⟩) ++ [.deregister id] := by
  have hread := readHead_requestFor id v h
  have hok : (accepted id ((requestFor v s h).render ++ [])).readHead.2 = .ok () := by rw [hread]
  have hhandled : connectionHandler order run requests_
      (accepted id ((requestFor v s h).render ++ [])).readHead.1 =
        connectionHandler order run requests_ (requested id v s) := by rw [hread]
  have hinvoked : (connectionHandler order run requests_ (requested id v s)).invoked =
      (chosen requests_ v.method target).toList.map fun x =>
        ⟨x.1, ⟨requested id v s, x.2, target⟩, {}⟩ :=
    connectionHandler_invoked (c := requested id v s) htarget order run requests_
  have hresult : (connectionHandler order run requests_ (requested id v s)).result = .ok () := by
    rcases connectionHandler_cases order run requests_ (requested id v s) with
      ⟨_, _, _, _, heq⟩ | ⟨_, _, _, heq⟩
    · rw [heq]
      rfl
    · rw [heq]
  rw [handlerThread_goodHead hok hhandled hresult]
  show _ ++ [Event.deregister id] = _
  rw [hinvoked, List.map_map]
  rfl

/-- The calls of callbacks show the choice. -/
theorem ServesAlike.chooseAlike (h : ServesAlike log log') : ChooseAlike log log' := by
  intro v s target htarget
  obtain ⟨s', target', hword, htarget', hsplit⟩ := exists_target (parse_pieces htarget)
  rw [chosen_congr hsplit.symm, chosen_congr hsplit.symm]
  have hevents := congrArg Finished.events (h .arbitrary (fun _ _ _ c => c) 1
    ((requestFor v s' hword).render ++ []))
  rw [handlerThread_requestFor _ _ _ 1 v hword htarget',
    handlerThread_requestFor _ _ _ 1 v hword htarget', List.append_left_inj] at hevents
  cases hx : chosen (registerAll log) v.method target' with
  | none =>
    cases hy : chosen (registerAll log') v.method target' with
    | none => rfl
    | some y =>
      rw [hx, hy] at hevents
      cases hevents
  | some x =>
    cases hy : chosen (registerAll log') v.method target' with
    | none =>
      rw [hx, hy] at hevents
      cases hevents
    | some y =>
      rw [hx, hy] at hevents
      have hinvocation := Event.invoke.inj (List.cons.inj hevents).1
      have hcallback := congrArg Invocation.callback hinvocation
      have hparameters := congrArg (fun i => i.request.parameters_) hinvocation
      exact congrArg some (Prod.ext hcallback hparameters)

/-- **What the clients see of the table is what it chooses** for the targets that are accepted. -/
theorem servesAlike_iff : ServesAlike log log' ↔ ChooseAlike log log' :=
  ⟨ServesAlike.chooseAlike, ChooseAlike.servesAlike⟩

end

end Rest
