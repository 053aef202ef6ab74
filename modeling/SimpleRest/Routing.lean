import SimpleRest.Lib.FirstMatch
import SimpleRest.RouteMatching

/-!
# SimpleREST — routing as a search in the log of registrations

What the interface provider is for: it keeps a log of registrations, and a request is served
by the first entry of the log that has the request's method and a pattern that matches its
target. The table of vectors by method is one way to do this.

- `index_registerAll`: the vector of a method holds the log's entries of that method, in their
  order and without the ones the parser rejected;
- `find_registerAll`: so the scan through that vector chooses the first entry of the log;
- `mem_registerAll`: the methods that have a vector at all;
- `connectionHandler_routes`: whether a callback is called, which one and with which parameters,
  for every log and every request.
-/

namespace Rest

open Cpp FirstMatch

variable {κ : Type}

/-! ## The log -/

/-- The six functions that register. -/
inductive Verb where
  | get | put | post | remove | head | patch
  deriving DecidableEq, Repr

/-- The request type a function registers for. -/
def Verb.method : Verb → Str
  | get => "GET".toList
  | put => "PUT".toList
  | post => "POST".toList
  | remove => "DELETE".toList
  | head => "HEAD".toList
  | patch => "PATCH".toList

/-- A call of one of them. -/
structure Registration (κ : Type) where
  verb : Verb
  url : Str
  callback : κ

namespace Registration

def run (r : Registration κ) (requests_ : Requests κ) : Requests κ × Except Fault Unit :=
  match r.verb with
  | .get => InterfaceProvider.get requests_ r.url r.callback
  | .put => InterfaceProvider.put requests_ r.url r.callback
  | .post => InterfaceProvider.post requests_ r.url r.callback
  | .remove => InterfaceProvider.remove requests_ r.url r.callback
  | .head => InterfaceProvider.head requests_ r.url r.callback
  | .patch => InterfaceProvider.patch requests_ r.url r.callback

/-- The registration succeeded for this method, and its pattern matches the target. -/
def Serves (method : Str) (target : Url) (r : Registration κ) : Prop :=
  r.verb.method = method ∧
    ∃ pattern, ReducedUrlParser.parse r.url = .ok pattern ∧ PathMatches pattern.path target.path

/-- The registration is for this method, and the parser takes its pattern. -/
def Registers (method : Str) (r : Registration κ) : Prop :=
  r.verb.method = method ∧ ∃ pattern, ReducedUrlParser.parse r.url = .ok pattern

/-- The entry a registration makes in the vector of a method. -/
def builtFor (method : Str) (r : Registration κ) : Option (BuiltRequest κ) :=
  if r.verb.method = method then
    match ReducedUrlParser.parse r.url with
    | .ok url => some ⟨url, r.callback⟩
    | .error _ => none
  else none

/-- The six functions are one function of the method. -/
theorem run_eq (r : Registration κ) (requests_ : Requests κ) :
    r.run requests_ =
      InterfaceProvider.registerRequest requests_ r.verb.method r.url r.callback := by
  unfold run
  cases r.verb <;> rfl

/-- A registration that the parser rejects throws and leaves the table as it was. -/
theorem run_rejected {r : Registration κ} {fault : Fault}
    (h : ReducedUrlParser.parse r.url = .error fault) (requests_ : Requests κ) :
    r.run requests_ = (requests_, .error fault) := by
  rw [run_eq, InterfaceProvider.registerRequest, h]

theorem run_accepted {r : Registration κ} {url : Url}
    (h : ReducedUrlParser.parse r.url = .ok url) (requests_ : Requests κ) :
    r.run requests_ = (requests_.insert r.verb.method
      (UnorderedMap.index requests_ r.verb.method [] ++ [⟨url, r.callback⟩]), .ok ()) := by
  rw [run_eq, InterfaceProvider.registerRequest, h]

/-- What one registration does to the vector of a method. -/
theorem index_run (r : Registration κ) (requests_ : Requests κ) (method : Str) :
    UnorderedMap.index (r.run requests_).1 method [] =
      UnorderedMap.index requests_ method [] ++ (r.builtFor method).toList := by
  unfold builtFor
  cases hparse : ReducedUrlParser.parse r.url with
  -- the table is as it was, and the log has no entry either
  | error fault => simp [run_rejected hparse]
  | ok url =>
    rw [run_accepted hparse]
    by_cases hmethod : r.verb.method = method
    · -- the vector of this method grows at its end
      rw [← hmethod, UnorderedMap.index_insert, if_pos rfl]
      rfl
    · rw [UnorderedMap.index_insert_of_ne _ _ _ (Ne.symm hmethod), if_neg hmethod]
      exact (List.append_nil _).symm

/-- An entry of the vector that matches comes from a registration that serves. -/
theorem serves_iff (method : Str) (target : Url) (r : Registration κ) :
    r.Serves method target ↔
      ∃ b, r.builtFor method = some b ∧ PathMatches b.url.path target.path := by
  unfold Serves builtFor
  by_cases hmethod : r.verb.method = method
  · rw [if_pos hmethod]
    cases hparse : ReducedUrlParser.parse r.url with
    | error fault => simp
    | ok url => simp [hmethod]
  · rw [if_neg hmethod]
    simp [hmethod]

end Registration

/-- The table after a history of registrations. -/
def registerAll (log : List (Registration κ)) : Requests κ :=
  log.foldl (fun requests_ r => (r.run requests_).1) ∅

/-- **The table is the log, sorted by method.** Induction on the log, from any table. -/
theorem index_registerAll (log : List (Registration κ)) (method : Str) :
    UnorderedMap.index (registerAll log) method [] =
      log.filterMap (Registration.builtFor method) := by
  have hfold : ∀ (log : List (Registration κ)) (requests_ : Requests κ),
      UnorderedMap.index (log.foldl (fun requests_ r => (r.run requests_).1) requests_) method [] =
        UnorderedMap.index requests_ method [] ++ log.filterMap (Registration.builtFor method) := by
    intro log
    induction log with
    | nil =>
      intro requests_
      exact (List.append_nil _).symm
    | cons r log ih =>
      intro requests_
      rw [List.foldl_cons, ih, Registration.index_run, List.append_assoc]
      congr 1
      cases hbuilt : r.builtFor method with
      | none => simp [hbuilt]
      | some b => simp [hbuilt]
  exact hfold log ∅

/-- A registration that succeeds makes a vector for its method, and no other one. -/
theorem Registration.mem_run (r : Registration κ) (requests_ : Requests κ) (method : Str) :
    method ∈ (r.run requests_).1 ↔ method ∈ requests_ ∨ r.Registers method := by
  unfold Registers
  cases hparse : ReducedUrlParser.parse r.url with
  | error fault =>
    rw [run_rejected hparse]
    simp
  | ok url =>
    rw [run_accepted hparse, Finmap.mem_insert]
    simp [or_comm, eq_comm]

/-- The methods that have a vector are those that have been registered for. Induction on the log,
from any table. -/
theorem mem_registerAll (log : List (Registration κ)) (method : Str) :
    method ∈ registerAll log ↔ ∃ r ∈ log, r.Registers method := by
  have hfold : ∀ (log : List (Registration κ)) (requests_ : Requests κ),
      method ∈ log.foldl (fun requests_ r => (r.run requests_).1) requests_ ↔
        method ∈ requests_ ∨ ∃ r ∈ log, r.Registers method := by
    intro log
    induction log with
    | nil =>
      intro requests_
      simp
    | cons r log ih =>
      intro requests_
      rw [List.foldl_cons, ih, Registration.mem_run, or_assoc]
      simp only [List.mem_cons, exists_eq_or_imp]
  rw [registerAll, hfold, or_iff_right Finmap.notMem_empty]

/-! ## The handler -/

open InterfaceProvider

/-- The parser rejects with an exception. -/
theorem parse_error_isException {s : Str} {fault : Fault}
    (h : ReducedUrlParser.parse s = .error fault) : fault.isException = true := by
  rcases ReducedUrlParser.parse_cases s with ⟨P, Q, F, u, _, hu, _⟩ | ⟨_, herror⟩
  · rw [h] at hu
    exact absurd hu (by simp)
  · rw [h] at herror
    rw [Except.error.inj herror]
    rfl

/-- A target that the parser rejects is answered with 400. -/
theorem connectionHandler_rejected {c : RestConnection} {fault : Fault}
    (h : ReducedUrlParser.parse c.request_.url = .error fault) (order : IterationOrder Str Str)
    (run : Run κ) (requests_ : Requests κ) :
    connectionHandler order run requests_ c = reply order c 400 := by
  unfold connectionHandler
  rw [h]
  simp only [parse_error_isException h, if_true]

/-- The call of the callback of an entry, with the parameters of the entry's own pattern. -/
def invocation (c : RestConnection) (target : Url) (b : BuiltRequest κ) : Invocation κ :=
  ⟨b.callback, ⟨c, UnorderedMap.insertAll ∅ (bindings b.url.path target.path), target⟩, {}⟩

/-- An entry that the scan finds is called. -/
theorem connectionHandler_found {c : RestConnection} {target : Url} {b : BuiltRequest κ}
    {requests_ : Requests κ} (htarget : ReducedUrlParser.parse c.request_.url = .ok target)
    (hfind : (UnorderedMap.index requests_ c.request_.requestType []).find?
      (fun b => decide (PathMatches b.url.path target.path)) = some b)
    (order : IterationOrder Str Str) (run : Run κ) :
    connectionHandler order run requests_ c =
      ⟨run b.callback (invocation c target b).request {} c, [invocation c target b], .ok ()⟩ := by
  have hmatch : PathMatches b.url.path target.path := by simpa using List.find?_some hfind
  unfold connectionHandler
  rw [htarget]
  unfold UnorderedMap.index at hfind
  cases hlookup : requests_.lookup c.request_.requestType with
  | none =>
    rw [hlookup] at hfind
    exact absurd hfind (by simp)
  | some requestList =>
    rw [hlookup, Option.getD_some] at hfind
    simp only [hlookup, findIf_eq fun b : BuiltRequest κ => matching_eq target b.url, hfind,
      extractParameters_eq hmatch]
    rfl

/-- When the scan finds nothing, the answer is 501 if the method has no vector and is not one of
the five that are asked for, and 404 in all other cases. -/
theorem connectionHandler_unrouted {c : RestConnection} {target : Url} {requests_ : Requests κ}
    (htarget : ReducedUrlParser.parse c.request_.url = .ok target)
    (hfind : (UnorderedMap.index requests_ c.request_.requestType []).find?
      (fun b => decide (PathMatches b.url.path target.path)) = none)
    (order : IterationOrder Str Str) (run : Run κ) :
    connectionHandler order run requests_ c = reply order c
      (if c.request_.requestType ∉ requests_ ∧ c.request_.requestType ≠ "GET".toList ∧
        c.request_.requestType ≠ "POST".toList ∧ c.request_.requestType ≠ "PUT".toList ∧
        c.request_.requestType ≠ "DELETE".toList ∧ c.request_.requestType ≠ "PATCH".toList
      then 501 else 404) := by
  unfold connectionHandler
  rw [htarget]
  unfold UnorderedMap.index at hfind
  cases hlookup : requests_.lookup c.request_.requestType with
  | none =>
    have hmem : c.request_.requestType ∉ requests_ := Finmap.lookup_eq_none.mp hlookup
    simp only [hlookup, hmem, not_false_eq_true, true_and]
    split
    · rfl
    · -- behind this test the type is one of five, and none of them is HEAD
      next hother =>
      have hhead : c.request_.requestType ≠ "HEAD".toList := by
        intro heq
        rw [heq] at hother
        exact hother (by decide)
      rw [if_pos hhead]
  | some requestList =>
    have hmem : c.request_.requestType ∈ requests_ := Finmap.mem_of_lookup_eq_some hlookup
    rw [hlookup, Option.getD_some] at hfind
    rw [if_neg fun h => h.1 hmem]
    simp only [hlookup, findIf_eq fun b : BuiltRequest κ => matching_eq target b.url, hfind]

theorem connectionHandler_notFound {c : RestConnection} {target : Url} {requests_ : Requests κ}
    (htarget : ReducedUrlParser.parse c.request_.url = .ok target)
    (hfind : (UnorderedMap.index requests_ c.request_.requestType []).find?
      (fun b => decide (PathMatches b.url.path target.path)) = none)
    (order : IterationOrder Str Str) (run : Run κ) :
    connectionHandler order run requests_ c = reply order c 404 ∨
      connectionHandler order run requests_ c = reply order c 501 := by
  rw [connectionHandler_unrouted htarget hfind order run]
  split
  · exact Or.inr rfl
  · exact Or.inl rfl

/-- The scan finds the entry of the first registration of the log that serves. -/
theorem find_registerAll {log : List (Registration κ)} {method : Str} {target : Url}
    {r : Registration κ} (h : Earliest (Registration.Serves method target) log r) :
    ∃ pattern, ReducedUrlParser.parse r.url = .ok pattern ∧
      (UnorderedMap.index (registerAll log) method []).find?
        (fun b => decide (PathMatches b.url.path target.path)) = some ⟨pattern, r.callback⟩ := by
  obtain ⟨b, hbuilt, hearliest⟩ := h.filterMap (Registration.serves_iff method target)
  obtain ⟨hmethod, pattern, hpattern, _⟩ := h.mem.2
  refine ⟨pattern, hpattern, ?_⟩
  rw [Registration.builtFor, if_pos hmethod, hpattern] at hbuilt
  rw [index_registerAll, find?_eq_some_iff, Option.some.inj hbuilt]
  exact hearliest

/-- It finds nothing where none serves. -/
theorem find_registerAll_none {log : List (Registration κ)} {method : Str} {target : Url}
    (h : ¬ ∃ r ∈ log, r.Serves method target) :
    (UnorderedMap.index (registerAll log) method []).find?
      (fun b => decide (PathMatches b.url.path target.path)) = none := by
  rw [index_registerAll, List.find?_eq_none]
  intro b hb hmatch
  obtain ⟨r, hr, hbuilt⟩ := List.mem_filterMap.mp hb
  exact h ⟨r, hr, (Registration.serves_iff method target r).mpr ⟨b, hbuilt, by simpa using hmatch⟩⟩

/-- The callbacks the handler calls after a history of registrations. -/
def invokedAfter (order : IterationOrder Str Str) (run : Run κ) (log : List (Registration κ))
    (c : RestConnection) : List (Invocation κ) :=
  (connectionHandler order run (registerAll log) c).invoked

/-- The first registration that serves is the one whose callback is called. -/
theorem invokedAfter_earliest {c : RestConnection} {target : Url} {log : List (Registration κ)}
    {r : Registration κ} (htarget : ReducedUrlParser.parse c.request_.url = .ok target)
    (h : Earliest (Registration.Serves c.request_.requestType target) log r)
    (order : IterationOrder Str Str) (run : Run κ) :
    ∃ pattern, ReducedUrlParser.parse r.url = .ok pattern ∧
      invokedAfter order run log c = [invocation c target ⟨pattern, r.callback⟩] := by
  obtain ⟨pattern, hpattern, hfind⟩ := find_registerAll h
  refine ⟨pattern, hpattern, ?_⟩
  rw [invokedAfter, connectionHandler_found htarget hfind order run]

/-- Where none serves, none is called. -/
theorem invokedAfter_none {c : RestConnection} {target : Url} {log : List (Registration κ)}
    (htarget : ReducedUrlParser.parse c.request_.url = .ok target)
    (h : ¬ ∃ r ∈ log, r.Serves c.request_.requestType target) (order : IterationOrder Str Str)
    (run : Run κ) : invokedAfter order run log c = [] := by
  unfold invokedAfter
  rcases connectionHandler_notFound htarget (find_registerAll_none h) order run with heq | heq
  · rw [heq]
    rfl
  · rw [heq]
    rfl

theorem invokedAfter_rejected {c : RestConnection} {fault : Fault}
    (h : ReducedUrlParser.parse c.request_.url = .error fault) (order : IterationOrder Str Str)
    (run : Run κ) (log : List (Registration κ)) : invokedAfter order run log c = [] := by
  rw [invokedAfter, connectionHandler_rejected h]
  rfl

/-- Two histories that choose the same registration for the request's target call alike. -/
theorem invokedAfter_congr {c : RestConnection} {log log' : List (Registration κ)}
    (h : ∀ target r, ReducedUrlParser.parse c.request_.url = .ok target →
      (Earliest (Registration.Serves c.request_.requestType target) log' r ↔
        Earliest (Registration.Serves c.request_.requestType target) log r))
    (order : IterationOrder Str Str) (run : Run κ) :
    invokedAfter order run log' c = invokedAfter order run log c := by
  cases htarget : ReducedUrlParser.parse c.request_.url with
  | error fault => rw [invokedAfter_rejected htarget, invokedAfter_rejected htarget]
  | ok target =>
    by_cases hserves : ∃ r ∈ log, r.Serves c.request_.requestType target
    · -- both call the callback of this registration
      obtain ⟨r, hr⟩ := exists_earliest.mpr hserves
      obtain ⟨pattern, hpattern, heq⟩ := invokedAfter_earliest htarget hr order run
      obtain ⟨pattern', hpattern', heq'⟩ :=
        invokedAfter_earliest htarget ((h target r htarget).mpr hr) order run
      rw [hpattern] at hpattern'
      rw [heq, heq', Except.ok.inj hpattern']
    · have hserves' : ¬ ∃ r ∈ log', r.Serves c.request_.requestType target := by
        intro hex
        obtain ⟨r, hr⟩ := exists_earliest.mpr hex
        exact hserves ⟨r, ((h target r htarget).mp hr).mem⟩
      rw [invokedAfter_none htarget hserves, invokedAfter_none htarget hserves']

/-- A callback is called exactly if the target is accepted and some registration serves. -/
theorem invokedAfter_ne_nil_iff (order : IterationOrder Str Str) (run : Run κ)
    (log : List (Registration κ)) (c : RestConnection) :
    invokedAfter order run log c ≠ [] ↔ ∃ target,
      ReducedUrlParser.parse c.request_.url = .ok target ∧
        ∃ r ∈ log, r.Serves c.request_.requestType target := by
  refine ⟨?_, ?_⟩
  · intro hinvoked
    cases htarget : ReducedUrlParser.parse c.request_.url with
    | error fault => exact absurd (invokedAfter_rejected htarget order run log) hinvoked
    | ok target =>
      refine ⟨target, rfl, ?_⟩
      by_contra hnone
      exact hinvoked (invokedAfter_none htarget hnone order run)
  · intro h
    obtain ⟨target, htarget, hserves⟩ := h
    obtain ⟨r, hr⟩ := exists_earliest.mpr hserves
    obtain ⟨pattern, _, heq⟩ := invokedAfter_earliest htarget hr order run
    rw [heq]
    exact List.cons_ne_nil _ _

/-- **Routing is a search in the log.** For every history of registrations and every request:

- a callback is called exactly if the parser accepts the target and some registration serves;
- it is then the callback of the earliest such registration, called once, with the parameters
  of that registration's own pattern;
- a registration throws exactly if the parser rejects its pattern, and then leaves the table;
- two histories with the same registrations under the request's method choose alike, whatever
  they hold under other methods;
- registrations made later do not change a choice. -/
theorem connectionHandler_routes (order : IterationOrder Str Str) (run : Run κ)
    (log : List (Registration κ)) (c : RestConnection) :
    (invokedAfter order run log c ≠ [] ↔ ∃ target,
      ReducedUrlParser.parse c.request_.url = .ok target ∧
        ∃ r ∈ log, r.Serves c.request_.requestType target) ∧
    (∀ target r, ReducedUrlParser.parse c.request_.url = .ok target →
      Earliest (Registration.Serves c.request_.requestType target) log r →
      ∃ pattern, ReducedUrlParser.parse r.url = .ok pattern ∧
        invokedAfter order run log c = [invocation c target ⟨pattern, r.callback⟩]) ∧
    (∀ (r : Registration κ) (requests_ : Requests κ),
      ((r.run requests_).2 = .ok () ↔ ∃ pattern, ReducedUrlParser.parse r.url = .ok pattern) ∧
        ((r.run requests_).2 ≠ .ok () → (r.run requests_).1 = requests_)) ∧
    (∀ log' : List (Registration κ),
      log'.filter (fun r => r.verb.method = c.request_.requestType) =
        log.filter (fun r => r.verb.method = c.request_.requestType) →
      invokedAfter order run log' c = invokedAfter order run log c) ∧
    (∀ later, invokedAfter order run log c ≠ [] →
      invokedAfter order run (log ++ later) c = invokedAfter order run log c) := by
  refine ⟨invokedAfter_ne_nil_iff order run log c, ?_, ?_, ?_, ?_⟩
  · intro target r htarget hr
    exact invokedAfter_earliest htarget hr order run
  · intro r requests_
    cases hparse : ReducedUrlParser.parse r.url with
    | error fault =>
      rw [Registration.run_rejected hparse]
      simp
    | ok pattern =>
      rw [Registration.run_accepted hparse]
      simp
  · -- the choice in a log is the choice in its part under the method
    intro log' hfilter
    apply invokedAfter_congr
    intro target r _
    have hmethod : ∀ r : Registration κ, r.Serves c.request_.requestType target →
        r.verb.method = c.request_.requestType := fun r h => h.1
    rw [← earliest_filter hmethod, hfilter, earliest_filter hmethod]
  · intro later hinvoked
    obtain ⟨target, htarget, hserves⟩ := (invokedAfter_ne_nil_iff order run log c).mp hinvoked
    obtain ⟨r, hr⟩ := exists_earliest.mpr hserves
    apply invokedAfter_congr
    intro target' r' htarget'
    rw [htarget] at htarget'
    rw [← Except.ok.inj htarget']
    refine ⟨fun hr' => ?_, fun hr' => hr'.append later⟩
    rw [hr'.unique (hr.append later)]
    exact hr

end Rest
