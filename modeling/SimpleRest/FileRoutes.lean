import SimpleRest.Delivery
import SimpleRest.FileSending
import SimpleRest.Spec.Throwing
import Mathlib.Data.Set.Finite.Basic

/-!
# SimpleREST — callbacks that send files

`sendFile` throws a `std::runtime_error` if the file cannot be opened. That is no `InvalidRequest`,
so it ends the program in `std::terminate`, for all clients:

- `throwingThread_cases`: how a handler thread ends when its callback may throw;
- `file_thread`: so a callback that sends a file answers, or ends the program, and which of the two
  is decided by the name;
- `file_route_ends`: where the name comes out of the path, some client can choose it so.
-/

namespace Rest

open Cpp Regex FirstMatch Template InterfaceProvider ReducedUrlParser RestConnection

variable {κ : Type}

/-! ## What is thrown -/

/-- How a thread ends whose callback has been called and has left this. -/
def ended (order : IterationOrder Str Str) (id : UserId) (i : Invocation κ) :
    RestConnection × Except Fault Unit → Finished κ
  | (c, .ok ()) => ⟨c, [.invoke i, .deregister id]⟩
  -- the error handler answers behind what the callback has sent
  | (c, .error (.invalidRequest message)) =>
    ⟨errorHandler order c (.invalidRequest message), [.invoke i, .deregister id]⟩
  | (c, .error fault) =>
    ⟨c, [.invoke i, if fault.isException then .terminate fault else .crash fault]⟩

/-- **How a thread ends.** As it does with any callbacks that return, or as the callback makes it
end. -/
theorem throwingThread_cases (order : IterationOrder Str Str) (run : Throwing κ)
    (requests_ : Requests κ) (id : UserId) (s : Str) :
    (∃ c, (∀ run' : Run κ, InterfaceProvider.handlerThread order run' requests_ (accepted id s) =
        ⟨c, [.deregister id]⟩) ∧
      throwingThread order run requests_ (accepted id s) = ⟨c, [.deregister id]⟩) ∨
    ∃ i : Invocation κ, i.request.connection_ = (accepted id s).readHead.1 ∧
      (∀ run' : Run κ, InterfaceProvider.handlerThread order run' requests_ (accepted id s) =
        ⟨run' i.callback i.request i.response i.request.connection_,
          [.invoke i, .deregister id]⟩) ∧
      throwingThread order run requests_ (accepted id s) =
        ended order id i (run i.callback i.request i.response i.request.connection_) := by
  have heta : (accepted id s).readHead = ((accepted id s).readHead.1, (accepted id s).readHead.2) :=
    rfl
  rcases readHead_result id s with hok | ⟨message, herror⟩
  · obtain ⟨task, hconnection, htask⟩ :=
      Job.connectionHandler_task requests_ (accepted id s).readHead.1
    have hreturning := htask order run.returning
    cases task with
    | callback i =>
      have hi := hconnection i rfl
      refine Or.inr ⟨i, hi, fun run' => ?_, ?_⟩
      · rw [handlerThread_goodHead hok (htask order run') rfl, hi]
        rfl
      · unfold throwingThread throwingHandler handlerThread tryHandle
        rw [heta, hok]
        simp only [hreturning, Task.run, Task.invoked, hi, Throwing.returning]
        generalize run i.callback i.request i.response (accepted id s).readHead.1 = left
        obtain ⟨c, result⟩ := left
        cases result with
        | ok => rfl
        | error fault => cases fault <;> rfl
    | _ =>
      refine Or.inl ⟨_, fun run' => handlerThread_goodHead hok (htask order run') rfl, ?_⟩
      unfold throwingThread throwingHandler handlerThread tryHandle
      rw [heta, hok]
      simp only [hreturning]
      rfl
  · refine Or.inl ⟨_, fun run' => handlerThread_badHead herror order run' requests_, ?_⟩
    unfold throwingThread handlerThread tryHandle
    rw [heta, herror]
    rfl

/-! ## Files -/

/-- A callback that sends the file of the name it makes of its request. -/
def sendsFile (order : IterationOrder Str Str) (files : Files) (autoDetectContentType : Bool)
    (fileName : Request → Str) (request : Request) (response : Response) (c : RestConnection) :
    RestConnection × Except Fault Unit :=
  response.sendFile order files (fileName request) autoDetectContentType c

/-- What becomes of a call of such a callback: the file goes out with a header of its own, or the
program ends and nothing has been sent. -/
structure SendsOrEnds (order : IterationOrder Str Str) (files : Files) (fileName : Request → Str)
    (id : UserId) (i : Invocation κ) (finished : Finished κ) : Prop where
  sends : ∀ content, files (fileName i.request) = some content →
    finished.events = [.invoke i, .deregister id] ∧
      ∃ h, IsFileHeader content i.response.header_ h ∧ finished.connection.stream_.sent =
        if i.request.connection_.stream_.good then h.toString order ++ content else []
  ends : files (fileName i.request) = none →
    finished.events = [.invoke i, .terminate (.runtimeError "Could not open file.".toList)] ∧
      finished.connection.stream_.sent = []

section

variable {order : IterationOrder Str Str} {files : Files} {autoDetectContentType : Bool}
  {fileName : Request → Str} {run : Throwing κ} {callback : κ}

theorem sendsOrEnds_ended (id : UserId) {i : Invocation κ}
    (hsent : i.request.connection_.stream_.sent = []) :
    SendsOrEnds order files fileName id i (ended order id i
      (sendsFile order files autoDetectContentType fileName i.request i.response
        i.request.connection_)) := by
  unfold sendsFile Response.sendFile
  refine ⟨fun content hfile => ?_, fun hfile => ?_⟩
  · refine ⟨by rw [sendFile_eq order _ hfile]; rfl,
      headerOfFile (fileName i.request) content autoDetectContentType i.response.header_,
      fileHeader_isFileHeader _ _ _, ?_⟩
    have hconnection : ∀ result : RestConnection × Except Fault Unit, result.2 = .ok () →
        (ended order id i result).connection = result.1 := by
      rintro ⟨c, result⟩ rfl
      rfl
    rw [hconnection _ (by rw [sendFile_eq order _ hfile])]
    cases hgood : i.request.connection_.stream_.good with
    | true =>
      rw [(sendFile_good order hgood hfile _ _).1, hsent]
      rfl
    | false =>
      rw [(sendFile_not_good order hgood _ _ _).1, hsent]
      rfl
  · rw [sendFile_none order _ hfile]
    exact ⟨rfl, hsent⟩

/-- **The name decides.** -/
theorem file_thread
    (hserves : run callback = sendsFile order files autoDetectContentType fileName)
    (requests_ : Requests κ) (id : UserId) (s : Str) {i : Invocation κ}
    (hcalls : .invoke i ∈ (throwingThread order run requests_ (accepted id s)).events)
    (hcallback : i.callback = callback) :
    SendsOrEnds order files fileName id i (throwingThread order run requests_ (accepted id s)) := by
  rcases throwingThread_cases order run requests_ id s with ⟨c, _, heq⟩ | ⟨i', hconnection, _, heq⟩
  · rw [heq] at hcalls
    cases List.mem_singleton.mp hcalls
  · rw [heq] at hcalls ⊢
    have hsame : i = i' := by
      generalize run i'.callback i'.request i'.response i'.request.connection_ = left at hcalls
      obtain ⟨c, result⟩ := left
      cases result with
      | ok => simpa [ended] using hcalls
      | error fault => cases fault <;> simpa [ended, Fault.isException] using hcalls
    subst hsame
    rw [hcallback, hserves]
    refine sendsOrEnds_ended id ?_
    rw [hconnection]
    exact (readHead_frame id s).2

end

/-! ## A name that is no file -/

/-- **A route that is not covered can be asked for, with values without end.** Whatever is to be
avoided by something that is made of the value, and does not cost infinitely many values, can be. -/
theorem exists_asking {before : List (Registration κ)} {r : Registration κ} {p : List Str}
    (hpattern : r.pattern = some p)
    (hlive : ∀ y ∈ before, y.verb = r.verb → ∀ q ∈ y.pattern, ¬ Covers parameterName q p)
    {name : Str → Str}
    (hname : Function.Injective name) {avoided : Set Str} (hfinite : avoided.Finite) :
    ∃ a h, name a ∉ avoided ∧ AsksFor r p (fun _ => a) h ∧
      LeavesTo before r.verb (p.map (fill parameterName fun _ => a)) := by
  let patterns := before.flatMap fun y => y.pattern.getD []
  let new (n : Nat) : Str := List.replicate (patterns.flatten.length + 1 + n) 'a'
  have hnew : ∀ n, new n ∈ newSegments patterns (n + 1) := fun n =>
    List.mem_map_of_mem (List.mem_range.mpr (Nat.lt_succ_self n))
  have hinjective : Function.Injective (name ∘ new) := by
    refine hname.comp fun m n hmn => ?_
    have hlength := congrArg List.length hmn
    rw [List.length_replicate, List.length_replicate] at hlength
    omega
  obtain ⟨_, ⟨n, rfl⟩, havoids⟩ :=
    (Set.infinite_range_of_injective hinjective).exists_notMem_finite hfinite
  have hword := newSegments_word (hnew n)
  have hpieces : IsPieces (p.map (fill parameterName fun _ => new n)) :=
    isPieces_fill (Registration.pattern_pieces hpattern) fun _ _ => hword
  obtain ⟨hpath, _⟩ := isPath_pieces hpieces
  refine ⟨new n, requestFor r.verb _ (isWord_path hpath), havoids, ⟨rfl, hpattern,
    fun _ _ => hword, [], "#a".toList, Or.inl rfl, Or.inr ⟨['a'], by decide, rfl⟩, rfl⟩, ?_⟩
  intro y hy hverb q hq hfits
  refine hlive y hy hverb q hq (covers_of_fill (fun x hx _ heq => ?_) hfits)
  refine newSegments_notMem (hnew n) ?_
  rw [← heq, List.mem_flatMap]
  exact ⟨y, hy, by rw [hq]; exact hx⟩

/-- **A route that sends files by a parameter can be made to end the program.** A registration has a
parameter in its pattern, its callback sends the file whose name is made of the value, and no earlier
registration of its method covers the pattern. Whatever else is registered:

- each call of the callback sends the file with a header of its own, or ends the program in
  `std::terminate` with nothing sent, and the latter exactly for the names of no file;
- and as there are finitely many files, there is a client whose request ends the program. -/
theorem file_route_ends (order : IterationOrder Str Str) (files : Files)
    (hfinite : {name | files name ≠ none}.Finite) (autoDetectContentType : Bool)
    (run : Throwing κ) {before behind : List (Registration κ)} {r : Registration κ} {p : List Str}
    (hpattern : r.pattern = some p)
    (hlive : ∀ y ∈ before, y.verb = r.verb → ∀ q ∈ y.pattern, ¬ Covers parameterName q p)
    {k : Str} (hk : k ∈ holes parameterName p)
    {name : Str → Str} (hname : Function.Injective name)
    (hserves : run r.callback = sendsFile order files autoDetectContentType fun request =>
      name (request.getParameter k)) :
    (∀ id s i, .invoke i ∈
        (throwingThread order run (registerAll (before ++ r :: behind)) (accepted id s)).events →
      i.callback = r.callback →
      SendsOrEnds order files (fun request => name (request.getParameter k)) id i
        (throwingThread order run (registerAll (before ++ r :: behind)) (accepted id s))) ∧
    ∃ s, ∀ id, ∃ i : Invocation κ, i.callback = r.callback ∧
      throwingThread order run (registerAll (before ++ r :: behind)) (accepted id s) =
        ⟨i.request.connection_,
          [.invoke i, .terminate (.runtimeError "Could not open file.".toList)]⟩ := by
  refine ⟨fun id s i hcalls hcallback => file_thread hserves _ id s hcalls hcallback, ?_⟩
  obtain ⟨a, h, havoids, hasks, hfirst⟩ :=
    exists_asking hpattern hlive hname hfinite
  refine ⟨h.render ++ [], fun id => ?_⟩
  obtain ⟨request, harrives, hthread⟩ :=
    handlerThread_delivers hasks hfirst behind order run.returning id []
  refine ⟨⟨r.callback, request, {}⟩, rfl, ?_⟩
  rcases throwingThread_cases order run (registerAll (before ++ r :: behind)) id
    (h.render ++ []) with ⟨c, hreturns, _⟩ | ⟨i, _, hreturns, heq⟩
  · have hevents := congrArg Finished.events (hthread.symm.trans (hreturns run.returning))
    cases hevents
  · have hevents := congrArg Finished.events (hthread.symm.trans (hreturns run.returning))
    have hcall : (⟨r.callback, request, {}⟩ : Invocation κ) = i :=
      Event.invoke.inj (List.cons.inj hevents).1
    have hfile : files (name (request.getParameter k)) = none := by
      rw [harrives.parameters k hk]
      by_contra hfile
      exact havoids hfile
    rw [heq, ← hcall, hserves]
    unfold sendsFile Response.sendFile
    rw [sendFile_none order _ hfile]
    rfl

/-- One file in a directory. -/
def oneFile : Files := fun name => if name = "/srv/index".toList then some "a".toList else none

theorem oneFile_finite : {name | oneFile name ≠ none}.Finite := by
  refine (Set.finite_singleton "/srv/index".toList).subset fun name hname => ?_
  by_contra hother
  exact hname (if_neg hother)

/-- Callbacks that send the file of the directory that the parameter `id` names. -/
def directory (order : IterationOrder Str Str) : Throwing Unit := fun _ =>
  sendsFile order oneFile true fun request => "/srv/".toList ++ request.getParameter "id".toList

/-- A client of this directory can end its program. -/
theorem file_route_ends_user : ∃ s, ∀ id, ∃ i : Invocation Unit, i.callback = () ∧
    throwingThread .arbitrary (directory .arbitrary) (registerAll [System.userRoute])
        (accepted id s) =
      ⟨i.request.connection_,
        [.invoke i, .terminate (.runtimeError "Could not open file.".toList)]⟩ := by
  have hpattern : System.userRoute.pattern = some ["u".toList, ":id".toList] := by rfl
  have hlive : ∀ y ∈ ([] : List (Registration Unit)), y.verb = System.userRoute.verb →
      ∀ q ∈ y.pattern, ¬ Covers parameterName q ["u".toList, ":id".toList] := nofun
  exact (file_route_ends .arbitrary oneFile oneFile_finite true (directory .arbitrary) hpattern hlive
    (by decide) (List.append_right_injective "/srv/".toList) rfl).2

end Rest
