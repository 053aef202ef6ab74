import SimpleRest.Lib.KeyIndex
import SimpleRest.ServerSteps

/-!
# SimpleREST — the registry of the connections

`connections_` is entered by the accept thread under ids of its own making and left by the handler
threads, in any order. An id is a counter of 64 bits, so two connections can have the same one, if
the accept loop has gone on by 2⁶⁴ in between. The registry is right as long as this does not
happen to a connection that is still registered:

- `Numbered`: the id of a connection is its number in the order of construction, wrapped around;
- `id_ne_of_window`: ids are distinct inside a window of 2⁶⁴ numbers;
- `Exact`: the map is the index of the live connections by their ids (`KeyIndex`), where an insert
  needs an id that is not taken and an erasure finds its own connection;
- `registry_exact`: what this comes to, for every run.
-/

namespace Rest

open Cpp Transition KeyIndex

/-- The connection of an iteration of the accept loop. -/
def AcceptPc.connection : AcceptPc → Option Connection
  | .accept c | .accepting c | .lock c | .insert c | .unlock c | .spawn c => some c
  | _ => none

/-- The connection has been registered, and its handler thread is still to be made. -/
def AcceptPc.registered : AcceptPc → Option Connection
  | .unlock c | .spawn c => some c
  | _ => none

/-- The erasure in `free` is still to come. -/
def HandlerPc.registered : HandlerPc → Bool
  | .unlock | .done => false
  | _ => true

namespace RestServer

variable {s t : RestServer}

/-! ## What is asked for -/

/-- The connection that is registered and has no handler thread yet. -/
def unhandled (s : RestServer) : Option Connection :=
  s.acceptingThread_.bind AcceptPc.registered

/-- The connections that have been accepted and have passed the registration, and whose `free` has
not come to its erasure, one for each thread that has one. -/
def live (s : RestServer) : List Connection :=
  (s.handlers.filter (·.pc.registered)).map (·.connection) ++ s.unhandled.toList

/-- No connection is still registered when the accept loop has gone on by 2⁶⁴ iterations. Each
iteration constructs one connection. -/
def NoneOutlasts (s : RestServer) : Prop :=
  ∀ k c, s.connections_.lookup k = some c → s.constructed ≤ c.serial + 2 ^ 64

/-- What the registry is for. -/
structure IsRegistry (s : RestServer) : Prop where
  /-- exactly the live connections are in it, each under its own id -/
  exact : ∀ k c, s.connections_.lookup k = some c ↔ c ∈ s.live ∧ c.id_ = k
  distinct : (s.live.map (·.id_)).Nodup
  /-- the insert of the accept thread makes an entry and leaves the others -/
  inserts : ∀ c ok t, s.acceptingThread_ = some (.insert c) → s.step (.accept ok) = some t →
    c.id_ ∉ s.connections_ ∧ t.connections_.lookup c.id_ = some c ∧
      ∀ k, k ≠ c.id_ → t.connections_.lookup k = s.connections_.lookup k
  /-- the erasure of a handler thread takes its own connection out and leaves the others -/
  erases : ∀ n hd next t, s.handlers[n]? = some hd → hd.pc = .erase →
    s.step (.handler n next) = some t →
    s.connections_.lookup hd.connection.id_ = some hd.connection ∧
      t.connections_.lookup hd.connection.id_ = none ∧
      ∀ k, k ≠ hd.connection.id_ → t.connections_.lookup k = s.connections_.lookup k
  /-- nothing is left behind: not by a handler that has finished, nor by a connection that has
  none to wait for -/
  empty : (∀ hd ∈ s.handlers, hd.pc = .done) → s.unhandled = none → s.connections_ = ∅

/-! ## Ids -/

/-- All connections there are, in the order in which they were constructed. -/
def held (s : RestServer) : List Connection :=
  s.handlers.map (·.connection) ++ (s.acceptingThread_.bind AcceptPc.connection).toList

/-- The connections are numbered without a repetition, and the counter is at the last number. -/
structure Numbered (s : RestServer) : Prop where
  counter : s.acceptingThread_ ≠ some .construct → s.idIncrement_ = .ofNat s.constructed
  counted : s.acceptingThread_ = some .construct → s.idIncrement_ = .ofNat (s.constructed + 1)
  ids : ∀ c ∈ s.held, c.id_ = .ofNat (c.serial + 1)
  below : ∀ c ∈ s.held, c.serial < s.constructed
  increasing : s.held.Pairwise fun c d => c.serial < d.serial

/-- Inside a window of 2⁶⁴ numbers no id comes twice. -/
theorem id_ne_of_window {m n : Nat} (hlt : m < n) (hwindow : n < m + 2 ^ 64) :
    UInt64.ofNat (m + 1) ≠ UInt64.ofNat (n + 1) := by
  intro h
  have hmod : (m + 1) % 2 ^ 64 = (n + 1) % 2 ^ 64 := by
    rw [← UInt64.toNat_ofNat', ← UInt64.toNat_ofNat', h]
  omega

theorem numbered_start : Numbered {} where
  counter := fun _ => rfl
  counted := nofun
  ids := nofun
  below := nofun
  increasing := .nil

/-- A step that neither counts nor constructs may give up a connection that has not been
registered. -/
theorem Numbered.of_sublist (hs : Numbered s) (hsub : t.held.Sublist s.held)
    (hconstructed : t.constructed = s.constructed) (hid : t.idIncrement_ = s.idIncrement_)
    (hpc : s.acceptingThread_ ≠ some .construct) (hpc' : t.acceptingThread_ ≠ some .construct) :
    Numbered t where
  counter _ := by rw [hid, hconstructed, hs.counter hpc]
  counted h := absurd h hpc'
  ids c hc := hs.ids c (hsub.subset hc)
  below c hc := by
    rw [hconstructed]
    exact hs.below c (hsub.subset hc)
  increasing := hs.increasing.sublist hsub

/-- The control makes no accept thread where one is running, and joins none that is not at its
end. -/
theorem ControlMove.numbered (h : ControlMove s t) (hcoherent : Coherent s) (hs : Numbered s) :
    Numbered t := by
  cases h with
  | goes next acceptor_ listening_ hlive hjoined => exact ⟨hs.1, hs.2, hs.3, hs.4, hs.5⟩
  | starts hpc =>
    have hnone := hcoherent.joined (by rw [hpc]; rfl)
    refine hs.of_sublist ?_ rfl rfl (by rw [hnone]; nofun) nofun
    unfold held
    rw [hnone]
    exact List.Sublist.refl _
  | joins caller hpc hfinished =>
    refine hs.of_sublist ?_ rfl rfl (by rw [hfinished]; nofun) nofun
    unfold held
    rw [hfinished]
    exact List.Sublist.refl _
  | destroys hpc => exact ⟨hs.1, hs.2, hs.3, hs.4, hs.5⟩

theorem Numbered.constructs (hs : Numbered s) (hpc : s.acceptingThread_ = some .construct) :
    Numbered { s with
      constructed := s.constructed + 1
      acceptingThread_ := some (.accept ⟨s.idIncrement_, s.constructed⟩) } := by
  have hbefore : s.held = s.handlers.map (·.connection) := by
    unfold held
    rw [hpc]
    exact List.append_nil _
  have hids := hs.ids
  have hbelow := hs.below
  have hincreasing := hs.increasing
  rw [hbefore] at hids hbelow hincreasing
  refine ⟨fun _ => hs.counted hpc, nofun, fun c hc => ?_, fun c hc => ?_, ?_⟩
  · rcases List.mem_append.mp hc with hold | hnew
    · exact hids c hold
    · rw [List.mem_singleton.mp hnew]
      exact hs.counted hpc
  · show c.serial < s.constructed + 1
    rcases List.mem_append.mp hc with hold | hnew
    · have hlt := hbelow c hold
      omega
    · rw [List.mem_singleton.mp hnew]
      exact Nat.lt_succ_self _
  · refine List.pairwise_append.mpr ⟨hincreasing, List.pairwise_singleton _ _, ?_⟩
    intro c hc d hd
    rw [List.mem_singleton.mp hd]
    exact hbelow c hc

/-- A step of the accept thread that keeps the connection of its iteration, or gives it up, keeps
the numbers. -/
theorem Numbered.of_iteration (hs : Numbered s) {pc pc' : AcceptPc}
    (hpc : s.acceptingThread_ = some pc) (hpc' : t.acceptingThread_ = some pc')
    (hne : pc ≠ .construct) (hne' : pc' ≠ .construct)
    (hconnection : pc'.connection = none ∨ pc'.connection = pc.connection)
    (hhandlers : t.handlers = s.handlers) (hconstructed : t.constructed = s.constructed)
    (hid : t.idIncrement_ = s.idIncrement_) : Numbered t := by
  refine hs.of_sublist ?_ hconstructed hid (by rw [hpc]; simpa using hne)
    (by rw [hpc']; simpa using hne')
  unfold held
  rw [hhandlers, hpc, hpc']
  refine List.Sublist.append_left ?_ _
  show (pc'.connection.toList).Sublist pc.connection.toList
  rcases hconnection with hnone | hsame
  · rw [hnone]
    exact List.nil_sublist _
  · rw [hsame]

theorem AcceptMove.numbered (h : AcceptMove s t) (hs : Numbered s) : Numbered t := by
  cases h with
  | test hpc =>
    refine hs.of_iteration hpc rfl nofun ?_ ?_ rfl rfl rfl
    · split <;> nofun
    · left
      split <;> rfl
  | increment hpc =>
    have hheld : held { s with
        idIncrement_ := s.idIncrement_ + 1, acceptingThread_ := some .construct } = s.held := by
      unfold held
      rw [hpc]
      rfl
    refine ⟨fun h => absurd rfl h, fun _ => ?_, ?_, ?_, ?_⟩
    · show s.idIncrement_ + 1 = UInt64.ofNat (s.constructed + 1)
      rw [hs.counter (by rw [hpc]; nofun), UInt64.ofNat_add]
      rfl
    · rw [hheld]
      exact hs.ids
    · rw [hheld]
      exact hs.below
    · rw [hheld]
      exact hs.increasing
  | construct hpc => exact hs.constructs hpc
  | accept c hpc =>
    refine hs.of_iteration hpc rfl nofun ?_ ?_ rfl rfl rfl
    · split <;> nofun
    · split
      · exact Or.inr rfl
      · exact Or.inl rfl
  | accepted c ok hpc =>
    refine hs.of_iteration hpc rfl nofun ?_ ?_ rfl rfl rfl
    · split <;> nofun
    · split
      · exact Or.inr rfl
      · exact Or.inl rfl
  | lock c hpc hfree => exact hs.of_iteration hpc rfl nofun nofun (Or.inr rfl) rfl rfl rfl
  | insert c hpc => exact hs.of_iteration hpc rfl nofun nofun (Or.inr rfl) rfl rfl rfl
  | unlock c hpc => exact hs.of_iteration hpc rfl nofun nofun (Or.inr rfl) rfl rfl rfl
  | spawn c hpc =>
    -- the handler thread takes the connection over
    refine hs.of_sublist ?_ rfl rfl (by rw [hpc]; nofun) nofun
    unfold held
    rw [hpc]
    simp [AcceptPc.connection]

theorem map_connection_set {n : Nat} {hd : Handler} (hget : s.handlers[n]? = some hd)
    (next : HandlerPc) : (s.handlers.set n { hd with pc := next }).map (·.connection) =
      s.handlers.map (·.connection) := by
  have hlt : n < s.handlers.length := (List.getElem?_eq_some_iff.mp hget).1
  refine List.ext_getElem? fun m => ?_
  rw [List.getElem?_map, List.getElem?_map]
  by_cases hm : n = m
  · rw [← hm, List.getElem?_set_self hlt, hget]
    rfl
  · rw [List.getElem?_set_ne hm]

theorem handlerStep_numbered {n : Nat} {next : HandlerPc} (h : s.handlerStep n next = some t)
    (hs : Numbered s) : Numbered t := by
  obtain ⟨hd, u, hget, _, hu, rfl⟩ := handlerStep_move h
  obtain ⟨_, hthread, _, _, hid, hconstructed⟩ := handlerEffect_frame hu
  have hheld : held { u with handlers := s.handlers.set n { hd with pc := next } } = s.held := by
    unfold held
    rw [map_connection_set hget, hthread]
  refine ⟨?_, ?_, ?_, ?_, ?_⟩
  · rw [hthread, hid, hconstructed]
    exact hs.counter
  · rw [hthread, hid, hconstructed]
    exact hs.counted
  · rw [hheld]
    exact hs.ids
  · rw [hheld, hconstructed]
    exact hs.below
  · rw [hheld]
    exact hs.increasing

theorem step_numbered {a : Action} (h : s.step a = some t) (hcoherent : Coherent s)
    (hs : Numbered s) : Numbered t := by
  rcases step_cases h with hmove | hmove | ⟨n, next, _, hmove⟩
  · exact hmove.numbered hcoherent hs
  · exact hmove.numbered hs
  · exact handlerStep_numbered hmove hs

/-! ## The live connections -/

theorem mem_live {c : Connection} : c ∈ s.live ↔
    (∃ (m : Nat) (hd : Handler), s.handlers[m]? = some hd ∧ hd.pc.registered = true ∧
        hd.connection = c) ∨
      s.unhandled = some c := by
  unfold live
  rw [List.mem_append, List.mem_map, Option.mem_toList]
  refine or_congr ⟨fun h => ?_, fun h => ?_⟩ Iff.rfl
  · obtain ⟨hd, hmem, hconnection⟩ := h
    rw [List.mem_filter] at hmem
    obtain ⟨m, hget⟩ := List.mem_iff_getElem?.mp hmem.1
    exact ⟨m, hd, hget, hmem.2, hconnection⟩
  · obtain ⟨m, hd, hget, hregistered, hconnection⟩ := h
    exact ⟨hd, List.mem_filter.mpr ⟨List.mem_of_getElem? hget, hregistered⟩, hconnection⟩

theorem registered_connection {pc : AcceptPc} {c : Connection} (h : pc.registered = some c) :
    pc.connection = some c := by
  cases pc with
  | unlock d => exact h
  | spawn d => exact h
  | _ => cases h

theorem unhandled_sublist (s : RestServer) : s.unhandled.toList.Sublist
    (s.acceptingThread_.bind AcceptPc.connection).toList := by
  cases hunhandled : s.unhandled with
  | none => exact List.nil_sublist _
  | some c =>
    obtain ⟨pc, hpc, hregistered⟩ := Option.bind_eq_some_iff.mp hunhandled
    rw [hpc]
    show [c].Sublist pc.connection.toList
    rw [registered_connection hregistered]
    exact List.Sublist.refl _

theorem live_sublist_held (s : RestServer) : s.live.Sublist s.held :=
  (List.filter_sublist.map _).append s.unhandled_sublist

/-- The connection of an iteration is younger than all that have a handler thread. -/
theorem Numbered.serial_lt (hs : Numbered s) {hd : Handler} (hmem : hd ∈ s.handlers)
    {c : Connection} (hc : s.acceptingThread_.bind AcceptPc.connection = some c) :
    hd.connection.serial < c.serial := by
  have hincreasing := hs.increasing
  unfold held at hincreasing
  rw [hc] at hincreasing
  exact (List.pairwise_append.mp hincreasing).2.2 _ (List.mem_map_of_mem hmem) c
    List.mem_cons_self

theorem Numbered.nodup (hs : Numbered s) : s.held.Nodup := by
  refine hs.increasing.imp fun hlt heq => ?_
  rw [heq] at hlt
  exact Nat.lt_irrefl _ hlt

/-- No two handler threads have the same connection. -/
theorem Numbered.connection_ne (hs : Numbered s) {m n : Nat} {hd hd' : Handler} (hmn : m ≠ n)
    (hget : s.handlers[m]? = some hd) (hget' : s.handlers[n]? = some hd') :
    hd.connection ≠ hd'.connection := by
  have hnodup : (s.handlers.map (·.connection)).Nodup := (List.nodup_append.mp hs.nodup).1
  intro heq
  refine hmn ((List.getElem?_inj ?_ hnodup).mp ?_)
  · rw [List.length_map]
    exact (List.getElem?_eq_some_iff.mp hget).1
  · rw [List.getElem?_map, List.getElem?_map, hget, hget']
    exact congrArg some heq

/-! ## The map -/

/-- The map is the index of the live connections by their ids. -/
def Exact (s : RestServer) : Prop :=
  IndexedBy Connection.id_ {c | c ∈ s.live} s.connections_

theorem Exact.congr (hs : Exact s) (hconnections : t.connections_ = s.connections_)
    (hlive : ∀ c, c ∈ t.live ↔ c ∈ s.live) : Exact t := by
  unfold Exact
  rw [hconnections]
  exact IndexedBy.congr hs hlive

/-- A step that leaves the live connections and the map alone. -/
theorem Exact.of_eq (hs : Exact s) (hhandlers : t.handlers = s.handlers)
    (hunhandled : t.unhandled = s.unhandled) (hconnections : t.connections_ = s.connections_) :
    Exact t := by
  refine hs.congr hconnections fun c => ?_
  unfold live
  rw [hhandlers, hunhandled]

theorem ControlMove.exact (h : ControlMove s t) (hcoherent : Coherent s) (hs : Exact s)
    (hlive : t.control ≠ .destroyed) : Exact t := by
  cases h with
  | goes next acceptor_ listening_ _ hjoined => exact hs.of_eq rfl rfl rfl
  | starts hpc =>
    have hnone := hcoherent.joined (by rw [hpc]; rfl)
    refine hs.of_eq rfl ?_ rfl
    unfold unhandled
    rw [hnone]
    rfl
  | joins caller hpc hfinished =>
    refine hs.of_eq rfl ?_ rfl
    unfold unhandled
    rw [hfinished]
    rfl
  | destroys hpc => exact absurd rfl hlive

/-- The id of a connection that is about to be registered is not taken. -/
theorem fresh_of_window (hnumbered : Numbered s) (hs : Exact s) (hwindow : NoneOutlasts s)
    {c : Connection} (hpc : s.acceptingThread_ = some (.insert c)) : c.id_ ∉ s.connections_ := by
  intro htaken
  obtain ⟨d, hd, hid⟩ := (hs.mem_iff c.id_).mp htaken
  have hcheld : c ∈ s.held := by
    unfold held
    rw [hpc]
    exact List.mem_append_right _ List.mem_cons_self
  have hdheld : d ∈ s.held := s.live_sublist_held.subset hd
  -- `d` has a handler thread, and is older
  have holder : d.serial < c.serial := by
    rcases mem_live.mp hd with ⟨m, handler, hget, _, hconnection⟩ | hunhandled
    · rw [← hconnection]
      exact hnumbered.serial_lt (List.mem_of_getElem? hget) (by rw [hpc]; rfl)
    · unfold unhandled at hunhandled
      rw [hpc] at hunhandled
      cases hunhandled
  have hbelow := hnumbered.below c hcheld
  have hwithin := hwindow c.id_ d ((hs c.id_ d).mpr ⟨hd, hid⟩)
  rw [hnumbered.ids c hcheld, hnumbered.ids d hdheld] at hid
  exact id_ne_of_window holder (by omega) hid

theorem AcceptMove.exact (h : AcceptMove s t) (hnumbered : Numbered s) (hs : Exact s)
    (hwindow : NoneOutlasts s) : Exact t := by
  have hunhandled : ∀ pc, s.acceptingThread_ = some pc → s.unhandled = pc.registered := by
    intro pc hpc
    unfold unhandled
    rw [hpc]
    rfl
  cases h with
  | test hpc =>
    refine hs.of_eq rfl ?_ rfl
    rw [hunhandled _ hpc]
    show (if s.listening_ then AcceptPc.increment else .finished).registered = _
    split <;> rfl
  | increment hpc => exact hs.of_eq rfl (hunhandled _ hpc).symm rfl
  | construct hpc => exact hs.of_eq rfl (hunhandled _ hpc).symm rfl
  | accept c hpc =>
    refine hs.of_eq rfl ?_ rfl
    rw [hunhandled _ hpc]
    show (if s.acceptor_ then AcceptPc.accepting c else .crashed).registered = _
    split <;> rfl
  | accepted c ok hpc =>
    refine hs.of_eq rfl ?_ rfl
    rw [hunhandled _ hpc]
    show (if ok then AcceptPc.lock c else .testListening).registered = _
    split <;> rfl
  | lock c hpc hfree => exact hs.of_eq rfl (hunhandled _ hpc).symm rfl
  | insert c hpc =>
    have hfresh := fresh_of_window hnumbered hs hwindow hpc
    unfold Exact
    simp only [if_neg hfresh]
    refine IndexedBy.insert hs hfresh fun d => ?_
    show d ∈ live _ ↔ d ∈ s.live ∨ d = c
    rw [mem_live, mem_live, hunhandled _ hpc]
    show _ ∨ some c = some d ↔ (_ ∨ none = some d) ∨ d = c
    simp only [Option.some.injEq, reduceCtorEq, or_false, eq_comm]
  | unlock c hpc => exact hs.of_eq rfl (hunhandled _ hpc).symm rfl
  | spawn c hpc =>
    -- the connection goes over to its handler thread
    refine hs.congr rfl fun d => ?_
    unfold live
    rw [hunhandled _ hpc]
    simp [unhandled, AcceptPc.registered, HandlerPc.registered]

/-- A connection is live, but not by the `n`-th handler thread. -/
def LiveElsewhere (s : RestServer) (n : Nat) (c : Connection) : Prop :=
  (∃ (m : Nat) (hd : Handler), m ≠ n ∧ s.handlers[m]? = some hd ∧ hd.pc.registered = true ∧
    hd.connection = c) ∨ s.unhandled = some c

theorem mem_live_iff {n : Nat} {hd : Handler} (hget : s.handlers[n]? = some hd) {c : Connection} :
    c ∈ s.live ↔ (hd.pc.registered = true ∧ hd.connection = c) ∨ s.LiveElsewhere n c := by
  rw [mem_live]
  refine ⟨fun h => ?_, fun h => ?_⟩
  · rcases h with ⟨m, hd', hget', hregistered, hconnection⟩ | hunhandled
    · by_cases hmn : m = n
      · rw [hmn, hget] at hget'
        rw [← Option.some.inj hget'] at hregistered hconnection
        exact Or.inl ⟨hregistered, hconnection⟩
      · exact Or.inr (Or.inl ⟨m, hd', hmn, hget', hregistered, hconnection⟩)
    · exact Or.inr (Or.inr hunhandled)
  · rcases h with ⟨hregistered, hconnection⟩ | helse | hunhandled
    · exact Or.inl ⟨n, hd, hget, hregistered, hconnection⟩
    · obtain ⟨m, hd', _, hget', hregistered, hconnection⟩ := helse
      exact Or.inl ⟨m, hd', hget', hregistered, hconnection⟩
    · exact Or.inr hunhandled

theorem LiveElsewhere.ne (hs : Numbered s) {n : Nat} {hd : Handler}
    (hget : s.handlers[n]? = some hd) {c : Connection} (h : s.LiveElsewhere n c) :
    c ≠ hd.connection := by
  rcases h with ⟨m, hd', hmn, hget', _, hconnection⟩ | hunhandled
  · rw [← hconnection]
    exact hs.connection_ne hmn hget' hget
  · intro heq
    obtain ⟨pc, hpc, hregistered⟩ := Option.bind_eq_some_iff.mp hunhandled
    have hlt : hd.connection.serial < c.serial := by
      refine hs.serial_lt (List.mem_of_getElem? hget) ?_
      rw [hpc]
      exact registered_connection hregistered
    rw [heq] at hlt
    exact Nat.lt_irrefl _ hlt

/-- A handler thread that goes on is no matter for the other connections. -/
theorem handlerStep_live {n : Nat} {next : HandlerPc} {hd : Handler} {u : RestServer}
    (hget : s.handlers[n]? = some hd) (hu : s.handlerEffect n hd = some u) (c : Connection) :
    c ∈ ({ u with handlers := s.handlers.set n { hd with pc := next } } : RestServer).live ↔
      (next.registered = true ∧ hd.connection = c) ∨ s.LiveElsewhere n c := by
  obtain ⟨_, hthread, _⟩ := handlerEffect_frame hu
  have hself : (s.handlers.set n { hd with pc := next })[n]? = some { hd with pc := next } :=
    List.getElem?_set_self (List.getElem?_eq_some_iff.mp hget).1
  rw [mem_live_iff (n := n) hself]
  refine or_congr Iff.rfl (or_congr ?_ ?_)
  · refine exists_congr fun m => exists_congr fun hd' => and_congr_right fun hmn => ?_
    show (s.handlers.set n _)[m]? = some hd' ∧ _ ↔ _
    rw [List.getElem?_set_ne (fun h => hmn h.symm)]
  · show u.acceptingThread_.bind _ = some c ↔ _
    rw [hthread]
    rfl

theorem handlerEffect_connections {n : Nat} {hd : Handler} {u : RestServer}
    (h : s.handlerEffect n hd = some u) :
    u.connections_ = if hd.pc = .erase then s.connections_.erase hd.connection.id_
      else s.connections_ := by
  unfold handlerEffect at h
  split at h
  · next hpc =>
    split at h
    · cases h
      rw [hpc]
      rfl
    · cases h
  · next hpc =>
    cases h
    rw [hpc]
    rfl
  · next hpc =>
    cases h
    rw [hpc]
    rfl
  · next hne _ =>
    cases h
    rw [if_neg (by assumption)]

theorem registered_of_successor {pc next : HandlerPc} (hne : pc ≠ .erase)
    (hnext : next ∈ pc.successors) : next.registered = pc.registered := by
  cases pc with
  | erase => exact absurd rfl hne
  | done => cases hnext
  | _ =>
    -- only a thread behind its erasure comes to `unlock` or `done`
    cases next <;> first | rfl | simp [HandlerPc.successors] at hnext

theorem handlerStep_exact {n : Nat} {next : HandlerPc} (h : s.handlerStep n next = some t)
    (hnumbered : Numbered s) (hs : Exact s) : Exact t := by
  obtain ⟨hd, u, hget, hnext, hu, rfl⟩ := handlerStep_move h
  have hconnections := handlerEffect_connections hu
  by_cases hpc : hd.pc = .erase
  · rw [if_pos hpc] at hconnections
    have hlive : hd.connection ∈ s.live :=
      (mem_live_iff hget).mpr (Or.inl ⟨by rw [hpc]; rfl, rfl⟩)
    have hunlock : next = .unlock := by
      rw [hpc] at hnext
      exact List.mem_singleton.mp hnext
    have hgone : ∀ c, c ∈ ({ u with
        handlers := s.handlers.set n { hd with pc := next } } : RestServer).live ↔
          c ∈ s.live ∧ c ≠ hd.connection := by
      intro c
      rw [handlerStep_live hget hu, mem_live_iff hget, hunlock]
      refine ⟨fun hc => ?_, fun hc => ?_⟩
      · rcases hc with hself | helse
        · cases hself.1
        · exact ⟨Or.inr helse, helse.ne hnumbered hget⟩
      · rcases hc.1 with hself | helse
        · exact absurd hself.2.symm hc.2
        · exact Or.inr helse
    have hindex := IndexedBy.erase hs hlive hgone
    rw [← hconnections] at hindex
    exact hindex
  · rw [if_neg hpc] at hconnections
    refine hs.congr hconnections fun c => ?_
    rw [handlerStep_live hget hu, mem_live_iff hget, registered_of_successor hpc hnext]

/-! ## Runs -/

theorem destroyed_stays {a : Action} (h : s.step a = some t) (hpc : s.control = .destroyed) :
    t.control = .destroyed := by
  cases a with
  | callStart => simp only [step, call, hpc, reduceCtorEq] at h
  | callStop => simp only [step, call, hpc, reduceCtorEq] at h
  | callDestructor => simp only [step, call, hpc, reduceCtorEq] at h
  | bindFails => simp only [step, bindFails, hpc, reduceCtorEq] at h
  | control => simp only [step, controlStep, hpc, reduceCtorEq] at h
  | accept ok => rw [(acceptStep_move h).control_eq, hpc]
  | handler n next => rw [handlerStep_control h, hpc]

/-- What a run keeps in which no connection outlasts the window. -/
structure Registered (s : RestServer) : Prop where
  coherent : Coherent s
  numbered : Numbered s
  exact : s.control ≠ .destroyed → Exact s

theorem registered_start : Registered {} where
  coherent := coherent_start
  numbered := numbered_start
  exact _ := indexedBy_empty.congr fun _ => iff_of_false nofun id

theorem step_registered {a : Action} (hs : Registered s) (hwindow : NoneOutlasts s)
    (h : s.step a = some t) : Registered t := by
  refine ⟨step_coherent h hs.coherent, step_numbered h hs.coherent hs.numbered, fun hlive => ?_⟩
  have hbefore := hs.exact fun hpc => hlive (destroyed_stays h hpc)
  rcases step_cases h with hmove | hmove | ⟨n, next, _, hmove⟩
  · exact hmove.exact hs.coherent hbefore hlive
  · exact hmove.exact hs.numbered hbefore hwindow
  · exact handlerStep_exact hmove hs.numbered hbefore

theorem Exact.isRegistry (hs : Exact s) (hnumbered : Numbered s) (hwindow : NoneOutlasts s) :
    IsRegistry s where
  exact := hs
  distinct := by
    refine List.Nodup.map_on (fun c hc d hd hid => hs.injOn hc hd hid) ?_
    exact hnumbered.nodup.sublist s.live_sublist_held
  inserts c ok t hpc hstep := by
    have hfresh := fresh_of_window hnumbered hs hwindow hpc
    simp only [step, acceptStep, hpc, if_neg hfresh, Option.some.injEq] at hstep
    rw [← hstep]
    exact ⟨hfresh, Finmap.lookup_insert _, fun k hk => Finmap.lookup_insert_of_ne _ hk⟩
  erases n hd next t hget hpc hstep := by
    obtain ⟨hd', u, hget', _, hu, rfl⟩ := handlerStep_move hstep
    rw [hget] at hget'
    cases hget'
    have hconnections := handlerEffect_connections hu
    rw [if_pos hpc] at hconnections
    have hlive : hd.connection ∈ s.live :=
      (mem_live_iff hget).mpr (Or.inl ⟨by rw [hpc]; rfl, rfl⟩)
    refine ⟨hs.lookup hlive, ?_, fun k hk => ?_⟩
    · show u.connections_.lookup _ = none
      rw [hconnections, Finmap.lookup_erase]
    · show u.connections_.lookup k = _
      rw [hconnections, Finmap.lookup_erase_ne hk]
  empty hdone hnone := by
    refine hs.eq_empty (Set.eq_empty_of_forall_notMem fun c hc => ?_)
    rcases mem_live.mp hc with ⟨m, hd, hget, hregistered, _⟩ | hunhandled
    · rw [hdone hd (List.mem_of_getElem? hget)] at hregistered
      cases hregistered
    · rw [hnone] at hunhandled
      cases hunhandled

/-- **The registry is exact.** In every run, of any order of the steps of the accept thread, of the
handler threads and of the calls of the user, as long as no connection is still registered when the
accept loop has gone on by 2⁶⁴ iterations: the map of a server that is not destroyed holds the live
connections and no others, their ids are distinct, an insert makes an entry, an erasure takes out
the caller's own, and nothing is left when all is done. -/
theorem registry_exact (hrun : Transition.Run step (fun s _ => NoneOutlasts s) {} s)
    (hwindow : NoneOutlasts s) : s.control ≠ .destroyed → IsRegistry s := by
  intro hlive
  have hregistered : Registered s :=
    Run.invariant registered_start (fun _ _ _ hs hwindow h => step_registered hs hwindow h) hrun
  exact (hregistered.exact hlive).isRegistry hregistered.numbered hwindow

/-! ## The first 2⁶⁴ connections -/

theorem step_constructed {a : Action} (h : s.step a = some t) : s.constructed ≤ t.constructed := by
  rcases step_cases h with hmove | hmove | ⟨n, next, _, hmove⟩
  · cases hmove with
    | _ => exact Nat.le_refl _
  · cases hmove with
    | construct hpc => exact Nat.le_succ _
    | _ => exact Nat.le_refl _
  · obtain ⟨hd, u, _, _, hu, rfl⟩ := handlerStep_move hmove
    exact Nat.le_of_eq (handlerEffect_frame hu).2.2.2.2.2.symm

theorem noneOutlasts_of_few (hfew : s.constructed ≤ 2 ^ 64) : NoneOutlasts s := by
  intro k c _
  omega

/-- Up to the 2⁶⁴-th connection nothing is asked of a run. -/
theorem run_of_few (h : Reachable s) (hfew : s.constructed ≤ 2 ^ 64) :
    Transition.Run step (fun s _ => NoneOutlasts s) {} s := by
  induction h with
  | refl => exact Relation.ReflTransGen.refl
  | @tail u t _ hstep ih =>
    obtain ⟨a, _, ha⟩ := hstep
    have hbefore : u.constructed ≤ 2 ^ 64 := Nat.le_trans (step_constructed ha) hfew
    exact (ih hbefore).tail ⟨a, noneOutlasts_of_few hbefore, ha⟩

/-- Three iterations: a client that is answered and gone, an `accept` that fails, and a client
that is still sending its head. -/
def threeIterations : List Action :=
  List.flatten
    [[.callStart, .control, .control, .control, .control],
      List.replicate 9 (.accept true),
      [.handler 0 .callHandler, .handler 0 .handling, .handler 0 .lock, .handler 0 .erase,
        .handler 0 .unlock, .handler 0 .done],
      List.replicate 4 (.accept true),
      [.accept false],
      List.replicate 9 (.accept true)]

/-- Behind them the third connection is registered, under the id 3. -/
theorem registry_exact_three : ∃ s, perform step {} threeIterations = some s ∧
    s.live = [⟨3, 2⟩] ∧ IsRegistry s := by
  obtain ⟨s, hs, hfew, hpc, hlive⟩ : ∃ s, perform step {} threeIterations = some s ∧
      s.constructed = 3 ∧ s.control = .idle ∧ s.live = [⟨3, 2⟩] := ⟨_, rfl, rfl, rfl, rfl⟩
  have hbound : s.constructed ≤ 2 ^ 64 := by
    rw [hfew]
    omega
  refine ⟨s, hs, hlive, registry_exact (run_of_few (run_of_perform hs) hbound)
    (noneOutlasts_of_few hbound) ?_⟩
  rw [hpc]
  nofun

/-! ## The lock -/

/-- The threads inside a `LOCK_SCOPE` have the lock. -/
structure Locked (s : RestServer) : Prop where
  accept : ∀ pc, s.acceptingThread_ = some pc → pc.inside = true → s.memberLock_ = some .accept
  handler : ∀ (n : Nat) (hd : Handler), s.handlers[n]? = some hd → hd.pc.inside = true →
    s.memberLock_ = some (.handler n)

theorem locked_start : Locked {} where
  accept := nofun
  handler := nofun

theorem ControlMove.locked (h : ControlMove s t) (hs : Locked s) : Locked t := by
  cases h with
  | goes next acceptor_ listening_ hlive hjoined => exact ⟨hs.accept, hs.handler⟩
  | starts hpc =>
    refine ⟨fun pc hpc hinside => ?_, hs.handler⟩
    have htest : AcceptPc.testListening = pc := Option.some.inj hpc
    rw [← htest] at hinside
    cases hinside
  | joins caller hpc hfinished => exact ⟨nofun, hs.handler⟩
  | destroys hpc => exact ⟨hs.accept, hs.handler⟩

theorem AcceptMove.locked (h : AcceptMove s t) (hs : Locked s) : Locked t := by
  -- what remains to be seen when the thread ends up outside and leaves the lock alone
  have houtside : ∀ {u : RestServer} {pc : AcceptPc}, u.acceptingThread_ = some pc →
      pc.inside = false → u.handlers = s.handlers → u.memberLock_ = s.memberLock_ → Locked u := by
    intro u pc hpc hout hhandlers hlock
    refine ⟨fun pc' hpc' hinside => ?_, ?_⟩
    · rw [hpc] at hpc'
      rw [← Option.some.inj hpc', hout] at hinside
      cases hinside
    · rw [hhandlers, hlock]
      exact hs.handler
  cases h with
  | test hpc => exact houtside rfl (by split <;> rfl) rfl rfl
  | increment hpc => exact houtside rfl rfl rfl rfl
  | construct hpc => exact houtside rfl rfl rfl rfl
  | accept c hpc => exact houtside rfl (by split <;> rfl) rfl rfl
  | accepted c ok hpc => exact houtside rfl (by split <;> rfl) rfl rfl
  | lock c hpc hfree =>
    -- nobody is inside when the lock is free
    refine ⟨fun _ _ _ => rfl, fun n hd hget hinside => ?_⟩
    have hlock := hs.handler n hd hget hinside
    rw [hfree] at hlock
    cases hlock
  | insert c hpc => exact ⟨fun _ _ _ => hs.accept _ hpc rfl, hs.handler⟩
  | unlock c hpc =>
    refine ⟨fun pc hpc' hinside => ?_, fun n hd hget hinside => ?_⟩
    · rw [← Option.some.inj hpc'] at hinside
      cases hinside
    · have hlock := hs.handler n hd hget hinside
      rw [hs.accept _ hpc rfl] at hlock
      cases hlock
  | spawn c hpc =>
    refine ⟨fun pc hpc' hinside => ?_, fun n hd hget hinside => ?_⟩
    · rw [← Option.some.inj hpc'] at hinside
      cases hinside
    · by_cases hn : n < s.handlers.length
      · exact hs.handler n hd (List.getElem?_append_left hn ▸ hget) hinside
      · -- the new thread is still reading
        have hget' : [(⟨c, .reading⟩ : Handler)][n - s.handlers.length]? = some hd := by
          rw [← List.getElem?_append_right (Nat.le_of_not_lt hn)]
          exact hget
        rw [List.mem_singleton.mp (List.mem_of_getElem? hget')] at hinside
        cases hinside

theorem inside_of_successor {pc next : HandlerPc} (hnext : next ∈ pc.successors)
    (hinside : next.inside = true) : pc = .lock ∨ pc = .erase := by
  cases pc <;> cases next <;> simp_all [HandlerPc.successors, HandlerPc.inside]

theorem handlerStep_locked {n : Nat} {next : HandlerPc} (h : s.handlerStep n next = some t)
    (hs : Locked s) : Locked t := by
  obtain ⟨hd, u, hget, hnext, hu, rfl⟩ := handlerStep_move h
  obtain ⟨_, hthread, _⟩ := handlerEffect_frame hu
  have hlen : n < s.handlers.length := (List.getElem?_eq_some_iff.mp hget).1
  refine ⟨fun pc hpc hinside => ?_, fun m hd' hget' hinside => ?_⟩
  · -- the accept thread is inside: this one is not
    show u.memberLock_ = _
    have haccept := hs.accept pc (hthread ▸ hpc) hinside
    rcases handlerEffect_lock hu with ⟨_, hfree, _⟩ | ⟨hunlock, _⟩ | ⟨_, _, hsame⟩
    · rw [hfree] at haccept
      cases haccept
    · rw [hs.handler n hd hget (by rw [hunlock]; rfl)] at haccept
      cases haccept
    · rw [hsame, haccept]
  · show u.memberLock_ = _
    by_cases hmn : m = n
    · rw [hmn] at hget' ⊢
      rw [show (s.handlers.set n { hd with pc := next })[n]? = some { hd with pc := next } from
        List.getElem?_set_self hlen] at hget'
      rw [← Option.some.inj hget'] at hinside
      rcases handlerEffect_lock hu with ⟨_, _, hlock⟩ | ⟨hunlock, _⟩ | ⟨hne, _, hsame⟩
      · exact hlock
      · rw [hunlock] at hnext
        rw [List.mem_singleton.mp hnext] at hinside
        cases hinside
      · rcases inside_of_successor hnext hinside with hlock | herase
        · exact absurd hlock hne
        · rw [hsame]
          exact hs.handler n hd hget (by rw [herase]; rfl)
    · rw [show (s.handlers.set n { hd with pc := next })[m]? = s.handlers[m]? from
        List.getElem?_set_ne (fun h => hmn h.symm)] at hget'
      have hother := hs.handler m hd' hget' hinside
      rcases handlerEffect_lock hu with ⟨_, hfree, _⟩ | ⟨hunlock, _⟩ | ⟨_, _, hsame⟩
      · rw [hfree] at hother
        cases hother
      · rw [hs.handler n hd hget (by rw [hunlock]; rfl)] at hother
        exact absurd (Holder.handler.inj (Option.some.inj hother)).symm hmn
      · rw [hsame, hother]

/-- **Mutual exclusion.** In every reachable state the thread that is at the map has the lock, so
there is at most one. -/
theorem Reachable.locked (h : Reachable s) : Locked s := by
  refine Run.invariant locked_start (fun s a t hs _ hstep => ?_) h
  rcases step_cases hstep with hmove | hmove | ⟨n, next, _, hmove⟩
  · exact hmove.locked hs
  · exact hmove.locked hs
  · exact handlerStep_locked hmove hs

end RestServer

end Rest
