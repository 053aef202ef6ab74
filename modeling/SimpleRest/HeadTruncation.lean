import SimpleRest.HandlerOutcome
import SimpleRest.HeadFields

/-!
# SimpleREST — truncated heads

When `readHead` returns, was there a head? `CompleteHead` is what a head is: a request line
ended by a newline, header lines, and an empty line. Two kinds of streams are served without
one, those that are cut behind their version (`CutHead`) and those whose request line is spread
over several lines (`SpreadHead`).

A proper prefix of a head can only be cut or end early: one that ended its head would still do
so in front of what is missing (`readHead_complete` leaves the rest), and one that went wrong
would still go wrong (`GoesWrong.append`). In both cases the stream is at its end, so no answer
reaches the client.
-/

namespace Rest.RestConnection

open Cpp IStream

/-! ## What a head is -/

/-- One line with the three words of a request, the third a version. -/
def IsRequestLine (line : Str) : Prop :=
  '\n' ∉ line ∧ ∃ w, StartsWith line w ∧ IsVersion w.version

/-- The stream holds a request line, ended by a newline, header lines, and an empty line. -/
def CompleteHead (s : Str) : Prop :=
  ∃ lead line lines rest, IsBlank lead ∧ IsRequestLine line ∧ (∀ l ∈ lines, IsHeaderLine l) ∧
    s = lead ++ (line ++ '\n' :: (joinLines lines ++ '\r' :: '\n' :: rest))

/-- The words of the request stand on more than one line. -/
def SpreadHead (s : Str) : Prop :=
  ∃ w lines rest, StartsWith s w ∧ IsVersion w.version ∧ CompleteAfter w.after lines rest ∧
    ('\n' ∈ w.gap₁ ∨ '\n' ∈ w.gap₂)

theorem not_newline_word {w : Str} (h : IsWord w) : '\n' ∉ w := by
  intro hmem
  exact absurd (h.2 _ hmem) (by decide)

/-- A stream with a complete head starts with the words of its request line, which has no newline
between them, and its header lines are complete. -/
theorem CompleteHead.words {s : Str} (h : CompleteHead s) :
    ∃ w lines rest, StartsWith s w ∧ IsVersion w.version ∧ CompleteAfter w.after lines rest ∧
      '\n' ∉ w.gap₁ ∧ '\n' ∉ w.gap₂ := by
  obtain ⟨lead, line, lines, rest, hlead, ⟨hline, w, hw, hversion⟩, hlines, hs⟩ := h
  have hparts := hline
  rw [hw.eq] at hparts
  simp only [List.mem_append, not_or] at hparts
  obtain ⟨_, _, hgap₁, _, hgap₂, _, hafter⟩ := hparts
  refine ⟨{ w with
      lead := lead ++ w.lead
      after := w.after ++ '\n' :: (joinLines lines ++ '\r' :: '\n' :: rest) }, lines, rest,
    ⟨?_, ?_, hw.method, hw.gap₁, hw.target, hw.gap₂, hw.version, ?_⟩, hversion,
    ⟨_, ⟨w.after, rfl, hafter⟩, hlines, rfl⟩, hgap₁, hgap₂⟩
  · rw [hs, hw.eq]
    simp
  · intro c hc
    rcases List.mem_append.mp hc with hc | hc
    · exact hlead c hc
    · exact hw.lead c hc
  · -- behind the version comes the gap it had on its line, or the newline
    intro c hc
    by_cases hnil : w.after = []
    · rw [hnil] at hc
      have hc : c = '\n' := by simpa [eq_comm] using hc
      rw [hc]
      decide
    · rw [List.head?_append_of_ne_nil _ hnil] at hc
      exact hw.after c hc

/-- A stream that ends its head has a complete one, unless its request line is spread. -/
theorem EndsHead.completeHead {s : Str} (h : EndsHead s) (hspread : ¬ SpreadHead s) :
    CompleteHead s := by
  obtain ⟨w, lines, rest, hw, hversion, s', ⟨tail, hafter, htail⟩, hlines, hs'⟩ := h
  have hgaps : '\n' ∉ w.gap₁ ∧ '\n' ∉ w.gap₂ := by
    rw [← not_or]
    exact fun hgap => hspread ⟨w, lines, rest, hw, hversion, ⟨s', ⟨tail, hafter, htail⟩, hlines, hs'⟩, hgap⟩
  have hatgap : AtGap tail := by
    intro c hc
    have hne : tail ≠ [] := by
      intro hnil
      rw [hnil] at hc
      exact absurd hc (by simp)
    apply hw.after c
    rw [hafter, List.head?_append_of_ne_nil _ hne]
    exact hc
  refine ⟨w.lead, w.method ++ (w.gap₁ ++ (w.target ++ (w.gap₂ ++ (w.version ++ tail)))), lines, rest,
    hw.lead, ⟨?_, ⟨[], w.method, w.gap₁, w.target, w.gap₂, w.version, tail⟩,
      ⟨rfl, by simp [IsBlank], hw.method, hw.gap₁, hw.target, hw.gap₂, hw.version, hatgap⟩,
      hversion⟩, hlines, ?_⟩
  · -- neither the words nor what lies between them breaks the line
    simp only [List.mem_append, not_or]
    exact ⟨not_newline_word hw.method, hgaps.1, not_newline_word hw.target, hgaps.2,
      not_newline_word hw.version, htail⟩
  · rw [hw.eq, hafter, hs']
    simp

/-- **When a head that is served is complete.** -/
theorem completeHead_of_ok_iff (id : UserId) (s : Str) :
    ((accepted id s).readHead.2 = .ok () → CompleteHead s) ↔ ¬ CutHead s ∧ ¬ SpreadHead s := by
  refine ⟨fun h => ⟨fun hcut => ?_, fun hspread => ?_⟩, fun h hok => ?_⟩
  · -- a cut stream is served, and a complete one is not cut
    obtain ⟨w, lines, rest, hw, hversion, hafter, _⟩ := (h (readHead_cutHead hcut id).1).words
    exact EndsHead.not_cutHead ⟨w, lines, rest, hw, hversion, hafter⟩ hcut
  · obtain ⟨w, lines, rest, hw, hversion, hafter, hgap⟩ := hspread
    have hends : EndsHead s := ⟨w, lines, rest, hw, hversion, hafter⟩
    obtain ⟨w', _, _, hw', _, _, hgap₁, hgap₂⟩ := (h (readHead_endsHead hends id).1).words
    rw [hw.unique hw'] at hgap
    exact hgap.elim hgap₁ hgap₂
  · rcases (readHead_ok_iff id s).mp hok with hends | hcut
    · exact hends.completeHead h.2
    · exact absurd hcut h.1

/-! ## More text behind a stream -/

theorem StartsWith.append {s : Str} {w : Words} (h : StartsWith s w) (hne : w.after ≠ []) (t : Str) :
    StartsWith (s ++ t) { w with after := w.after ++ t } where
  eq := by
    rw [h.eq]
    simp
  lead := h.lead
  method := h.method
  gap₁ := h.gap₁
  target := h.target
  gap₂ := h.gap₂
  version := h.version
  after := by
    intro c hc
    rw [List.head?_append_of_ne_nil _ hne] at hc
    exact h.after c hc

theorem LineThen.append {after s : Str} (h : LineThen after s) (t : Str) :
    LineThen (after ++ t) (s ++ t) := by
  obtain ⟨tail, hafter, htail⟩ := h
  exact ⟨tail, by rw [hafter]; simp, htail⟩

theorem LineThen.ne_nil {after s : Str} (h : LineThen after s) : after ≠ [] := by
  obtain ⟨tail, hafter, _⟩ := h
  rw [hafter]
  simp

theorem CompleteAfter.append {after : Str} {lines : List Str} {rest : Str}
    (h : CompleteAfter after lines rest) (t : Str) :
    CompleteAfter (after ++ t) lines (rest ++ t) := by
  obtain ⟨s, hline, hlines, hs⟩ := h
  exact ⟨s ++ t, hline.append t, hlines, by rw [hs]; simp⟩

theorem BrokenAfter.append {after : Str} {lines : List Str} {l rest : Str}
    (h : BrokenAfter after lines l rest) (hne : rest ≠ []) (t : Str) :
    BrokenAfter (after ++ t) lines l (rest ++ t) := by
  obtain ⟨s, hline, hlines, hs, hl, hrest, hend⟩ := h
  refine ⟨s ++ t, hline.append t, hlines, by rw [hs]; simp, hl, ?_, ?_⟩
  · intro c hc
    rw [List.head?_append_of_ne_nil _ hne] at hc
    exact hrest c hc
  · intro hnil
    rw [← List.append_assoc] at hnil
    exact hend (List.append_eq_nil_iff.mp hnil).1

/-- What has gone wrong stays wrong, whatever comes behind it. -/
theorem GoesWrong.append {s : Str} (h : GoesWrong s) (t : Str) : GoesWrong (s ++ t) := by
  obtain ⟨w, hw, ⟨hversion, hne⟩ | ⟨hversion, lines, l, rest, hbroken, hrest⟩⟩ := h
  · refine ⟨_, hw.append hne t, Or.inl ⟨hversion, ?_⟩⟩
    exact fun hnil => hne (List.append_eq_nil_iff.mp hnil).1
  · have hne : w.after ≠ [] := by
      obtain ⟨s', hline, _⟩ := hbroken
      exact hline.ne_nil
    refine ⟨_, hw.append hne t, Or.inr ⟨hversion, lines, l, _, hbroken.append hrest t, ?_⟩⟩
    exact fun hnil => hrest (List.append_eq_nil_iff.mp hnil).1

/-- A proper prefix of a head that a client sends is cut, or it ends early. -/
theorem properPrefix_cases {h : SentHead} {p q : Str} (hpq : p ++ q = h.render) (hq : q ≠ []) :
    CutHead p ∨ EndsEarly p := by
  have hrender : (accepted 0 (p ++ q)).readHead =
      (⟨0, { toIStream := of [] }, ⟨h.method, h.version, h.target, h.entries⟩⟩, .ok ()) := by
    have heq := readHead_render 0 h []
    rw [List.append_nil] at heq
    rw [hpq, heq]
  rcases readHead_cases p with hp | hp | hp | hp
  · -- the head would end in `p`, and `q` would be left behind it
    obtain ⟨w, lines, rest, hw, hversion, hafter⟩ := hp
    have hne : w.after ≠ [] := by
      obtain ⟨s, hline, _⟩ := hafter
      exact hline.ne_nil
    have hread := readHead_complete (hw.append hne q) hversion (hafter.append q) 0
    rw [hrender] at hread
    have hrest : ([] : Str) = rest ++ q :=
      congrArg (fun x : RestConnection × Except Fault Unit => x.1.stream_.rest) hread
    exact absurd (List.append_eq_nil_iff.mp hrest.symm).2 hq
  · exact Or.inl hp
  · -- and a fault in `p` would still be one in the whole head
    obtain ⟨⟨message, herror⟩, _⟩ := readHead_goesWrong (hp.append q) 0
    rw [hrender] at herror
    exact absurd herror (by simp)
  · exact Or.inr hp

/-! ## What a truncated head leads to -/

variable {κ : Type}

/-- The stream is thrown back as an invalid request, and no callback is called. -/
def ThrownBack (order : IterationOrder Str Str) (run : Run κ) (requests_ : Requests κ)
    (id : UserId) (s : Str) : Prop :=
  (∃ message, (accepted id s).readHead.2 = .error (.invalidRequest message)) ∧
    (InterfaceProvider.handlerThread order run requests_ (accepted id s)).events = [.deregister id]

/-- **Truncated heads.** For every stream, `readHead` returns on a complete head only, exactly if
the stream is not cut behind its version and its request line is not spread over lines. A
proper prefix of a head that a client sends is thrown back, and calls no callback, exactly if
it is not cut behind its version; and the client gets the 400 for none of them, because the
stream is at its end. -/
theorem truncated_head_iff (order : IterationOrder Str Str) (run : Run κ) (requests_ : Requests κ)
    (id : UserId) :
    (∀ s, ((accepted id s).readHead.2 = .ok () → CompleteHead s) ↔
      ¬ CutHead s ∧ ¬ SpreadHead s) ∧
    ∀ (h : SentHead) (p q : Str), p ++ q = h.render → q ≠ [] →
      (ThrownBack order run requests_ id p ↔ ¬ CutHead p) ∧
      ¬ (ThrownBack order run requests_ id p ∧ Answered order 400
        (InterfaceProvider.handlerThread order run requests_ (accepted id p)).connection) := by
  refine ⟨completeHead_of_ok_iff id, ?_⟩
  intro h p q hpq hq
  refine ⟨⟨fun hthrown hcut => ?_, fun hcut => ?_⟩, fun hanswered => ?_⟩
  · obtain ⟨⟨message, herror⟩, _⟩ := hthrown
    rw [(readHead_cutHead hcut id).1] at herror
    exact absurd herror (by simp)
  · rcases properPrefix_cases hpq hq with hp | hp
    · exact absurd hp hcut
    · obtain ⟨⟨message, herror⟩, _⟩ := readHead_endsEarly hp id
      refine ⟨⟨message, herror⟩, ?_⟩
      rw [handlerThread_badHead herror]
      rfl
  · -- an answer needs a good stream, and both kinds leave it at its end
    obtain ⟨⟨⟨message, herror⟩, hevents⟩, hanswer⟩ := hanswered
    have hgood := (happens_badHead herror order run requests_).mp
      ⟨.badHead, ⟨message, herror⟩, hevents, hanswer⟩
    rcases properPrefix_cases hpq hq with hp | hp
    · rw [(readHead_cutHead hp id).2] at hgood
      exact absurd hgood (by decide)
    · rw [(readHead_endsEarly hp id).2] at hgood
      exact absurd hgood (by decide)

/-- A stream that ends right behind the version is served, and holds no head. -/
theorem truncated_head_getRoot :
    (accepted 1 "GET / HTTP/1.1".toList).readHead.2 = .ok () ∧
      ¬ CompleteHead "GET / HTTP/1.1".toList := by
  refine ⟨rfl, ?_⟩
  intro h
  obtain ⟨lead, line, lines, rest, _, _, _, hs⟩ := h
  have hmem : '\n' ∈ "GET / HTTP/1.1".toList := by
    rw [hs]
    simp
  exact absurd hmem (by decide)

end Rest.RestConnection
