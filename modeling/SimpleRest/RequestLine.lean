import SimpleRest.HeadTruncation

/-!
# SimpleREST — the request line

The comment of the source says that the first line is read. What is read are three words, wherever
the line breaks are, and the rest of the line that the third one stands on is dropped without a
look. So two readers of HTTP can find different requests in one stream.

- `tokens_line_word` and `tokens_line_gap`: a line, word by word;
- `tokens_firstLine`: what the first line that is not blank has on it, by where the newlines are
  among the three words;
- `request_line_iff`: it has the three words that `readHead` stores and no more, exactly if there is
  no newline between them and nothing but blanks behind the third.
-/

namespace Rest.RestConnection

open Cpp IStream

/-! ## Lines and their tokens -/

/-- The first line that is not blank. -/
def firstLine (s : Str) : Str := ((s.splitOnP (· == '\n')).dropWhile (·.all isspace)).headD []

/-- The pieces of a line between its blanks. -/
def tokens (line : Str) : List Str := (line.splitOnP isspace).filter (· ≠ [])

theorem tokens_cons {c : Char} (hc : isspace c = true) (line : Str) :
    tokens (c :: line) = tokens line := by
  unfold tokens
  rw [List.splitOnP_cons_eq_if_modifyHead, if_pos hc, List.filter_cons_of_neg (by simp)]

theorem tokens_blank {b : Str} (hb : IsBlank b) (line : Str) : tokens (b ++ line) = tokens line := by
  induction b with
  | nil => rfl
  | cons c b ih =>
    have hrest : IsBlank b := fun d hd => hb d (List.mem_cons_of_mem c hd)
    rw [List.cons_append, tokens_cons (hb c List.mem_cons_self), ih hrest]

theorem tokens_word {w line : Str} (hw : IsWord w) (hline : AtGap line) :
    tokens (w ++ line) = w :: tokens line := by
  have hpiece : ∀ c ∈ w, isspace c = false := hw.2
  cases line with
  | nil =>
    unfold tokens
    rw [List.append_nil, List.splitOnP_eq_singleton hpiece, List.splitOnP_nil,
      List.filter_cons_of_pos (by simpa using hw.1), List.filter_cons_of_neg (by simp)]
  | cons c line =>
    have hc : isspace c = true := hline c rfl
    rw [tokens_cons hc]
    unfold tokens
    rw [List.splitOnP_append_cons_of_forall_mem hpiece c hc,
      List.filter_cons_of_pos (by simpa using hw.1)]

theorem tokens_eq_nil_iff (line : Str) : tokens line = [] ↔ IsBlank line := by
  refine ⟨fun h => ?_, fun h => ?_⟩
  · induction line with
    | nil => exact nofun
    | cons c line ih =>
      cases hc : isspace c with
      | true =>
        rw [tokens_cons hc] at h
        intro d hd
        rcases List.mem_cons.mp hd with heq | hd
        · rw [heq]
          exact hc
        · exact ih h d hd
      | false =>
        -- the piece with this character is a token
        have hword : IsWord ((c :: line).takeWhile (!isspace ·)) := by
          refine ⟨by simp [hc], fun d hd => ?_⟩
          simpa using List.mem_takeWhile_imp hd
        have hgap : AtGap ((c :: line).dropWhile (!isspace ·)) := by
          intro d hd
          simpa using head?_dropWhile (!isspace ·) (c :: line) d hd
        rw [← List.takeWhile_append_dropWhile (p := (!isspace ·)) (l := c :: line),
          tokens_word hword hgap] at h
        cases h
  · have hblank := tokens_blank h []
    rw [List.append_nil] at hblank
    rw [hblank]
    rfl

/-- The first piece between newlines. -/
theorem headD_lines (s : Str) :
    (s.splitOnP (· == '\n')).headD [] = s.takeWhile (· != '\n') := by
  induction s with
  | nil => rfl
  | cons c s ih =>
    obtain ⟨line, lines, hlines⟩ := List.exists_cons_of_ne_nil (List.splitOnP_ne_nil (· == '\n') s)
    rw [hlines] at ih
    rw [List.splitOnP_cons_eq_if_modifyHead, hlines]
    by_cases hc : c = '\n'
    · rw [hc]
      simp
    · rw [if_neg (by simpa using hc), List.takeWhile_cons_of_pos (by simpa using hc), ← ih]
      rfl

/-- White space in front has no tokens, whether it makes lines of its own or not. -/
theorem tokens_firstLine_cons {c : Char} (hc : isspace c = true) (s : Str) :
    tokens (firstLine (c :: s)) = tokens (firstLine s) := by
  unfold firstLine
  obtain ⟨line, lines, hlines⟩ := List.exists_cons_of_ne_nil (List.splitOnP_ne_nil (· == '\n') s)
  rw [List.splitOnP_cons_eq_if_modifyHead, hlines]
  by_cases hnewline : c = '\n'
  · rw [if_pos (by simpa using hnewline), List.dropWhile_cons_of_pos (by simp)]
  · rw [if_neg (by simpa using hnewline)]
    show tokens (((((c :: line) :: lines).dropWhile (·.all isspace)).headD [])) = _
    have hall : (c :: line).all isspace = line.all isspace := by
      rw [List.all_cons, hc, Bool.true_and]
    rw [List.dropWhile_cons, List.dropWhile_cons, hall]
    split
    · rfl
    · exact tokens_cons hc line

theorem tokens_firstLine_blank {b : Str} (hb : IsBlank b) (s : Str) :
    tokens (firstLine (b ++ s)) = tokens (firstLine s) := by
  induction b with
  | nil => rfl
  | cons c b ih =>
    have hrest : IsBlank b := fun d hd => hb d (List.mem_cons_of_mem c hd)
    rw [List.cons_append, tokens_firstLine_cons (hb c List.mem_cons_self), ih hrest]

/-- A text that begins with a word has it on its first line. -/
theorem firstLine_word {w : Str} (hw : IsWord w) (s : Str) :
    firstLine (w ++ s) = (w ++ s).takeWhile (· != '\n') := by
  obtain ⟨c, w', hcw⟩ := List.exists_cons_of_ne_nil hw.1
  have hc : isspace c = false := hw.2 c (by rw [hcw]; exact List.mem_cons_self)
  have hne : c ≠ '\n' := by
    intro heq
    rw [heq] at hc
    exact absurd hc (by decide)
  obtain ⟨line, lines, hlines⟩ :=
    List.exists_cons_of_ne_nil (List.splitOnP_ne_nil (· == '\n') (w ++ s))
  have hhead := headD_lines (w ++ s)
  unfold firstLine
  rw [hlines] at hhead ⊢
  have hline : line = (w ++ s).takeWhile (· != '\n') := hhead
  have hblank : line.all isspace = false := by
    rw [hline, hcw, List.cons_append, List.takeWhile_cons_of_pos (by simpa using hne),
      List.all_cons, hc, Bool.false_and]
  rw [List.dropWhile_cons_of_neg (by rw [hblank]; decide)]
  exact hline

/-! ## The first line of a request -/

theorem atGap_takeWhile {s : Str} (h : AtGap s) (p : Char → Bool) : AtGap (s.takeWhile p) := by
  intro c hc
  apply h
  cases s with
  | nil => exact hc
  | cons d s =>
    cases hd : p d with
    | true =>
      rw [List.takeWhile_cons_of_pos hd] at hc
      exact hc
    | false =>
      rw [List.takeWhile_cons_of_neg (by rw [hd]; decide)] at hc
      cases hc

/-- A word has no newline, so the line goes on behind it. -/
theorem tokens_line_word {w s : Str} (hw : IsWord w) (hs : AtGap s) :
    tokens ((w ++ s).takeWhile (· != '\n')) = w :: tokens (s.takeWhile (· != '\n')) := by
  rw [List.takeWhile_append_of_pos (ne_of_notMem (not_newline_word hw))]
  exact tokens_word hw (atGap_takeWhile hs _)

/-- A gap has no tokens, and the line ends in it if it has a newline. -/
theorem tokens_line_gap {gap : Str} (hgap : IsBlank gap) (s : Str) :
    tokens ((gap ++ s).takeWhile (· != '\n')) =
      if '\n' ∈ gap then [] else tokens (s.takeWhile (· != '\n')) := by
  by_cases hnewline : '\n' ∈ gap
  · obtain ⟨a, b, hab, ha⟩ := List.eq_append_cons_of_mem hnewline
    have hblank : IsBlank a := by
      intro c hc
      rw [hab] at hgap
      exact hgap c (List.mem_append_left _ hc)
    rw [if_pos hnewline, hab, List.append_assoc, List.cons_append, takeWhile_line ha]
    exact (tokens_eq_nil_iff a).mpr hblank
  · rw [if_neg hnewline, List.takeWhile_append_of_pos (ne_of_notMem hnewline)]
    exact tokens_blank hgap _

/-- The tokens of the first line that is not blank: it ends at the first newline behind the first
word, which is between the words or behind them. -/
theorem tokens_firstLine {s : Str} {w : Words} (h : StartsWith s w) :
    tokens (firstLine s) =
      if '\n' ∈ w.gap₁ then [w.method]
      else if '\n' ∈ w.gap₂ then [w.method, w.target]
      else w.method :: w.target :: w.version :: tokens (w.after.takeWhile (· != '\n')) := by
  rw [h.eq, tokens_firstLine_blank h.lead, firstLine_word h.method,
    tokens_line_word h.method (atGap_of_blank h.gap₁ _), tokens_line_gap h.gap₁.1]
  split
  · rfl
  · rw [tokens_line_word h.target (atGap_of_blank h.gap₂ _), tokens_line_gap h.gap₂.1]
    split
    · rfl
    · rw [tokens_line_word h.version h.after]

/-- What `readHead` stores are the three words. -/
theorem readHead_words {id : UserId} {s : Str} (h : (accepted id s).readHead.2 = .ok ()) :
    ∃ w, StartsWith s w ∧ (accepted id s).readHead.1.request_.requestType = w.method ∧
      (accepted id s).readHead.1.request_.url = w.target ∧
      (accepted id s).readHead.1.request_.httpVersion = w.version := by
  have hwords : ∃ w, StartsWith s w ∧ IsVersion w.version := by
    rcases (readHead_ok_iff id s).mp h with ⟨w, _, _, hw, hversion, _⟩ | ⟨w, hw, hversion, _⟩
    · exact ⟨w, hw, hversion⟩
    · exact ⟨w, hw, hversion⟩
  obtain ⟨w, hw, hversion⟩ := hwords
  rcases hlines : readHeaderLines (behind w.after) ∅ with ⟨stream, entries, result⟩
  rw [readHead_version hw hversion id hlines]
  exact ⟨w, hw, rfl, rfl, rfl⟩

/-- The words of the request stand on one line, and nothing else does. -/
def OneLine (s : Str) : Prop :=
  ∃ w, StartsWith s w ∧ '\n' ∉ w.gap₁ ∧ '\n' ∉ w.gap₂ ∧
    IsBlank (w.after.takeWhile (· != '\n'))

/-- **When the request line is one line and nothing more.** For every stream on which `readHead`
returns: the first line that is not blank consists of the three words that are stored, if and only
if there is no newline between the first three words of the stream, and nothing but blanks between
the third and the newline behind it. -/
theorem request_line_iff (id : UserId) (s : Str) (hread : (accepted id s).readHead.2 = .ok ()) :
    tokens (firstLine s) = [(accepted id s).readHead.1.request_.requestType,
        (accepted id s).readHead.1.request_.url,
        (accepted id s).readHead.1.request_.httpVersion] ↔ OneLine s := by
  obtain ⟨w, hw, hmethod, htarget, hversion⟩ := readHead_words hread
  rw [hmethod, htarget, hversion, tokens_firstLine hw]
  refine ⟨fun h => ?_, fun h => ?_⟩
  · by_cases hgap₁ : '\n' ∈ w.gap₁
    · rw [if_pos hgap₁] at h
      exact absurd h (by simp)
    · rw [if_neg hgap₁] at h
      by_cases hgap₂ : '\n' ∈ w.gap₂
      · rw [if_pos hgap₂] at h
        exact absurd h (by simp)
      · rw [if_neg hgap₂] at h
        refine ⟨w, hw, hgap₁, hgap₂, (tokens_eq_nil_iff _).mp ?_⟩
        simpa using h
  · obtain ⟨w', hw', hgap₁, hgap₂, hafter⟩ := h
    rw [← hw.unique hw'] at hgap₁ hgap₂ hafter
    rw [if_neg hgap₁, if_neg hgap₂, (tokens_eq_nil_iff _).mpr hafter]

/-- A request as it should be. -/
theorem request_line_root :
    tokens (firstLine "GET / HTTP/1.1\r\n\r\n".toList) =
      ["GET".toList, "/".toList, "HTTP/1.1".toList] := by
  refine (request_line_iff 1 "GET / HTTP/1.1\r\n\r\n".toList rfl).mpr ?_
  have hafter : AtGap "\r\n\r\n".toList := by
    intro c hc
    cases hc
    decide
  refine ⟨⟨[], "GET".toList, " ".toList, "/".toList, " ".toList, "HTTP/1.1".toList,
    "\r\n\r\n".toList⟩, ⟨rfl, ?_, ?_, ?_, ?_, ?_, ?_, hafter⟩, ?_⟩
  all_goals decide

/-- Words on three lines are taken for a request line all the same. -/
theorem request_line_spread : ¬ ∀ (id : UserId) (s : Str), (accepted id s).readHead.2 = .ok () →
    tokens (firstLine s) = [(accepted id s).readHead.1.request_.requestType,
      (accepted id s).readHead.1.request_.url,
      (accepted id s).readHead.1.request_.httpVersion] := by
  intro hall
  have htokens := hall 1 "GET\n/\nHTTP/1.1\n\r\n".toList rfl
  exact absurd htokens (by decide)

end Rest.RestConnection
