import SimpleRest.FileSending
import SimpleRest.MimeTable

/-!
# SimpleREST — the type of a file

`sendFile` looks the type up by the end of the file name. The name is cut at its last separator,
and the extension runs from the first dot behind the cut to the end. A name without a separator
has no extension, and neither has one whose only separator is in front.

- `extractFileExtension_cut`: what is made of a name with a separator;
- `headerOfFile_type`: the entry that comes of it;
- `file_type_iff`: it is the type of the final extension exactly if something is in front of the
  separator and the stem behind it has no dot.
-/

namespace Rest

open Cpp RestConnection

/-! ## Cutting a name -/

/-- The cut at the last separator: a slash, or a backslash where there is no slash. -/
def LastSeparator (s front : Str) (separator : Char) (back : Str) : Prop :=
  s = front ++ separator :: back ∧
    ((separator = '/' ∧ '/' ∉ back) ∨ (separator = '\\' ∧ '/' ∉ s ∧ '\\' ∉ back))

theorem lastSeparator_cases (s : Str) :
    (∃ front separator back, LastSeparator s front separator back) ∨ ('/' ∉ s ∧ '\\' ∉ s) := by
  by_cases hslash : '/' ∈ s
  · obtain ⟨front, back, heq, hback⟩ := exists_cut_last hslash
    exact Or.inl ⟨front, '/', back, heq, Or.inl ⟨rfl, hback⟩⟩
  · by_cases hbackslash : '\\' ∈ s
    · obtain ⟨front, back, heq, hback⟩ := exists_cut_last hbackslash
      exact Or.inl ⟨front, '\\', back, heq, Or.inr ⟨rfl, hslash, hback⟩⟩
    · exact Or.inr ⟨hslash, hbackslash⟩

/-- A piece without separators behind the text leaves the cut where it is. -/
theorem LastSeparator.append {s front back t : Str} {separator : Char}
    (h : LastSeparator s front separator back) (ht : '/' ∉ t ∧ '\\' ∉ t) :
    LastSeparator (s ++ t) front separator (back ++ t) := by
  obtain ⟨heq, hcases⟩ := h
  refine ⟨by rw [heq, List.append_assoc, List.cons_append], ?_⟩
  simp only [List.mem_append, not_or]
  rcases hcases with ⟨hsep, hback⟩ | ⟨hsep, hs, hback⟩
  · exact Or.inl ⟨hsep, hback, ht.1⟩
  · exact Or.inr ⟨hsep, ⟨hs, ht.1⟩, hback, ht.2⟩

/-- What `rfind` makes of the two separators. -/
theorem LastSeparator.position {s front back : Str} {separator : Char}
    (h : LastSeparator s front separator back) :
    (if rfind s '/' = none then rfind s '\\' else rfind s '/') = some front.length := by
  obtain ⟨heq, ⟨hsep, hback⟩ | ⟨hsep, hs, hback⟩⟩ := h
  · rw [heq, hsep, rfind_append hback]
    simp
  · rw [if_pos (rfind_eq_none.mpr hs), heq, hsep, rfind_append hback]

/-- **The extension of a name with a separator.** Where the separator is in front, the count of the
first `substr` is nothing; everywhere else it is more than there is, so the piece behind the
separator is taken whole, and cut at its first dot. -/
theorem extractFileExtension_cut {s front back : Str} {separator : Char}
    (h : LastSeparator s front separator back) (hsize : s.length < 2 ^ 64) :
    extractFileExtension s =
      .ok (if front = [] then [] else (separator :: back).dropWhile (· != '.')) := by
  unfold extractFileExtension
  simp only [h.position]
  obtain ⟨heq, _⟩ := h
  by_cases hfront : front = []
  · rw [if_pos hfront, heq, hfront]
    rfl
  · have hlength : front.length + (separator :: back).length < 2 ^ 64 := by
      rw [heq, List.length_append] at hsize
      exact hsize
    have hne : front.length ≠ 0 := fun h => hfront (List.length_eq_zero_iff.mp h)
    have hpiece : substr s front.length (some (sizeSub ([] : Str).length front.length)) =
        .ok (separator :: back) := by
      rw [List.length_nil, sizeSub_zero_left hne (by omega), heq]
      unfold substr
      rw [substr?_tail (by omega)]
    rw [hpiece, if_neg hfront]
    simp only
    generalize hpieceEq : separator :: back = piece at hlength ⊢
    by_cases hdot : '.' ∈ piece
    · obtain ⟨a, b, hab, ha⟩ := List.eq_append_cons_of_mem hdot
      have hrest : sizeSub (a ++ '.' :: b).length a.length = ('.' :: b).length := by
        rw [hab, List.length_append] at hlength
        rw [sizeSub_of_le (by simp) (by rw [List.length_append]; omega), List.length_append]
        omega
      rw [hab, find_append ha]
      simp only [hrest]
      unfold substr
      rw [substr?_tail (Nat.le_refl _), dropWhile_stop (ne_of_notMem ha) (by simp)]
    · rw [find_eq_none.mpr hdot]
      simp only
      rw [List.dropWhile_eq_nil_iff.mpr (ne_of_notMem hdot)]

theorem extractFileExtension_plain {s : Str} (hslash : '/' ∉ s) (hbackslash : '\\' ∉ s) :
    extractFileExtension s = .ok [] := by
  unfold extractFileExtension
  simp only [rfind_eq_none.mpr hslash, rfind_eq_none.mpr hbackslash, if_true]

/-! ## Names of files -/

/-- A file name in three parts: a directory, a stem, and an extension that is listed. Like every
`std::string` it is shorter than `2 ^ 64`. -/
structure FileName where
  directory : Str
  stem : Str
  letters : Str
  directory_end : directory = [] ∨ directory.getLast? = some '/' ∨ directory.getLast? = some '\\'
  stem_ne_nil : stem ≠ []
  stem_free : '/' ∉ stem ∧ '\\' ∉ stem
  letters_free : '.' ∉ letters ∧ '/' ∉ letters ∧ '\\' ∉ letters
  listed : IsExtension ('.' :: letters)
  size : (directory ++ stem ++ '.' :: letters).length < 2 ^ 64

namespace FileName

/-- The final extension, with its dot. -/
def extension (name : FileName) : Str := '.' :: name.letters

def text (name : FileName) : Str := name.directory ++ name.stem ++ name.extension

/-- The type can be told from the name: the last separator is not in front, and there is no dot
between it and the final extension. -/
def Detectable (name : FileName) : Prop :=
  ∃ front separator back, LastSeparator (name.directory ++ name.stem) front separator back ∧
    front ≠ [] ∧ '.' ∉ back

theorem extension_free (name : FileName) : '/' ∉ name.extension ∧ '\\' ∉ name.extension := by
  have hfree := name.letters_free
  simp only [extension, List.mem_cons, not_or]
  exact ⟨⟨by decide, hfree.2.1⟩, by decide, hfree.2.2⟩

theorem lastSeparator_text {name : FileName} {front back : Str} {separator : Char}
    (h : LastSeparator (name.directory ++ name.stem) front separator back) :
    LastSeparator name.text front separator (back ++ name.extension) :=
  h.append name.extension_free

theorem detected_eq {fileName extension : Str}
    (h : extractFileExtension fileName = .ok extension) :
    detected true fileName = some extension := by
  unfold detected
  rw [h]
  rfl

/-- The separators are no dots, so the first dot behind them is the extension's. -/
theorem detected_of_detectable {name : FileName} (h : name.Detectable) :
    detected true name.text = some name.extension := by
  obtain ⟨front, separator, back, hcut, hfront, hdot⟩ := h
  have hseparator : separator ≠ '.' := by
    rcases hcut.2 with ⟨hsep, _⟩ | ⟨hsep, _⟩
    · rw [hsep]
      decide
    · rw [hsep]
      decide
  have hstem : '.' ∉ separator :: back := by
    simp only [List.mem_cons, not_or]
    exact ⟨Ne.symm hseparator, hdot⟩
  apply detected_eq
  rw [extractFileExtension_cut (lastSeparator_text hcut) name.size, if_neg hfront]
  show Except.ok (((separator :: back) ++ name.extension).dropWhile (· != '.')) = _
  rw [dropWhile_stop (ne_of_notMem hstem) (by simp [extension])]

/-- Where it cannot be told, nothing is found, or more than the final extension. -/
theorem detected_cases (name : FileName) :
    name.Detectable ∨ detected true name.text = some [] ∨
      ∃ a, detected true name.text = some ('.' :: (a ++ name.extension)) := by
  rcases lastSeparator_cases (name.directory ++ name.stem) with
    ⟨front, separator, back, hcut⟩ | ⟨hslash, hbackslash⟩
  · have hfound := extractFileExtension_cut (lastSeparator_text hcut) name.size
    by_cases hfront : front = []
    · rw [if_pos hfront] at hfound
      exact Or.inr (Or.inl (detected_eq hfound))
    · by_cases hdot : '.' ∈ separator :: back
      · -- the piece is cut at a dot in front of the extension's
        obtain ⟨a, b, hab, ha⟩ := List.eq_append_cons_of_mem hdot
        have hpiece : separator :: (back ++ name.extension) =
            a ++ '.' :: (b ++ name.extension) := by
          rw [← List.cons_append, hab, List.append_assoc, List.cons_append]
        rw [if_neg hfront, hpiece, dropWhile_stop (ne_of_notMem ha) (by simp)] at hfound
        exact Or.inr (Or.inr ⟨b, detected_eq hfound⟩)
      · have hback : '.' ∉ back := fun h => hdot (List.mem_cons_of_mem separator h)
        exact Or.inl ⟨front, separator, back, hcut, hfront, hback⟩
  · have hfree := name.extension_free
    have hplain : extractFileExtension name.text = .ok [] := by
      apply extractFileExtension_plain
      · simpa [text] using ⟨fun h => hslash (by simp [h]), fun h => hslash (by simp [h]), hfree.1⟩
      · simpa [text] using
          ⟨fun h => hbackslash (by simp [h]), fun h => hbackslash (by simp [h]), hfree.2⟩
    exact Or.inr (Or.inl (detected_eq hplain))

end FileName

/-! ## The entry -/

/-- The type of the extension that is found is entered if it is listed; what the caller has set
stays otherwise. -/
theorem headerOfFile_type {fileName extension : Str}
    (h : detected true fileName = some extension) (content : Str) (response : ResponseHeader) :
    (headerOfFile fileName content true response).responseHeaderPairs.lookup
        "Content-Type".toList =
      if extensionToMimeType extension = [] then
        response.responseHeaderPairs.lookup "Content-Type".toList
      else some (extensionToMimeType extension) := by
  have htyped : (typedHeader (some extension) response).responseHeaderPairs.lookup
      "Content-Type".toList =
        if extensionToMimeType extension = [] then
          response.responseHeaderPairs.lookup "Content-Type".toList
        else some (extensionToMimeType extension) := by
    unfold typedHeader
    simp only
    by_cases hempty : extensionToMimeType extension = []
    · simp [hempty]
    · rw [if_neg hempty, if_pos (by simpa using hempty), set_lookup, if_pos rfl]
  have hlength : ∀ h : ResponseHeader, (h.set "Content-Length".toList
      (toDecimal content.length)).responseHeaderPairs.lookup "Content-Type".toList =
        h.responseHeaderPairs.lookup "Content-Type".toList := by
    intro h
    rw [set_lookup, if_neg (by decide)]
  rw [headerOfFile, h, fileHeader_eq]
  split
  · exact (hlength _).trans htyped
  · exact (hlength _).trans htyped

/-- **When the type of a file is that of its final extension.** For every name of a file with a
listed extension: a call that looks the type up writes the header made for the name, in front of
the content, and the type in it is the one of the final extension, whatever the file holds and
whatever the caller has set, exactly if the type can be told: the name has a separator, not in
front, and no dot between the last separator and the final extension. -/
theorem file_type_iff (order : IterationOrder Str Str) (name : FileName) :
    (∀ (files : Files) (c : RestConnection) (content : Str) (response : ResponseHeader),
      files name.text = some content → c.stream_.good = true →
      written c (c.sendFile order files name.text true response).1 =
        (headerOfFile name.text content true response).toString order ++ content) ∧
    ((∀ (content : Str) (response : ResponseHeader),
      (headerOfFile name.text content true response).responseHeaderPairs.lookup
        "Content-Type".toList = some (extensionToMimeType name.extension)) ↔ name.Detectable) := by
  refine ⟨fun files c content response hfile hgood => ?_, fun hall => ?_, fun hdetectable => ?_⟩
  · unfold written
    rw [(sendFile_good order hgood hfile true response).1, List.drop_left]
  · rcases FileName.detected_cases name with hdetectable | hfound | ⟨a, hfound⟩
    · exact hdetectable
    · -- nothing is found, and nothing entered
      have htype := hall [] {}
      rw [headerOfFile_type hfound, if_pos extensionToMimeType_nil] at htype
      exact absurd htype (by simp)
    · have htype := hall [] {}
      rw [headerOfFile_type hfound] at htype
      split at htype
      · exact absurd htype (by simp)
      · exact absurd (Option.some.inj htype)
          (extensionToMimeType_dots_ne name.listed name.letters_free.1)
  · intro content response
    have hlisted : extensionToMimeType name.extension ≠ [] :=
      fun h => (extensionToMimeType_eq_nil_iff _).mp h name.listed
    rw [headerOfFile_type (FileName.detected_of_detectable hdetectable), if_neg hlisted]

theorem html_listed : (".html", "text/html") ∈ extensionToMimeMappings := by
  unfold extensionToMimeMappings
  repeat first | exact List.Mem.head _ | apply List.Mem.tail

/-- A page in a directory. -/
def page (directory : Str)
    (h : directory = [] ∨ directory.getLast? = some '/' ∨ directory.getLast? = some '\\')
    (hsize : directory.length < 2 ^ 63) : FileName where
  directory := directory
  stem := "index".toList
  letters := "html".toList
  directory_end := h
  stem_ne_nil := by decide
  stem_free := by decide
  letters_free := by decide
  listed := ⟨_, html_listed, rfl⟩
  size := by
    simp only [List.length_append, List.length_cons]
    show directory.length + 5 + (4 + 1) < 2 ^ 64
    omega

example : (page "public/".toList (by decide) (by decide)).Detectable :=
  ⟨"public".toList, '/', "index".toList, ⟨rfl, Or.inl ⟨rfl, by decide⟩⟩, by decide, by decide⟩

/-- `index.html` is sent without a type: its name has no separator. -/
theorem file_type_index : ¬ ∀ (name : FileName) (content : Str) (response : ResponseHeader),
    (headerOfFile name.text content true response).responseHeaderPairs.lookup
      "Content-Type".toList = some (extensionToMimeType name.extension) := by
  intro hall
  have htype := hall (page [] (by decide) (by decide)) [] {}
  have hfound : detected true (page [] (by decide) (by decide)).text = some [] := by decide
  rw [headerOfFile_type hfound, if_pos extensionToMimeType_nil] at htype
  exact absurd htype (by simp)

end Rest
