import SimpleRest.Spec.Mime

/-!
# SimpleREST — the MIME table as a whole

What can be said of every row, whatever it lists: an extension begins with a dot and has no slash,
and a type has one. Three rows list two extensions in one string, with a comma between them; no
file name that ends in one of the two finds such a row.

- `rows_ok`: the rows, one after the other;
- `extensionToMimeType_eq_nil_iff`: the lookup is empty for what is not listed, and only there;
- `extensionToMimeType_ne`: no extension is its own type;
- `extensionToMimeType_dots_ne`: more in front of an extension changes its type.
-/

namespace Rest

open Cpp

/-- The extension is listed. -/
def IsExtension (extension : Str) : Prop :=
  ∃ row ∈ extensionToMimeMappings, row.1.toList = extension

/-- The shape of a row. The last clause is about the rows with two extensions: `.jpg` has no row of
its own, and the two that end in `.xml` have other types than `.xml` itself. -/
def rowOk (extension type : Str) : Bool :=
  extension.head? == some '.' && !extension.contains '/' && type.contains '/' &&
    extension != ['.', 'j', 'p', 'g'] &&
    (!extension.tail.contains '.' || ['.', 'j', 'p', 'g'].isSuffixOf extension ||
      (['.', 'x', 'm', 'l'].isSuffixOf extension && type != "application/xml".toList))

theorem rows_cons {extension type : Str} {rows : List (String × String)}
    (hrow : rowOk extension type = true)
    (hrows : ∀ row ∈ rows, rowOk row.1.toList row.2.toList = true) :
    ∀ row ∈ (String.ofList extension, String.ofList type) :: rows,
      rowOk row.1.toList row.2.toList = true := by
  refine List.forall_mem_cons.mpr ⟨?_, hrows⟩
  simp only [String.toList_ofList, hrow]

/-- Every row of the table has this shape. -/
theorem rows_ok : ∀ row ∈ extensionToMimeMappings, rowOk row.1.toList row.2.toList = true := by
  unfold extensionToMimeMappings
  repeat apply rows_cons rfl
  exact List.forall_mem_nil _

/-! ## The lookup -/

/-- What is listed has the type of some row of its own. -/
theorem extensionToMimeType_listed {extension : Str} (h : IsExtension extension) :
    ∃ row ∈ extensionToMimeMappings, row.1.toList = extension ∧
      extensionToMimeType extension = row.2.toList := by
  unfold extensionToMimeType
  split
  · next hnone =>
    obtain ⟨row, hrow, heq⟩ := h
    exact absurd (List.find?_eq_none.mp hnone row hrow) (by simp [heq])
  · next row hfind =>
    exact ⟨row, List.mem_of_find?_eq_some hfind, by simpa using List.find?_some hfind, rfl⟩

theorem extensionToMimeType_unlisted {extension : Str} (h : ¬ IsExtension extension) :
    extensionToMimeType extension = [] := by
  unfold extensionToMimeType
  split
  · rfl
  · next row hfind =>
    exact absurd ⟨row, List.mem_of_find?_eq_some hfind, by simpa using List.find?_some hfind⟩ h

/-- A listed extension and its type, as a row has them. -/
theorem rowOk_listed {extension : Str} (h : IsExtension extension) :
    rowOk extension (extensionToMimeType extension) = true := by
  obtain ⟨row, hrow, hkey, htype⟩ := extensionToMimeType_listed h
  rw [htype, ← hkey]
  exact rows_ok row hrow

theorem IsExtension.slashFree {extension : Str} (h : IsExtension extension) : '/' ∉ extension := by
  have hok := rowOk_listed h
  simp only [rowOk, Bool.and_eq_true] at hok
  simpa using hok.1.1.1.2

theorem IsExtension.slash_mem_type {extension : Str} (h : IsExtension extension) :
    '/' ∈ extensionToMimeType extension := by
  have hok := rowOk_listed h
  simp only [rowOk, Bool.and_eq_true] at hok
  simpa using hok.1.1.2

theorem extensionToMimeType_eq_nil_iff (extension : Str) :
    extensionToMimeType extension = [] ↔ ¬ IsExtension extension := by
  refine ⟨fun hnil h => ?_, extensionToMimeType_unlisted⟩
  have hslash := h.slash_mem_type
  rw [hnil] at hslash
  exact absurd hslash List.not_mem_nil

/-- A name without an extension has no type. -/
theorem extensionToMimeType_nil : extensionToMimeType [] = [] := by
  rw [extensionToMimeType_eq_nil_iff]
  intro h
  have hok := rowOk_listed h
  simp [rowOk] at hok

/-- No extension is its own type: the type has a slash. -/
theorem extensionToMimeType_ne {t : Str} (h : IsExtension ('.' :: t)) :
    extensionToMimeType ('.' :: t) ≠ t := by
  intro heq
  have hslash := h.slash_mem_type
  rw [heq] at hslash
  exact h.slashFree (List.mem_cons_of_mem _ hslash)

/-- With more in front of it, up to another dot, an extension does not keep its type. -/
theorem extensionToMimeType_dots_ne {a b : Str} (h : IsExtension ('.' :: b)) (hb : '.' ∉ b) :
    extensionToMimeType ('.' :: (a ++ '.' :: b)) ≠ extensionToMimeType ('.' :: b) := by
  by_cases hlonger : IsExtension ('.' :: (a ++ '.' :: b))
  · have hok := rowOk_listed hlonger
    have hown := rowOk_listed h
    simp only [rowOk, Bool.and_eq_true, Bool.or_eq_true, bne_iff_ne, List.isSuffixOf_iff_suffix,
      List.tail_cons] at hok hown
    -- the end of the row is the extension that it was looked up for
    have hend : ∀ e : Str, '.' ∉ e → ('.' :: e) <:+ '.' :: (a ++ '.' :: b) → e = b := by
      intro e he hsuffix
      obtain ⟨front, hfront⟩ := hsuffix
      have hcut : front ++ '.' :: e = ('.' :: a) ++ '.' :: b := hfront
      exact (cut_last_unique hcut he hb).2
    rcases hok.2 with (hdot | hjpg) | ⟨hxml, htype⟩
    · exact absurd hdot (by simp)
    · rw [← hend ['j', 'p', 'g'] (by decide) hjpg] at hown
      exact absurd rfl hown.1.2
    · rw [← hend ['x', 'm', 'l'] (by decide) hxml]
      have hown : extensionToMimeType ['.', 'x', 'm', 'l'] = "application/xml".toList := by decide
      rw [hown, hend ['x', 'm', 'l'] (by decide) hxml]
      exact htype
  · intro heq
    rw [extensionToMimeType_unlisted hlonger] at heq
    exact (extensionToMimeType_eq_nil_iff _).mp heq.symm h

end Rest
