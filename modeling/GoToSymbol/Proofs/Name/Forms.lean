import GoToSymbol.Name.Synonyms

namespace GoToSymbol.Name

open Text

/-- The forms in which a name may be typed. -/
inductive Form (term : List Char) : List Char → Prop where
  | whole : Form term term
  | simple : Form term (split term).simple
  /-- A part of the simple name between two dollar signs. -/
  | piece {p : List Char} (h : p ∈ splitOn '$' (split term).simple) : Form term p
  | capitals : Form term (camelFragment (split term).simple)
  | short : Form term (split term).short
  | spacedShort : Form term (spaced (split term).short)
  /-- The initials of the packages, a space, and the simple name. -/
  | initials (h : (split term).path ≠ []) :
    Form term (joinWith '.' (split term).initials ++ ' ' :: (split term).simple)

theorem mem_cases_self (t : List Char) : t ∈ cases t := List.mem_cons_self

theorem lower_mem_cases (t : List Char) : lower t ∈ cases t :=
  List.mem_cons_of_mem t List.mem_cons_self

theorem Form.candidate {term t : List Char} (h : Form term t) : t ∈ candidates term := by
  unfold candidates
  cases h with
  | whole => simp
  | simple => simp
  | piece h =>
    refine List.mem_append_left _ (List.mem_append_left _ (List.mem_append_right _ ?_))
    exact List.mem_flatMap.mpr ⟨t, h, mem_cases_self t⟩
  | capitals => simp
  | short => simp
  | spacedShort => simp
  | initials h =>
    have hpath : ((split term).path.isEmpty) = false := by simpa using h
    simp [hpath]

/-- A candidate that is long enough is a token in either case, be it the term itself. -/
theorem mem_tokens_of_candidate {term t u : List Char} (ht : t ∈ candidates term)
    (hlong : 2 ≤ t.length) (hu : u ∈ cases t) : u ∈ tokens .index term := by
  by_cases hterm : u = term
  · rw [hterm]
    exact List.mem_cons_self
  · refine List.mem_cons_of_mem term (mem_ascending.mpr (List.mem_filter.mpr ⟨?_, by simp [hterm]⟩))
    exact List.mem_flatMap.mpr ⟨t, List.mem_filter.mpr ⟨ht, decide_eq_true hlong⟩, hu⟩

/-- Every form of two characters or more is a token, and so is its lowercase. -/
theorem Form.tokens {term t : List Char} (h : Form term t) (hlong : 2 ≤ t.length) :
    t ∈ tokens .index term ∧ lower t ∈ Name.tokens .index term :=
  ⟨mem_tokens_of_candidate h.candidate hlong (mem_cases_self t),
    mem_tokens_of_candidate h.candidate hlong (lower_mem_cases t)⟩

/-- What has no name has no form worth typing. -/
theorem Form.eq_nil {t : List Char} (h : Form [] t) : t = [] := by
  have hsplit : split [] = ⟨[], []⟩ := by decide
  cases h with
  | whole => rfl
  | simple => rw [hsplit]
  | piece h =>
    rw [hsplit] at h
    simpa [splitOn] using h
  | capitals => rw [hsplit]; rfl
  | short => rw [hsplit]; rfl
  | spacedShort => rw [hsplit]; rfl
  | initials h => exact absurd (congrArg Qualified.path hsplit) h

end GoToSymbol.Name
