import GoToSymbol.Text.Lines

namespace GoToSymbol.Text

theorem mem_joinWith {sep c : Char} {ps : List (List Char)} (h : c ∈ joinWith sep ps) :
    c = sep ∨ ∃ p ∈ ps, c ∈ p := by
  induction ps with
  | nil => simp [joinWith] at h
  | cons p rest ih =>
    cases rest with
    | nil => exact Or.inr ⟨p, List.mem_cons_self, h⟩
    | cons q rest =>
      rw [joinWith, List.mem_append, List.mem_cons] at h
      rcases h with h | h | h
      · exact Or.inr ⟨p, List.mem_cons_self, h⟩
      · exact Or.inl h
      · rcases ih h with hsep | ⟨r, hr, hc⟩
        · exact Or.inl hsep
        · exact Or.inr ⟨r, List.mem_cons_of_mem p hr, hc⟩

theorem mem_joinWith_of_mem {sep c : Char} {ps : List (List Char)} {p : List Char} (hp : p ∈ ps)
    (hc : c ∈ p) : c ∈ joinWith sep ps := by
  induction ps with
  | nil => simp at hp
  | cons q rest ih =>
    cases rest with
    | nil => exact List.mem_singleton.mp hp ▸ hc
    | cons r rest =>
      rw [joinWith, List.mem_append, List.mem_cons]
      rcases List.mem_cons.mp hp with rfl | hp
      · exact Or.inl hc
      · exact Or.inr (Or.inr (ih hp))

/-- What a piece of a text holds, the text holds. -/
theorem mem_of_mem_splitOn {sep c : Char} {s p : List Char} (hp : p ∈ splitOn sep s)
    (hc : c ∈ p) : c ∈ s := by
  have hjoined : c ∈ joinWith sep (splitOn sep s) := mem_joinWith_of_mem hp hc
  rwa [joinWith_splitOn] at hjoined

/-- No piece holds the separator. -/
theorem sep_not_mem_of_mem_splitOn {sep : Char} {s p : List Char} (hp : p ∈ splitOn sep s) :
    sep ∉ p := by
  induction s generalizing p with
  | nil => exact List.mem_singleton.mp hp ▸ List.not_mem_nil
  | cons c rest ih =>
    obtain ⟨q, qs, hrest⟩ := List.exists_cons_of_ne_nil (splitOn_ne_nil sep rest)
    rw [splitOn, hrest] at hp
    rw [hrest] at ih
    split at hp
    · rcases List.mem_cons.mp hp with rfl | hp
      · exact List.not_mem_nil
      · exact ih hp
    · next hc =>
      rcases List.mem_cons.mp hp with rfl | hp
      · rw [List.mem_cons, not_or]
        exact ⟨Ne.symm hc, ih List.mem_cons_self⟩
      · exact ih (List.mem_cons_of_mem q hp)

/-- The pieces are those of the list library. -/
theorem splitOn_eq (sep : Char) (s : List Char) : splitOn sep s = List.splitOn sep s := by
  induction s with
  | nil => rfl
  | cons c rest ih =>
    obtain ⟨p, ps, hrest⟩ := List.exists_cons_of_ne_nil (splitOn_ne_nil sep rest)
    rw [List.splitOn_cons_eq_if_modifyHead, ← ih, splitOn, hrest]
    simp

theorem joinWith_concat (sep : Char) {ps : List (List Char)} (h : ps ≠ []) (p : List Char) :
    joinWith sep (ps ++ [p]) = joinWith sep ps ++ sep :: p := by
  induction ps with
  | nil => exact absurd rfl h
  | cons q rest ih =>
    by_cases hrest : rest = []
    · rw [hrest]
      rfl
    · have hmore : rest ++ [p] ≠ [] := by simp
      rw [List.cons_append, joinWith_cons sep q hmore, ih hrest, joinWith_cons sep q hrest,
        List.append_assoc, List.cons_append]

/-- A text ends with its last piece. -/
theorem exists_joinWith_concat (sep : Char) (ps : List (List Char)) (p : List Char) :
    ∃ front, joinWith sep (ps ++ [p]) = front ++ p := by
  by_cases h : ps = []
  · rw [h]
    exact ⟨[], rfl⟩
  · refine ⟨joinWith sep ps ++ [sep], ?_⟩
    rw [joinWith_concat sep h, List.append_assoc, List.singleton_append]

theorem joinWith_eq (sep : Char) (ps : List (List Char)) :
    joinWith sep ps = [sep].intercalate ps := by
  induction ps with
  | nil => rfl
  | cons p rest ih =>
    cases rest with
    | nil => simp [joinWith]
    | cons q rest =>
      rw [joinWith, ih, List.intercalate_cons_cons, List.append_assoc, List.singleton_append]

/-- Pieces that do not hold the separator come back from the text that they make. -/
theorem splitOn_joinWith {sep : Char} {ps : List (List Char)} (hne : ps ≠ [])
    (h : ∀ p ∈ ps, sep ∉ p) : splitOn sep (joinWith sep ps) = ps := by
  rw [splitOn_eq, joinWith_eq]
  exact List.splitOn_intercalate sep h hne

end GoToSymbol.Text
