import GoToSymbol.Proofs.Name.Forms
import GoToSymbol.Proofs.Text.Lowercase
import Mathlib.Data.List.Lex
import Mathlib.Data.Char

namespace GoToSymbol.Name

open Text

theorem length_le_of_mem_cases {s t : List Char} (h : t ∈ cases s) : s.length ≤ t.length := by
  rcases List.mem_pair.mp h with rfl | rfl
  · exact Nat.le_refl _
  · exact length_le_lower s

/-- A text put into a list that ascends leaves it ascending. -/
theorem pairwise_insertText {us : List (List Char)} (t : List Char) (h : us.Pairwise (· < ·)) :
    (insertText t us).Pairwise (· < ·) := by
  induction us with
  | nil => exact List.pairwise_singleton _ t
  | cons u us ih =>
    obtain ⟨hhead, htail⟩ := List.pairwise_cons.mp h
    rw [insertText]
    split
    · next hbefore =>
      refine List.pairwise_cons.mpr ⟨fun v hv => ?_, h⟩
      rcases List.mem_cons.mp hv with rfl | hv
      · exact hbefore
      · exact lt_trans hbefore (hhead v hv)
    · next hbefore =>
      split
      · exact h
      · next hother =>
        have hafter : u < t := lt_of_le_of_ne (not_lt.mp hbefore) (Ne.symm hother)
        refine List.pairwise_cons.mpr ⟨fun v hv => ?_, ih htail⟩
        rcases mem_insertText.mp hv with rfl | hv
        · exact hafter
        · exact hhead v hv

theorem pairwise_ascending (ts : List (List Char)) : (ascending ts).Pairwise (· < ·) := by
  induction ts with
  | nil => exact List.Pairwise.nil
  | cons t ts ih => exact pairwise_insertText t ih

theorem mem_synonyms {term t : List Char} :
    t ∈ synonyms term ↔ t ≠ term ∧ ∃ s ∈ candidates term, 2 ≤ s.length ∧ t ∈ cases s := by
  simp only [synonyms, mem_ascending, List.mem_filter, List.mem_flatMap, decide_eq_true_eq,
    and_assoc, ne_eq]
  exact and_comm

/-- While indexing, a text is followed by its synonyms in strictly ascending order: the alternates
of two characters or more in either case, none of which is shorter than that or the text again. -/
theorem tokens_ascending (text : List Char) : ∃ others, tokens .index text = text :: others ∧
    others.Pairwise (· < ·) ∧ (∀ t ∈ others, 2 ≤ t.length ∧ t ≠ text) ∧
    (tokens .index text).Nodup ∧
    ∀ t, t ∈ others ↔ t ≠ text ∧ ∃ s ∈ candidates text, 2 ≤ s.length ∧ t ∈ cases s := by
  have hascending : (synonyms text).Pairwise (· < ·) := pairwise_ascending _
  have hlong : ∀ t ∈ synonyms text, 2 ≤ t.length ∧ t ≠ text := by
    intro t ht
    obtain ⟨hother, s, _, hs, hcase⟩ := mem_synonyms.mp ht
    exact ⟨hs.trans (length_le_of_mem_cases hcase), hother⟩
  have honce : (text :: synonyms text).Nodup := by
    refine List.nodup_cons.mpr ⟨term_not_mem_synonyms text, ?_⟩
    exact hascending.imp ne_of_lt
  exact ⟨synonyms text, rfl, hascending, hlong, honce, fun t => mem_synonyms⟩

example : tokens .index ['İ', '.', 'A', 'Σ'] =
    [['İ', '.', 'A', 'Σ'], ['A', 'Σ'], ['a', 'ς'], ['i', '\u0307', ' ', 'a', 'ς'],
      ['i', '\u0307', '.', 'a', 'ς'], ['İ', ' ', 'A', 'Σ']] := by decide

/-- The two cases of a text hold its own lowercase and that of its lowercase. -/
theorem lower_mem_of_mem_cases {s t : List Char} (h : t ∈ cases s) : lower t ∈ cases s := by
  rcases List.mem_pair.mp h with rfl | rfl
  · exact lower_mem_cases t
  · rw [lower_lower]
    exact lower_mem_cases s

/-- Every token of two characters or more is a token in lower case too. -/
theorem tokens_lowercase {text t : List Char} (h : t ∈ tokens .index text) (hlong : 2 ≤ t.length) :
    lower t ∈ tokens .index text := by
  have hcandidate : ∃ s ∈ candidates text, 2 ≤ s.length ∧ t ∈ cases s := by
    rcases List.mem_cons.mp h with rfl | h
    · exact ⟨t, Form.whole.candidate, hlong, mem_cases_self t⟩
    · exact (mem_synonyms.mp h).2
  obtain ⟨s, hs, hslong, hcase⟩ := hcandidate
  exact mem_tokens_of_candidate hs hslong (lower_mem_of_mem_cases hcase)

/-- One capital becomes two characters, another the sigma at the end of a word. -/
theorem tokens_lowercase_sigma :
    ['İ', ' ', 'A', 'Σ'] ∈ tokens .index ['İ', '.', 'A', 'Σ'] ∧
      lower ['İ', ' ', 'A', 'Σ'] = ['i', '\u0307', ' ', 'a', 'ς'] ∧
      lower ['İ', ' ', 'A', 'Σ'] ∈ tokens .index ['İ', '.', 'A', 'Σ'] := by
  have htoken : ['İ', ' ', 'A', 'Σ'] ∈ tokens .index ['İ', '.', 'A', 'Σ'] := by decide
  exact ⟨htoken, by decide, tokens_lowercase htoken (by decide)⟩

end GoToSymbol.Name
