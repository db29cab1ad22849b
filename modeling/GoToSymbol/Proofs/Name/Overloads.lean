import GoToSymbol.Proofs.Name.Tokens
import GoToSymbol.Proofs.Text.Pieces
import Mathlib.Data.List.Sort

namespace GoToSymbol.Name

open Text

theorem dropSignatures_append {b : List Char} (hb : '(' ∉ b) (s : List Char) :
    dropSignatures false (b ++ s) = b ++ dropSignatures false s := by
  induction b with
  | nil => rfl
  | cons c b ih =>
    rw [List.mem_cons, not_or] at hb
    obtain ⟨hc, hb⟩ := hb
    rw [List.cons_append, dropSignatures, ih hb]
    split
    · next hfeed => rw [hfeed, List.cons_append]
    · rw [if_neg (by simpa using Ne.symm hc), List.cons_append]

theorem dropSignatures_inside {a : List Char} (ha : '\n' ∉ a) : dropSignatures true a = [] := by
  induction a with
  | nil => rfl
  | cons c a ih =>
    rw [List.mem_cons, not_or] at ha
    obtain ⟨hc, ha⟩ := ha
    rw [dropSignatures, if_neg (Ne.symm hc), if_pos (by simp)]
    exact ih ha

/-- A signature leaves no trace in the path and the simple name. -/
theorem split_overload {a b : List Char} (hb : '(' ∉ b) (ha : '\n' ∉ a) :
    split (b ++ '(' :: a) = split b := by
  have hbare : dropSignatures false b = b := by
    have h := dropSignatures_append hb []
    simpa [dropSignatures] using h
  have hcut : dropSignatures false (b ++ '(' :: a) = b := by
    have hopen : dropSignatures false ('(' :: a) = dropSignatures true a := rfl
    rw [dropSignatures_append hb, hopen, dropSignatures_inside ha, List.append_nil]
  rw [split, split, hcut, hbare]

/-- The path and the simple name are made of the parts. -/
theorem Qualified.mem_of_ofParts {parts : List (List Char)} {p : List Char}
    (h : p = (ofParts parts).simple ∨ p ∈ (ofParts parts).path) : p = [] ∨ p ∈ parts := by
  have hkept : ∀ r ∈ parts.reverse.dropWhile List.isEmpty, r ∈ parts := fun r hr =>
    List.mem_reverse.mp ((List.dropWhile_sublist _).subset hr)
  unfold ofParts at h
  split at h
  · exact Or.inl (h.resolve_right List.not_mem_nil)
  · next simple path hparts =>
    refine Or.inr (hkept p ?_)
    rw [hparts, List.mem_cons]
    exact h.imp id List.mem_reverse.mp

/-- Neither the path nor the simple name holds a parenthesis. -/
theorem paren_not_mem_split {term p : List Char}
    (h : p = (split term).simple ∨ p ∈ (split term).path) : '(' ∉ p := by
  rcases Qualified.mem_of_ofParts h with rfl | hp
  · exact List.not_mem_nil
  · exact fun hc => dropSignatures_no_paren false term (mem_of_mem_splitOn hp hc)

/-- The candidates that are made of the path and the simple name. -/
def Qualified.candidates (q : Qualified) : List (List Char) :=
  [q.simple, camelFragment q.simple]
    ++ (splitOn '$' q.simple).flatMap cases
    ++ [q.short, spaced q.short]
    ++ (if q.path.isEmpty then [] else [joinWith '.' q.initials ++ ' ' :: q.simple])

theorem candidates_eq (term : List Char) :
    candidates term = term :: (split term).candidates := rfl

theorem paren_mem_cases {s t : List Char} (h : t ∈ cases s) : '(' ∈ t ↔ '(' ∈ s := by
  rcases List.mem_pair.mp h with rfl | rfl
  · exact Iff.rfl
  · exact mem_lower_iff (by decide) (by decide)

theorem paren_not_mem_initials {q : Qualified} (hpath : ∀ p ∈ q.path, '(' ∉ p) :
    ∀ p ∈ q.initials, '(' ∉ p := by
  intro p hp hc
  obtain ⟨segment, hsegment, rfl⟩ := List.mem_map.mp hp
  exact hpath segment hsegment (List.mem_of_mem_take hc)

theorem paren_not_mem_short {q : Qualified} (hsimple : '(' ∉ q.simple)
    (hpath : ∀ p ∈ q.path, '(' ∉ p) : '(' ∉ q.short := by
  intro hc
  rcases mem_joinWith hc with hdot | ⟨p, hp, hc⟩
  · exact absurd hdot (by decide)
  · rcases List.mem_append.mp hp with hp | hp
    · exact paren_not_mem_initials hpath p hp hc
    · exact hsimple (List.mem_singleton.mp hp ▸ hc)

theorem paren_not_mem_spaced {t : List Char} (h : '(' ∉ t) : '(' ∉ spaced t := by
  intro hc
  obtain ⟨c, hct, hparen⟩ := List.mem_map.mp hc
  split at hparen
  · exact absurd hparen (by decide)
  · exact h (hparen ▸ hct)

/-- A candidate holds a parenthesis only if the simple name or the path does. -/
theorem paren_not_mem_candidates {q : Qualified} (hsimple : '(' ∉ q.simple)
    (hpath : ∀ p ∈ q.path, '(' ∉ p) {s : List Char} (h : s ∈ q.candidates) : '(' ∉ s := by
  unfold Qualified.candidates at h
  simp only [List.mem_append, List.mem_cons, List.not_mem_nil, or_false, List.mem_flatMap] at h
  rcases h with (((rfl | rfl) | ⟨p, hp, hs⟩) | (rfl | rfl)) | h
  · exact hsimple
  · exact fun hc => hsimple (List.mem_of_mem_filter hc)
  · rw [paren_mem_cases hs]
    exact fun hc => hsimple (mem_of_mem_splitOn hp hc)
  · exact paren_not_mem_short hsimple hpath
  · exact paren_not_mem_spaced (paren_not_mem_short hsimple hpath)
  · split at h
    · simp at h
    · rw [List.mem_singleton.mp h, List.mem_append, List.mem_cons]
      rintro (hc | hspace | hc)
      · rcases mem_joinWith hc with hdot | ⟨p, hp, hc⟩
        · exact absurd hdot (by decide)
        · exact paren_not_mem_initials hpath p hp hc
      · exact absurd hspace (by decide)
      · exact hsimple hc

theorem paren_not_mem_alternate {term s t : List Char} (hs : s ∈ (split term).candidates)
    (hcase : t ∈ cases s) : '(' ∉ t := by
  have hsimple : '(' ∉ (split term).simple := paren_not_mem_split (Or.inl rfl)
  have hpath : ∀ p ∈ (split term).path, '(' ∉ p := fun p hp => paren_not_mem_split (Or.inr hp)
  rw [paren_mem_cases hcase]
  exact paren_not_mem_candidates hsimple hpath hs

/-- The alternates of a term apart from its own lowercase. -/
def others (term : List Char) : List (List Char) :=
  (synonyms term).filter (· ≠ lower term)

theorem pairwise_others (term : List Char) : (others term).Pairwise (· < ·) :=
  (pairwise_ascending _).filter _

theorem mem_others {term t : List Char} :
    t ∈ others term ↔ (t ≠ term ∧ t ≠ lower term) ∧
      ∃ s ∈ (split term).candidates, 2 ≤ s.length ∧ t ∈ cases s := by
  rw [others, List.mem_filter, mem_synonyms, candidates_eq]
  simp only [List.mem_cons, exists_eq_or_imp, decide_eq_true_eq]
  constructor
  · rintro ⟨⟨hterm, (⟨_, hcase⟩ | hmade)⟩, hlower⟩
    · exact absurd (List.mem_pair.mp hcase) (not_or.mpr ⟨hterm, hlower⟩)
    · exact ⟨⟨hterm, hlower⟩, hmade⟩
  · rintro ⟨⟨hterm, hlower⟩, hmade⟩
    exact ⟨⟨hterm, Or.inr hmade⟩, hlower⟩

/-- The alternates of an overload apart from its own lowercase are made of the path and the simple
name of the term without its signature. -/
theorem mem_others_overload {a b t : List Char} (hb : '(' ∉ b) (ha : '\n' ∉ a) :
    t ∈ others (b ++ '(' :: a) ↔
      ∃ s ∈ (split b).candidates, 2 ≤ s.length ∧ t ∈ cases s := by
  rw [mem_others, split_overload hb ha, and_iff_right_iff_imp]
  rintro ⟨s, hs, _, hcase⟩
  have hplain : '(' ∉ t := paren_not_mem_alternate hs hcase
  have hopen : '(' ∈ b ++ '(' :: a := List.mem_append_right b List.mem_cons_self
  constructor
  · rintro rfl
    exact hplain hopen
  · rintro rfl
    exact hplain ((paren_mem_cases (lower_mem_cases _)).mpr hopen)

/-- Overloads have the same alternates, none of which shows a signature, and each alternate of the
name without a signature is among them: the lowercase of each term itself is left out. -/
theorem others_overloads {b a₁ a₂ : List Char} (hb : '(' ∉ b) (h₁ : '\n' ∉ a₁) (h₂ : '\n' ∉ a₂) :
    others (b ++ '(' :: a₁) = others (b ++ '(' :: a₂) ∧
      (∀ t ∈ others (b ++ '(' :: a₁), '(' ∉ t) ∧
      ∀ t ∈ synonyms b, t ≠ lower b → t ∈ synonyms (b ++ '(' :: a₁) := by
  refine ⟨?_, ?_, ?_⟩
  · refine (pairwise_others _).eq_of_mem_iff (pairwise_others _) fun t => ?_
    rw [mem_others_overload hb h₁, mem_others_overload hb h₂]
  · intro t ht
    obtain ⟨s, hs, _, hcase⟩ := (mem_others_overload hb h₁).mp ht
    exact paren_not_mem_alternate hs hcase
  · intro t ht hlower
    have hothers : t ∈ others b := List.mem_filter.mpr ⟨ht, by simpa using hlower⟩
    have hover : t ∈ others (b ++ '(' :: a₁) :=
      (mem_others_overload hb h₁).mpr (mem_others.mp hothers).2
    exact List.mem_of_mem_filter hover

/-- A dot, a dollar sign, a capital and a parenthesis in a signature leave no trace. -/
theorem others_overloads_nested :
    others "a.bC(int)".toList = others "a.bC(x.Y$Z(q".toList ∧
      others "a.bC(int)".toList =
        ["a bC".toList, "a bc".toList, "a.bC".toList, "a.bc".toList, "bC".toList, "bc".toList] ∧
      (∀ t ∈ others "a.bC(int)".toList, '(' ∉ t) ∧
      ∀ t ∈ synonyms "a.bC".toList, t ≠ lower "a.bC".toList →
        t ∈ synonyms "a.bC(int)".toList := by
  have hbase : '(' ∉ "a.bC".toList := by decide
  have hshort : '\n' ∉ "int)".toList := by decide
  have hlong : '\n' ∉ "x.Y$Z(q".toList := by decide
  obtain ⟨hsame, hplain, hbare⟩ := others_overloads hbase hshort hlong
  exact ⟨hsame, by decide +kernel, hplain, hbare⟩

end GoToSymbol.Name
