import GoToSymbol.Proofs.Name.Overloads
import Mathlib.Data.List.DropRight

namespace GoToSymbol.Name

open Text

/-- A term without its signatures: each line up to its first parenthesis. -/
def bare (term : List Char) : List Char :=
  joinWith '\n' ((splitOn '\n' term).map fun line => line.takeWhile (· ≠ '('))

/-- A text without the dots at its end. -/
def undotted (s : List Char) : List Char := s.rdropWhile (· = '.')

/-- The segments of the path and the simple name. -/
def Qualified.segments (q : Qualified) : List (List Char) := q.path ++ [q.simple]

/-- The path and the simple name, joined by dots. -/
def Qualified.joined (q : Qualified) : List Char := joinWith '.' q.segments

theorem Qualified.segments_ne_nil (q : Qualified) : q.segments ≠ [] := by simp [segments]

theorem Qualified.segments_inj {q r : Qualified} (h : q.segments = r.segments) : q = r := by
  obtain ⟨path, simple⟩ := q
  obtain ⟨path', simple'⟩ := r
  obtain ⟨rfl, hsimple⟩ := List.append_inj' h rfl
  cases hsimple
  rfl

/-- A line is kept up to its first parenthesis, and not at all inside of one, whatever follows it. -/
theorem dropSignatures_line {line rest : List Char} (hline : '\n' ∉ line)
    (hrest : ∀ inside, dropSignatures inside rest = dropSignatures false rest) (inside : Bool) :
    dropSignatures inside (line ++ rest) =
      (if inside then [] else line.takeWhile (· ≠ '(')) ++ dropSignatures false rest := by
  induction line generalizing inside with
  | nil => simpa using hrest inside
  | cons c line ih =>
    rw [List.mem_cons, not_or] at hline
    obtain ⟨hc, hline⟩ := hline
    rw [List.cons_append, dropSignatures, if_neg (Ne.symm hc)]
    split
    · -- A parenthesis that opens and what stands inside of one are dropped alike.
      next hopen =>
      rw [ih hline true]
      cases inside with
      | true => rfl
      | false =>
        have hparen : c = '(' := by simpa using hopen
        simp [hparen]
    · next hplain =>
      have hplain : inside = false ∧ c ≠ '(' := by simpa using hplain
      rw [ih hline false, hplain.1]
      simp [hplain.2]

/-- Signatures are dropped line by line. -/
theorem dropSignatures_joinWith {lines : List (List Char)} (hne : lines ≠ [])
    (hlines : ∀ l ∈ lines, '\n' ∉ l) :
    dropSignatures false (joinWith '\n' lines) =
      joinWith '\n' (lines.map fun line => line.takeWhile (· ≠ '(')) := by
  induction lines with
  | nil => exact absurd rfl hne
  | cons l rest ih =>
    have hl : '\n' ∉ l := hlines l List.mem_cons_self
    by_cases hrest : rest = []
    · have hline := @dropSignatures_line l [] hl (fun _ => rfl) false
      rw [List.append_nil] at hline
      rw [hrest]
      show dropSignatures false l = l.takeWhile (· ≠ '(')
      rw [hline]
      exact List.append_nil _
    · have htail := ih hrest fun m hm => hlines m (List.mem_cons_of_mem l hm)
      have hmap : rest.map (fun line => line.takeWhile (· ≠ '(')) ≠ [] := by simpa using hrest
      rw [joinWith_cons '\n' l hrest, dropSignatures_line hl (fun _ => rfl) false,
        List.map_cons, joinWith_cons '\n' _ hmap, ← htail]
      rfl

theorem dropSignatures_eq_bare (term : List Char) : dropSignatures false term = bare term := by
  have hterm := dropSignatures_joinWith (splitOn_ne_nil '\n' term)
    fun _ hl => sep_not_mem_of_mem_splitOn hl
  rwa [joinWith_splitOn] at hterm

theorem split_eq (term : List Char) : split term = .ofParts (splitOn '.' (bare term)) := by
  rw [split, dropSignatures_eq_bare]

theorem bare_of_plain {s : List Char} (h : '(' ∉ s) : bare s = s := by
  rw [← dropSignatures_eq_bare]
  simpa [dropSignatures] using dropSignatures_append h []

namespace Qualified

theorem ofParts_concat_nil (ps : List (List Char)) : ofParts (ps ++ [[]]) = ofParts ps := by
  simp [ofParts]

theorem ofParts_concat (ps : List (List Char)) {p : List Char} (h : p ≠ []) :
    ofParts (ps ++ [p]) = ⟨ps, p⟩ := by
  have hp : p.isEmpty = false := by simpa using h
  simp [ofParts, hp]

/-- There is no path without a simple name. -/
theorem path_ofParts {parts : List (List Char)} (h : (ofParts parts).simple = []) :
    (ofParts parts).path = [] := by
  induction parts using List.reverseRecOn with
  | nil => rfl
  | append_singleton ps p ih =>
    by_cases hp : p = []
    · rw [hp, ofParts_concat_nil] at h ⊢
      exact ih h
    · rw [ofParts_concat ps hp] at h
      exact absurd h hp

/-- Only trailing empty parts are lost, and with them the dots in front of them. -/
theorem joined_ofParts {parts : List (List Char)} (hdots : ∀ p ∈ parts, '.' ∉ p) :
    (ofParts parts).joined = undotted (joinWith '.' parts) := by
  induction parts using List.reverseRecOn with
  | nil => rfl
  | append_singleton ps p ih =>
    have hps := ih fun q hq => hdots q (List.mem_append_left _ hq)
    by_cases hp : p = []
    · rw [hp, ofParts_concat_nil, hps]
      by_cases hempty : ps = []
      · rw [hempty]
        rfl
      · rw [joinWith_concat '.' hempty]
        exact (List.rdropWhile_concat_pos _ _ '.' (by simp)).symm
    · -- The text ends with the last part, and so in no dot.
      have hp_dot : '.' ∉ p := hdots p (by simp)
      obtain ⟨front, hfront⟩ := exists_joinWith_concat '.' ps p
      rw [ofParts_concat ps hp]
      show joinWith '.' (ps ++ [p]) = undotted (joinWith '.' (ps ++ [p]))
      refine (List.rdropWhile_eq_self_iff.mpr fun hne => ?_).symm
      have hlast : (joinWith '.' (ps ++ [p])).getLast hne = p.getLast hp := by
        simp only [hfront]
        exact List.getLast_append_of_ne_nil _ hp
      rw [hlast, decide_eq_true_eq]
      intro hdot
      exact hp_dot (hdot ▸ List.getLast_mem hp)

end Qualified

/-- No segment holds the dot that it was cut at, or a signature. -/
theorem not_mem_segments {term p : List Char} (h : p ∈ (split term).segments) :
    '.' ∉ p ∧ '(' ∉ p := by
  have hmade : p = (split term).simple ∨ p ∈ (split term).path := by
    rw [Qualified.segments, List.mem_append, List.mem_singleton] at h
    exact h.symm
  refine ⟨?_, paren_not_mem_split hmade⟩
  rcases Qualified.mem_of_ofParts hmade with rfl | hp
  · exact List.not_mem_nil
  · exact sep_not_mem_of_mem_splitOn hp

theorem joined_split (term : List Char) : (split term).joined = undotted (bare term) := by
  rw [split_eq, Qualified.joined_ofParts fun p hp => sep_not_mem_of_mem_splitOn hp,
    joinWith_splitOn]

/-- The text that they make determines the path and the simple name. -/
theorem Qualified.joined_inj {q r : Qualified} (hq : ∀ p ∈ q.segments, '.' ∉ p)
    (hr : ∀ p ∈ r.segments, '.' ∉ p) (h : q.joined = r.joined) : q = r := by
  apply segments_inj
  rw [← splitOn_joinWith q.segments_ne_nil hq, ← splitOn_joinWith r.segments_ne_nil hr]
  exact congrArg (splitOn '.') h

theorem split_eq_iff {s t : List Char} :
    split s = split t ↔ undotted (bare s) = undotted (bare t) := by
  rw [← joined_split, ← joined_split]
  constructor
  · exact congrArg Qualified.joined
  · exact Qualified.joined_inj (fun _ hp => (not_mem_segments hp).1)
      fun _ hp => (not_mem_segments hp).1

theorem path_of_simple_eq_nil {term : List Char} (h : (split term).simple = []) :
    (split term).path = [] := Qualified.path_ofParts h

/-- Only where there is nothing but dots there is no name. -/
theorem simple_eq_nil_iff {term : List Char} :
    (split term).simple = [] ↔ ∀ c ∈ bare term, c = '.' := by
  have hdots : undotted (bare term) = [] ↔ ∀ c ∈ bare term, c = '.' := by
    simp [undotted, List.rdropWhile_eq_nil_iff]
  rw [← hdots, ← joined_split]
  constructor
  · intro h
    rw [Qualified.joined, Qualified.segments, path_of_simple_eq_nil h, h]
    rfl
  · intro h
    have hnone : split term = ⟨[], []⟩ :=
      Qualified.joined_inj (fun _ hp => (not_mem_segments hp).1)
        (by simp [Qualified.segments]) h
    rw [hnone]

theorem split_joined (term : List Char) : split (split term).joined = split term := by
  have hplain : '(' ∉ (split term).joined := by
    intro h
    rcases mem_joinWith h with hdot | ⟨p, hp, hparen⟩
    · exact absurd hdot (by decide)
    · exact (not_mem_segments hp).2 hparen
  rw [split_eq_iff, bare_of_plain hplain, joined_split]
  exact List.rdropWhile_idempotent _ _

/-- Dots that are appended stand at the end, or in a signature and so nowhere. -/
theorem dropSignatures_dots (inside : Bool) (term : List Char) (n : Nat) :
    ∃ m, dropSignatures inside (term ++ List.replicate n '.') =
      dropSignatures inside term ++ List.replicate m '.' := by
  induction term generalizing inside with
  | nil =>
    cases inside with
    | true =>
      refine ⟨0, dropSignatures_inside ?_⟩
      simp
    | false =>
      refine ⟨n, ?_⟩
      rw [List.nil_append, dropSignatures_eq_bare]
      exact bare_of_plain (by simp)
  | cons c term ih =>
    simp only [List.cons_append, dropSignatures]
    split
    · obtain ⟨m, hm⟩ := ih false
      exact ⟨m, congrArg ('\n' :: ·) hm⟩
    · split
      · exact ih true
      · obtain ⟨m, hm⟩ := ih false
        exact ⟨m, congrArg (c :: ·) hm⟩

theorem undotted_append_dots (s : List Char) (n : Nat) :
    undotted (s ++ List.replicate n '.') = undotted s := by
  induction n with
  | zero => simp
  | succ n ih =>
    rw [List.replicate_succ', ← List.append_assoc]
    exact (List.rdropWhile_concat_pos _ _ '.' (by simp)).trans ih

theorem split_append_dots (term : List Char) (n : Nat) :
    split (term ++ List.replicate n '.') = split term := by
  obtain ⟨m, hm⟩ := dropSignatures_dots false term n
  rw [split_eq_iff, ← dropSignatures_eq_bare, hm, undotted_append_dots, dropSignatures_eq_bare]

/-- The path and the simple name of a term are the one way to cut it at its dots: they make up the
term without its signatures and trailing dots, and hold no dot and no parenthesis themselves. Only
what is all dots has no name, and then no path. The text that they make is cut into them again, and
dots at the end of a term make no difference. -/
theorem split_determined (term : List Char) :
    (split term).joined = undotted (bare term) ∧
      (∀ p ∈ (split term).segments, '.' ∉ p ∧ '(' ∉ p) ∧
      ((split term).simple = [] ↔ ∀ c ∈ bare term, c = '.') ∧
      ((split term).simple = [] → (split term).path = []) ∧
      (∀ q : Qualified, q.joined = undotted (bare term) → (∀ p ∈ q.segments, '.' ∉ p) →
        q = split term) ∧
      split (split term).joined = split term ∧
      ∀ n, split (term ++ List.replicate n '.') = split term := by
  refine ⟨joined_split term, fun p => not_mem_segments, simple_eq_nil_iff, path_of_simple_eq_nil,
    fun q hq hdots => ?_, split_joined term, split_append_dots term⟩
  have hsplit : ∀ p ∈ (split term).segments, '.' ∉ p := fun p hp => (not_mem_segments hp).1
  exact Qualified.joined_inj hdots hsplit (hq.trans (joined_split term).symm)

/-- A signature ends with its line. Dots in front and between names count as empty segments. -/
example : bare ".a..b(x.y(\nc.d.(e..".toList = ".a..b\nc.d.".toList ∧
    split ".a..b(x.y(\nc.d.(e..".toList =
      ⟨["".toList, "a".toList, "".toList, "b\nc".toList], "d".toList⟩ := by decide

end GoToSymbol.Name
