import GoToSymbol.Text.Lines
import Mathlib.Logic.Basic

namespace GoToSymbol.Text

/-- Nothing in the text ends a line. -/
def Unbroken (l : List Char) : Prop := '\n' ∉ l ∧ '\r' ∉ l

/-- A text and its lines. A line ends in a line feed, in a carriage return with a line feed or in a
carriage return without one; a last line without an end has at least one character. -/
inductive Lined : List Char → List (List Char) → Prop
  | nil : Lined [] []
  | last {l : List Char} (h : Unbroken l) (hsome : l ≠ []) : Lined l [l]
  | feed {l s : List Char} {ls : List (List Char)} (h : Unbroken l) (hrest : Lined s ls) :
    Lined (l ++ '\n' :: s) (l :: ls)
  | pair {l s : List Char} {ls : List (List Char)} (h : Unbroken l) (hrest : Lined s ls) :
    Lined (l ++ '\r' :: '\n' :: s) (l :: ls)
  | lone {l s : List Char} {ls : List (List Char)} (h : Unbroken l) (hs : s.head? ≠ some '\n')
    (hrest : Lined s ls) : Lined (l ++ '\r' :: s) (l :: ls)

theorem unbroken_nil : Unbroken [] := ⟨List.not_mem_nil, List.not_mem_nil⟩

theorem unbroken_append {l m : List Char} : Unbroken (l ++ m) ↔ Unbroken l ∧ Unbroken m := by
  simp only [Unbroken, List.mem_append, not_or]
  exact and_and_and_comm

theorem unbroken_singleton {c : Char} : Unbroken [c] ↔ c ≠ '\n' ∧ c ≠ '\r' := by
  simp only [Unbroken, List.mem_singleton, ne_eq, eq_comm]

theorem linesFrom_append {l : List Char} (h : Unbroken l) (current s : List Char) :
    linesFrom current (l ++ s) = linesFrom (l.reverse ++ current) s := by
  induction l generalizing current with
  | nil => rfl
  | cons c l ih =>
    obtain ⟨hc, hl⟩ := unbroken_append.mp (show Unbroken ([c] ++ l) from h)
    obtain ⟨hfeed, hreturn⟩ := unbroken_singleton.mp hc
    rw [List.cons_append, linesFrom]
    · rw [ih hl, List.reverse_cons, List.append_assoc, List.singleton_append]
    · exact fun _ heq _ => hreturn heq
    · exact hfeed
    · exact hreturn

theorem linesFrom_lone {s : List Char} (h : s.head? ≠ some '\n') (current : List Char) :
    linesFrom current ('\r' :: s) = current.reverse :: linesFrom [] s := by
  rw [linesFrom]
  rintro rest rfl
  exact h rfl

/-- A line at the front, up to what ends it. -/
theorem lines_append_unbroken {l : List Char} (h : Unbroken l) (s : List Char) :
    lines (l ++ s) = linesFrom l.reverse s := by
  rw [lines, linesFrom_append h, List.append_nil]

theorem Lined.lines_eq {s : List Char} {ls : List (List Char)} (h : Lined s ls) :
    lines s = ls := by
  induction h with
  | nil => rfl
  | @last l h hsome =>
    have hline := lines_append_unbroken h []
    rw [List.append_nil] at hline
    rw [hline, linesFrom, if_neg (by simpa using hsome), List.reverse_reverse]
  | feed h _ ih => rw [lines_append_unbroken h, linesFrom, List.reverse_reverse, ← ih, lines]
  | pair h _ ih => rw [lines_append_unbroken h, linesFrom, List.reverse_reverse, ← ih, lines]
  | lone h hs _ ih =>
    rw [lines_append_unbroken h, linesFrom_lone hs, List.reverse_reverse, ← ih, lines]

theorem lined_linesFrom (current : List Char) (h : Unbroken current.reverse) (s : List Char) :
    Lined (current.reverse ++ s) (linesFrom current s) := by
  fun_induction linesFrom current s with
  | case1 current hnil =>
    rw [List.isEmpty_iff.mp hnil]
    exact .nil
  | case2 current hsome =>
    rw [List.append_nil]
    exact .last h (by simpa using hsome)
  | case3 current rest ih => exact .pair h (ih unbroken_nil)
  | case4 current rest ih => exact .feed h (ih unbroken_nil)
  | case5 current rest hrest ih =>
    refine .lone h (fun hhead => ?_) (ih unbroken_nil)
    obtain ⟨tail, rfl⟩ := List.head?_eq_some_iff.mp hhead
    exact hrest tail rfl
  | case6 current c rest _ hfeed hreturn ih =>
    have hmore : Unbroken (c :: current).reverse := by
      rw [List.reverse_cons]
      exact unbroken_append.mpr ⟨h, unbroken_singleton.mpr ⟨hfeed, hreturn⟩⟩
    have hlined := ih hmore
    rwa [List.reverse_cons, List.append_assoc, List.singleton_append] at hlined

/-- Every text has lines, and in one way only. -/
theorem lined_iff {s : List Char} {ls : List (List Char)} : Lined s ls ↔ lines s = ls := by
  constructor
  · exact Lined.lines_eq
  · rintro rfl
    exact lined_linesFrom [] unbroken_nil s

/-- A text that is empty or ends in a line feed. -/
def IsClosed (s : List Char) : Prop := s = [] ∨ s.getLast? = some '\n'

theorem IsClosed.rest {l s : List Char} (h : IsClosed (l ++ s)) : IsClosed s := by
  by_cases hs : s = []
  · exact Or.inl hs
  · rcases h with h | h
    · exact absurd (List.append_eq_nil_iff.mp h).2 hs
    · exact Or.inr (by simpa [List.getLast?_append, hs] using h)

theorem Lined.append {a b : List Char} {ls ms : List (List Char)} (h : Lined a ls)
    (hclosed : IsClosed a) (hb : Lined b ms) : Lined (a ++ b) (ls ++ ms) := by
  induction h with
  | nil => exact hb
  | last h hsome =>
    have hfeed := hclosed.resolve_left hsome
    exact absurd (List.mem_of_getLast? hfeed) h.1
  | @feed l s ls h _ ih =>
    have hs : IsClosed s := IsClosed.rest (l := l ++ ['\n']) (by simpa using hclosed)
    rw [List.append_assoc]
    exact .feed h (ih hs)
  | @pair l s ls h _ ih =>
    have hs : IsClosed s := IsClosed.rest (l := l ++ ['\r', '\n']) (by simpa using hclosed)
    rw [List.append_assoc]
    exact .pair h (ih hs)
  | @lone l s ls h hlone _ ih =>
    have hs : IsClosed s := IsClosed.rest (l := l ++ ['\r']) (by simpa using hclosed)
    -- A carriage return at the very end would take a line feed of `b` as its own, but the text is
    -- closed, so another character of it comes after the return.
    have hnext : (s ++ b).head? ≠ some '\n' := by
      cases s with
      | nil => simp [IsClosed] at hclosed
      | cons c s => simpa using hlone
    rw [List.append_assoc]
    exact .lone h hnext (ih hs)

theorem lines_append {a : List Char} (h : IsClosed a) (b : List Char) :
    lines (a ++ b) = lines a ++ lines b :=
  ((lined_iff.mpr rfl).append h (lined_iff.mpr rfl)).lines_eq

end GoToSymbol.Text
