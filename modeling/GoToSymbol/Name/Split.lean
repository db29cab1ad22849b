import GoToSymbol.Text.Lines

namespace GoToSymbol.Name

open Text

/-- Drops, on each line, everything from the first opening parenthesis on. -/
def dropSignatures (inside : Bool) : List Char → List Char
  | [] => []
  | c :: rest =>
    if c = '\n' then '\n' :: dropSignatures false rest
    else if inside || c = '(' then dropSignatures true rest
    else c :: dropSignatures false rest

/-- A qualified name: the segments of its package path and its simple name. -/
structure Qualified where
  path : List (List Char)
  simple : List Char
deriving Repr, DecidableEq

/-- The last part that is not empty names the symbol; the parts before it are its path. -/
def Qualified.ofParts (parts : List (List Char)) : Qualified :=
  match parts.reverse.dropWhile List.isEmpty with
  | [] => ⟨[], []⟩
  | simple :: path => ⟨path.reverse, simple⟩

/-- Splits a term without its signatures at the dots, ignoring trailing dots. -/
def split (term : List Char) : Qualified :=
  .ofParts (splitOn '.' (dropSignatures false term))

/-- The first character of each segment of the path. -/
def Qualified.initials (q : Qualified) : List (List Char) := q.path.map (·.take 1)

/-- The initials of the path and the simple name, joined by dots. -/
def Qualified.short (q : Qualified) : List Char := joinWith '.' (q.initials ++ [q.simple])

theorem dropSignatures_no_paren (inside : Bool) (s : List Char) :
    '(' ∉ dropSignatures inside s := by
  induction s generalizing inside with
  | nil => simp [dropSignatures]
  | cons c rest ih =>
    simp only [dropSignatures]
    split
    · simp [ih]
    · split
      · exact ih true
      · next h =>
        simp only [Bool.or_eq_true, decide_eq_true_eq, not_or] at h
        simp [ih, Ne.symm h.2]

example : split "a.b.Foo(int)".toList = ⟨[['a'], ['b']], ['F', 'o', 'o']⟩ := by decide
example : split "a.b..".toList = ⟨[['a']], ['b']⟩ := by decide
example : split "...".toList = ⟨[], []⟩ := by decide

end GoToSymbol.Name
