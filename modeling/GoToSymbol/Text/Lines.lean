import GoToSymbol.Text.Blank

namespace GoToSymbol.Text

/-- Cuts a text after every line feed, carriage return or pair of both; the line ends are dropped
and a text that ends in one has no further line. -/
def linesFrom (current : List Char) : List Char → List (List Char)
  | [] => if current.isEmpty then [] else [current.reverse]
  | '\r' :: '\n' :: rest => current.reverse :: linesFrom [] rest
  | '\n' :: rest => current.reverse :: linesFrom [] rest
  | '\r' :: rest => current.reverse :: linesFrom [] rest
  | c :: rest => linesFrom (c :: current) rest

def lines (s : List Char) : List (List Char) := linesFrom [] s

/-- Cuts a list at every `sep`; there is always one piece more than separators. -/
def splitOn (sep : Char) : List Char → List (List Char)
  | [] => [[]]
  | c :: rest =>
    if c = sep then [] :: splitOn sep rest
    else match splitOn sep rest with
      | piece :: more => (c :: piece) :: more
      | [] => [[c]]

/-- The pieces with `sep` between neighbours. -/
def joinWith (sep : Char) : List (List Char) → List Char
  | [] => []
  | [p] => p
  | p :: q :: rest => p ++ sep :: joinWith sep (q :: rest)

theorem splitOn_ne_nil (sep : Char) (s : List Char) : splitOn sep s ≠ [] := by
  cases s with
  | nil => simp [splitOn]
  | cons c rest =>
    simp only [splitOn]
    split
    · simp
    · split <;> simp

theorem joinWith_cons (sep : Char) (p : List Char) {ps : List (List Char)} (h : ps ≠ []) :
    joinWith sep (p :: ps) = p ++ sep :: joinWith sep ps := by
  cases ps with
  | nil => exact absurd rfl h
  | cons q rest => rfl

theorem joinWith_splitOn (sep : Char) (s : List Char) : joinWith sep (splitOn sep s) = s := by
  induction s with
  | nil => rfl
  | cons c rest ih =>
    simp only [splitOn]
    split
    · next h => rw [joinWith_cons sep [] (splitOn_ne_nil sep rest), ih, h]; rfl
    · next h =>
      revert ih
      cases hs : splitOn sep rest with
      | nil => exact absurd hs (splitOn_ne_nil sep rest)
      | cons piece more =>
        intro ih
        cases more with
        | nil => simpa [joinWith] using ih
        | cons q rest' => simpa [joinWith] using ih

end GoToSymbol.Text
