import GoToSymbol.Name.Split
import GoToSymbol.Text.Case

namespace GoToSymbol.Name

open Text

/-- The capitals of a name, in order. -/
def camelFragment (name : List Char) : List Char := name.filter isUpper

/-- A text and its lowercase. -/
def cases (t : List Char) : List (List Char) := [t, lower t]

def spaced (t : List Char) : List Char := t.map fun c => if c = '.' then ' ' else c

/-- The alternates of a term before short ones are dropped and lowercase copies added. -/
def candidates (term : List Char) : List (List Char) :=
  let q := split term
  [term, q.simple, camelFragment q.simple]
    ++ (splitOn '$' q.simple).flatMap cases
    ++ [q.short, spaced q.short]
    ++ (if q.path.isEmpty then [] else [joinWith '.' q.initials ++ ' ' :: q.simple])

/-- Puts a text into an ascending list, unless it is there already. -/
def insertText (t : List Char) : List (List Char) → List (List Char)
  | [] => [t]
  | u :: us => if t < u then t :: u :: us else if t = u then u :: us else u :: insertText t us

/-- The texts in ascending order, each of them once. -/
def ascending (ts : List (List Char)) : List (List Char) := ts.foldr insertText []

theorem mem_insertText {t u : List Char} {us : List (List Char)} :
    t ∈ insertText u us ↔ t = u ∨ t ∈ us := by
  induction us with
  | nil => simp [insertText]
  | cons v vs ih =>
    simp only [insertText]
    split
    · simp
    · split
      · next h => subst h; simp
      · simp [ih, or_left_comm]

theorem mem_ascending {t : List Char} {ts : List (List Char)} : t ∈ ascending ts ↔ t ∈ ts := by
  induction ts with
  | nil => simp [ascending]
  | cons u us ih =>
    show t ∈ insertText u (ascending us) ↔ _
    simp [mem_insertText, ih]

/-- The tokens a term can also be found by: its alternates of two characters or more with their
lowercase copies, without the term itself. -/
def synonyms (term : List Char) : List (List Char) :=
  ascending ((((candidates term).filter (1 < ·.length)).flatMap cases).filter (· ≠ term))

theorem term_not_mem_synonyms (term : List Char) : term ∉ synonyms term := by
  simp [synonyms, mem_ascending]

/-- Whether a text is analyzed while indexing or while searching. -/
inductive Mode where
  | index
  | query
deriving Repr, DecidableEq

/-- The tokens of a text: the whole of it, followed while indexing by its synonyms. -/
def tokens (mode : Mode) (text : List Char) : List (List Char) :=
  match mode with
  | .index => text :: synonyms text
  | .query => [text]

end GoToSymbol.Name
