import GoToSymbol.Text.Lines

namespace GoToSymbol.File

open Text

/-- How a path begins: nowhere in particular, at the root, or at the root with two slashes, which
may mean another one. -/
inductive Root where
  | relative
  | single
  | double
deriving Repr, DecidableEq

/-- A path without empty components and without `.`; a component `..` is kept. -/
structure Path where
  root : Root
  components : List (List Char)
deriving Repr, DecidableEq

namespace Path

/-- Exactly two leading slashes are kept apart from one; three or more count as one. -/
def rootOf : List Char → Root
  | '/' :: '/' :: '/' :: _ => .single
  | '/' :: '/' :: _ => .double
  | '/' :: _ => .single
  | _ => .relative

def ofText (s : List Char) : Path :=
  ⟨rootOf s, (splitOn '/' s).filter fun c => !c.isEmpty && c != ['.']⟩

def rootText : Root → List Char
  | .relative => []
  | .single => ['/']
  | .double => ['/', '/']

/-- The path in text form; the empty relative path is a dot. -/
def text (p : Path) : List Char :=
  if p.root = .relative ∧ p.components = [] then ['.']
  else rootText p.root ++ joinWith '/' p.components

def isAbsolute (p : Path) : Bool := p.root != .relative

/-- The second path seen from the first; an absolute path stays as it is. -/
def join (base p : Path) : Path :=
  if p.isAbsolute then p else ⟨base.root, base.components ++ p.components⟩

example : (ofText "a//./b/..".toList).text = "a/b/..".toList := by decide
example : (ofText "///a".toList).text = "/a".toList := by decide

end Path

end GoToSymbol.File
