import GoToSymbol.Symbol.Record

namespace GoToSymbol

/-- The variants of an entry. -/
inductive Variant where
  | classes
  | methods
  | fields
deriving Repr, DecidableEq

def Variant.tag : Variant → String
  | classes => "ClassIndex"
  | methods => "MethodIndex"
  | fields => "FieldIndex"

def Variant.ofTag? : String → Option Variant
  | "ClassIndex" => some classes
  | "MethodIndex" => some methods
  | "FieldIndex" => some fields
  | _ => none

theorem Variant.ofTag?_tag (v : Variant) : ofTag? v.tag = some v := by cases v <;> rfl

/-- An indexed name; its file is known only while it is indexed. -/
structure Entry where
  variant : Variant
  fqn : Value
  file : Option File.Check

namespace Entry

def sameFile : Option File.Check → Option File.Check → Bool
  | none, none => true
  | some a, some b => a.path == b.path && Value.same a.timestamp b.timestamp
  | _, _ => false

def same (a b : Entry) : Bool :=
  a.variant == b.variant && Value.same a.fqn b.fqn && sameFile a.file b.file

/-- Drops entries that stood before, `seen` among them. -/
def distinctAfter (seen : List Entry) : List Entry → List Entry
  | [] => []
  | e :: es =>
    if seen.any (·.same e) then distinctAfter seen es else e :: distinctAfter (e :: seen) es

/-- The entries in order, each where it stands first. -/
def distinct (es : List Entry) : List Entry := distinctAfter [] es

/-- The entry a symbol is indexed as; a symbol without a name or not worth an entry has none. -/
def ofSymbol? (s : Symbol) : Option Entry :=
  if s.isIndexable && !s.fqn.isEmpty then
    let variant : Variant := match s.kind with
      | .classLike _ _ => .classes
      | .method => .methods
      | .field | .typeAlias => .fields
    some ⟨variant, .text s.fqn, some s.file⟩
  else none

end Entry

end GoToSymbol
