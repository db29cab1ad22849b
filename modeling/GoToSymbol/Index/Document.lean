import GoToSymbol.Index.Entry
import GoToSymbol.Index.Failure

namespace GoToSymbol

def fqnField : String := "fqn"

def fileField : String := "file"

def tagField : String := "TYPE"

/-- What is handed to the storage for one entry: field values, and boosts by field. -/
structure Document where
  fields : List (String × Value)
  boosts : List (String × Float)

namespace Document

def get? (d : Document) (name : String) : Option Value := Value.get? name d.fields

/-- The boost of a field, one unless it was set. -/
def boost (d : Document) (name : String) : Float :=
  ((d.boosts.find? fun b => b.1 == name).map (·.2)).getD 1.0

def putBoost (name : String) (x : Float) : List (String × Float) → List (String × Float)
  | [] => [(name, x)]
  | (n, y) :: rest => if n = name then (n, x) :: rest else (n, y) :: putBoost name x rest

/-- Sets the boost of a field, which must be positive. -/
def setBoost (d : Document) (name : String) (x : Float) : Except Failure Document :=
  if x ≤ 0.0 then .error (.nonPositiveBoost name x)
  else .ok { d with boosts := putBoost name x d.boosts }

def boostName (name : String) : String := "_" ++ name ++ "_boost"

/-- Fields and boosts together, as the storage takes them. -/
def writerFields (d : Document) : List (String × Value) :=
  d.boosts.foldl (fun fields b => Value.set (boostName b.1) (.float b.2) fields) d.fields

end Document

namespace Entry

/-- The document of an entry, with the URI of its file. -/
def toDocument (cwd : File.Path) (e : Entry) : Except Failure Document :=
  match e.file with
  | none => .error (.missingFile e.variant.tag e.fqn)
  | some file => .ok ⟨[(fileField, .text (File.uri cwd (.check file))), (fqnField, e.fqn),
      (tagField, .text e.variant.tag)], []⟩

/-- The entry of a stored document, told by its tag; the file is not stored. -/
def ofDocument (d : Document) : Except Failure Entry :=
  let tag := (d.get? tagField).getD .null
  let fqn := (d.get? fqnField).getD .null
  match tag.text?.bind Variant.ofTag? with
  | some v => .ok ⟨v, fqn, none⟩
  | none => .error (.index (.corruption tag fqn))

theorem ofDocument_toDocument {cwd : File.Path} {e : Entry} {d : Document}
    (h : e.toDocument cwd = .ok d) : ofDocument d = .ok { e with file := none } := by
  cases e with
  | mk variant fqn file =>
    cases file with
    | none => simp [toDocument] at h
    | some f =>
      simp only [toDocument, Except.ok.injEq] at h
      subst h
      cases variant <;> rfl

end Entry

end GoToSymbol
