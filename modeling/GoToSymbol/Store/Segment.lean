import GoToSymbol.Name.Synonyms
import GoToSymbol.Index.Document

namespace GoToSymbol.Store

/-- What the store keeps of a document. -/
structure Stored where
  fqn : Option String
  file : Option String
  tag : Option String
  boost : Float

namespace Stored

def fieldNames : List String := [tagField, fileField, fqnField]

/-- Names with an underscore in front are no fields but settings of the write. -/
def isField (name : String) : Bool := name.toList.head? != some '_'

/-- The first in order of the names that a document is written with and that are no fields of the
store. -/
def unknownField? (fields : List (String × Value)) : Option String :=
  let names := ((fields.map (·.1)).filter isField).filter fun n => !fieldNames.contains n
  names.foldl (fun first? n => some (first?.elim n fun m => if n < m then n else m)) none

/-- The text in a field. A field is there for a text or for nothing; any other value is refused. -/
def textField (name : String) (fields : List (String × Value)) : Except Failure (Option String) :=
  match Value.get? name fields with
  | none | some .null => .ok none
  | some (.text s) => .ok (some s)
  | some v => .error (.notText v)

def boostOf (fields : List (String × Value)) : Float :=
  match Value.get? (Document.boostName fqnField) fields with
  | some (.float x) => x
  | some (.int n) => Decimal.floatOfInt n
  | _ => 1.0

/-- Takes the fields a document is written with; one outside the schema is refused. -/
def ofWriterFields (fields : List (String × Value)) : Except Failure Stored := do
  match unknownField? fields with
  | some name => .error (.unknownField name)
  | none =>
    let tag ← textField tagField fields
    let file ← textField fileField fields
    let fqn ← textField fqnField fields
    return ⟨fqn, file, tag, boostOf fields⟩

def ofDocument (d : Document) : Except Failure Stored := ofWriterFields d.writerFields

/-- The fields that can be read back; the file is only searched. -/
def document (d : Stored) : Document :=
  ⟨(d.fqn.map fun s => (fqnField, Value.text s)).toList
    ++ (d.tag.map fun s => (tagField, Value.text s)).toList, []⟩

/-- The tokens of a field: a name with its synonyms, the other fields as they are. -/
def tokens (d : Stored) (field : String) : List (List Char) :=
  if field = fqnField then (d.fqn.map fun s => Name.tokens .index s.toList).getD []
  else if field = fileField then (d.file.map String.toList).toList
  else if field = tagField then (d.tag.map String.toList).toList
  else []

end Stored

/-- A document in a segment: the length of its name field, and whether it was deleted. -/
structure Slot where
  doc : Stored
  length : Nat
  deleted : Bool

namespace Slot

def fresh (d : Stored) : Slot := ⟨d, (d.tokens fqnField).length, false⟩

def delete (s : Slot) : Slot := { s with deleted := true }

end Slot

/-- The lengths that can be told apart once a segment is written: 256 classes, each about a
thirtieth above the one before. -/
def lengthClass (n : Nat) : Nat :=
  (54 * (Nat.pow 1033 n - Nat.pow 1000 n) + Nat.pow 1000 n) / (2 * Nat.pow 1000 n)

def lengthClasses : List Nat := (List.range 256).map lengthClass

/-- The least length class that is not below `n`, and the last one where there is none. -/
def roundLength (n : Nat) : Nat :=
  (lengthClasses.find? (n ≤ ·)).getD (lengthClass 255)

/-- Documents written together. -/
structure Segment where
  serial : Nat
  slots : List Slot

namespace Segment

def size (s : Segment) : Nat := s.slots.length

def live (s : Segment) : List Slot := s.slots.filter (!·.deleted)

def mapSlots (f : Slot → Slot) (s : Segment) : Segment := { s with slots := s.slots.map f }

end Segment

/-- The documents that segments hold and that are not deleted, in order. -/
def documents (segments : List Segment) : List Stored :=
  segments.flatMap fun s => s.live.map (·.doc)

theorem documents_append (xs ys : List Segment) :
    documents (xs ++ ys) = documents xs ++ documents ys := by
  simp [documents]

example : (List.range 15).map lengthClass = [0, 1, 2, 3, 4, 5, 6, 7, 8, 9, 10, 12, 13, 14, 16] := by
  decide

end GoToSymbol.Store
