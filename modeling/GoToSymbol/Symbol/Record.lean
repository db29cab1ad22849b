import GoToSymbol.File.Reference
import GoToSymbol.Value.Text

namespace GoToSymbol

/-- What a record names. A class carries two marks: whether it was made by the compiler, and whether
decompiled metadata exists for it. -/
inductive SymbolKind where
  | classLike (synthetic decompiled : Bool)
  | method
  | field
  | typeAlias
deriving Repr, DecidableEq

/-- A symbol as an extractor hands it over. -/
structure Symbol where
  kind : SymbolKind
  file : File.Check
  fqn : String

namespace Symbol

/-- Why a value is no symbol record. -/
inductive DecodeError where
  | notAnObject (v : Value)
  | unknownKind (v : Value)
  | missing (key : String)

def DecodeError.message : DecodeError → String
  | notAnObject v => "Symbol record must be an object, got " ++ v.literal
  | unknownKind v => v.literal ++ " is not a valid SymbolKind"
  | missing key => "Symbol record is missing " ++ Text.quoted key

def kindOfText? : String → Option (Bool → Bool → SymbolKind)
  | "class" => some .classLike
  | "method" => some fun _ _ => .method
  | "field" => some fun _ _ => .field
  | "type_alias" => some fun _ _ => .typeAlias
  | _ => none

def flag (key : String) (members : List (String × Value)) : Bool :=
  ((Value.get? key members).map Value.isTruthy).getD false

def require (key : String) (members : List (String × Value)) : Except DecodeError Value :=
  match Value.get? key members with
  | some v => .ok v
  | none => .error (.missing key)

def decodeKind (v : Value) : Except DecodeError (Bool → Bool → SymbolKind) :=
  match v.text?.bind kindOfText? with
  | some k => .ok k
  | none => .error (.unknownKind v)

/-- Reads a record; kind, file and name are looked at in this order. -/
def ofMembers (members : List (String × Value)) : Except DecodeError Symbol := do
  let kind ← decodeKind (← require "kind" members)
  let file ← require "file" members
  let fqn ← require "fqn" members
  return {
    kind := kind (flag "synthetic" members) (flag "has_decompiled_metadata" members)
    file := ⟨file.plain, (Value.get? "timestamp" members).getD .null⟩
    fqn := fqn.plain }

def ofValue : Value → Except DecodeError Symbol
  | .object members => ofMembers members
  | v => .error (.notAnObject v)

/-- A class made by the compiler is worth an entry only if its metadata was decompiled. -/
def isIndexable (s : Symbol) : Bool :=
  match s.kind with
  | .classLike synthetic decompiled => !synthetic || decompiled
  | _ => true

end Symbol

end GoToSymbol
