import GoToSymbol.Decimal.Rounding
import GoToSymbol.Value.Text

namespace GoToSymbol.Log

open Decimal

/-- How a value is laid out where a template asks for it. -/
structure Layout where
  left : Bool
  zeros : Bool
  plus : Bool
  blank : Bool
  width : Nat
  precision : Option Nat

/-- A part of a template: text, or a place for the next argument or for the one of that name. -/
inductive Piece where
  | text (c : Char)
  | place (key : Option String) (layout : Layout) (kind : Char)

/-- Why a template cannot be filled. -/
inductive TemplateError where
  | incomplete
  | unknownKind (kind : Char) (index : Nat)
  | tooFew
  | tooMany
  | notReal (kind : Char) (type : String)
  | notWhole (kind : Char) (type : String)
  | noMapping
  | noKey (key : String)

def TemplateError.message : TemplateError → String
  | incomplete => "incomplete format"
  | unknownKind kind index => "unsupported format character " ++ Text.quoted (String.singleton kind)
      ++ " (0x" ++ String.ofList (Nat.toDigits 16 kind.toNat) ++ ") at index " ++ toString index
  | tooFew => "not enough arguments for format string"
  | tooMany => "not all arguments converted during string formatting"
  | notReal kind type =>
    "%" ++ String.singleton kind ++ " format: a real number is required, not " ++ type
  | notWhole kind type =>
    "%" ++ String.singleton kind ++ " format: an integer is required, not " ++ type
  | noMapping => "format requires a mapping"
  | noKey key => Text.quoted key

def typeName : Value → String
  | .null => "NoneType"
  | .bool _ => "bool"
  | .int _ => "int"
  | .float _ => "float"
  | .text _ => "str"
  | .list _ => "list"
  | .object _ => "dict"

/-- Pads a text to the width of its layout. -/
def Layout.pad (l : Layout) (s : String) : String :=
  let fill := List.replicate (l.width - s.length) ' '
  if l.left then s ++ String.ofList fill else String.ofList fill ++ s

/-- Puts a sign before the digits of a number, and zeros between them if the layout has them. -/
def Layout.number (l : Layout) (negative : Bool) (digits : String) : String :=
  let sign := if negative then "-" else if l.plus then "+" else if l.blank then " " else ""
  if l.zeros && !l.left then
    sign ++ String.ofList (List.replicate (l.width - sign.length - digits.length) '0') ++ digits
  else l.pad (sign ++ digits)

def Layout.atLeast (l : Layout) (digits : String) : String :=
  String.ofList (List.replicate ((l.precision.getD 0) - digits.length) '0') ++ digits

/-- A magnitude with a fixed number of decimal places, ties to even. -/
def fixedText (places : Nat) (b : Binary) : String :=
  let units := roundHalfEven (b.mantissa * Nat.pow 2 b.exponent.toNat * Nat.pow 10 places)
    (Nat.pow 2 (-b.exponent).toNat)
  let fraction := Nat.toDigits 10 (units % Nat.pow 10 places)
  toString (units / Nat.pow 10 places) ++ (if places = 0 then ""
    else "." ++ String.ofList (List.replicate (places - fraction.length) '0' ++ fraction))

def wholeOf (kind : Char) : Value → Except TemplateError Int
  | .int n => .ok n
  | .bool b => .ok (if b then 1 else 0)
  | .float x =>
    match Binary.ofFloat? x with
    | some b => .ok (if b.negative then b.ceil else -(Binary.ceil { b with negative := true }))
    | none => .error (.notReal kind "float")
  | v => .error (.notReal kind (typeName v))

def integerOf (kind : Char) : Value → Except TemplateError Int
  | .int n => .ok n
  | .bool b => .ok (if b then 1 else 0)
  | v => .error (.notWhole kind (typeName v))

def realOf (kind : Char) : Value → Except TemplateError Float
  | .int n => .ok (floatOfInt n)
  | .bool b => .ok (if b then 1.0 else 0.0)
  | .float x => .ok x
  | v => .error (.notReal kind (typeName v))

def cut (precision : Option Nat) (s : String) : String :=
  match precision with
  | some n => String.ofList (s.toList.take n)
  | none => s

def upperDigits (s : List Char) : List Char :=
  s.map fun c => if 'a' ≤ c ∧ c ≤ 'f' then Char.ofNat (c.toNat - 32) else c

/-- Writes a value in the way its kind of place asks for. -/
def write (l : Layout) (kind : Char) (index : Nat) (v : Value) : Except TemplateError String :=
  match kind with
  | 's' => .ok (l.pad (cut l.precision v.plain))
  | 'r' => .ok (l.pad (cut l.precision v.literal))
  | 'd' | 'i' | 'u' => do
    let n ← wholeOf kind v
    return l.number (n < 0) (l.atLeast (toString n.natAbs))
  | 'x' => do
    let n ← integerOf kind v
    return l.number (n < 0) (l.atLeast (String.ofList (Nat.toDigits 16 n.natAbs)))
  | 'X' => do
    let n ← integerOf kind v
    return l.number (n < 0) (l.atLeast (String.ofList (upperDigits (Nat.toDigits 16 n.natAbs))))
  | 'o' => do
    let n ← integerOf kind v
    return l.number (n < 0) (l.atLeast (String.ofList (Nat.toDigits 8 n.natAbs)))
  | 'f' | 'F' => do
    let x ← realOf kind v
    match Binary.ofFloat? x with
    | some b => return l.number b.negative (fixedText (l.precision.getD 6) b)
    | none => return { l with zeros := false }.number (x < 0.0) (if x.isNaN then "nan" else "inf")
  | _ => .error (.unknownKind kind index)

/-- Reads flags, a width, a precision and the kind of a place; `done` counts what was read. -/
def readPlace (key : Option String) : Layout → Nat → List Char → Option (Piece × Nat)
  | _, _, [] => none
  | l, done, c :: rest =>
    match c with
    | '-' => readPlace key { l with left := true } (done + 1) rest
    | '0' =>
      if l.width = 0 ∧ l.precision = none then readPlace key { l with zeros := true } (done + 1) rest
      else digit l done c rest
    | '+' => readPlace key { l with plus := true } (done + 1) rest
    | ' ' => readPlace key { l with blank := true } (done + 1) rest
    | '#' | 'h' | 'l' | 'L' => readPlace key l (done + 1) rest
    | '.' => readPlace key { l with precision := some 0 } (done + 1) rest
    | _ =>
      if isDigit c then digit l done c rest else some (.place key l c, done + 1)
where
  digit (l : Layout) (done : Nat) (c : Char) (rest : List Char) : Option (Piece × Nat) :=
    match l.precision with
    | some p => readPlace key { l with precision := some (p * 10 + digitValue c) } (done + 1) rest
    | none => readPlace key { l with width := l.width * 10 + digitValue c } (done + 1) rest

def noLayout : Layout := ⟨false, false, false, false, 0, none⟩

/-- The pieces of a template after `skip` characters, each with the place where it ends. -/
def pieces (index : Nat) : Nat → List Char → Option (List (Piece × Nat))
  | _, [] => some []
  | skip + 1, _ :: rest => pieces (index + 1) skip rest
  | 0, c :: rest =>
    if c = '%' then do
      let key := if rest.head? = some '(' then some ((rest.drop 1).takeWhile (· != ')')) else none
      let keyLength := (key.map fun k => k.length + 2).getD 0
      let (piece, n) ← readPlace (key.map String.ofList) noLayout keyLength (rest.drop keyLength)
      let others ← pieces (index + 1) n rest
      some ((piece, index + n) :: others)
    else (pieces (index + 1) 0 rest).map ((.text c, index) :: ·)

/-- The arguments of a template: in order, or by name. -/
inductive Arguments where
  | ordered (values : List Value)
  | named (members : List (String × Value))

def fillPieces : Arguments → List (Piece × Nat) → Except TemplateError String
  | .ordered (_ :: _), [] => .error .tooMany
  | _, [] => .ok ""
  | args, (.text c, _) :: rest => (fillPieces args rest).map (String.singleton c ++ ·)
  | args, (.place key layout kind, index) :: rest =>
    if kind = '%' then (fillPieces args rest).map ("%" ++ ·)
    else
      match key, args with
      | some k, .named members =>
        match Value.get? k members with
        | some v => do return (← write layout kind index v) ++ (← fillPieces args rest)
        | none => .error (.noKey k)
      | some _, .ordered _ => .error .noMapping
      | none, .named members => do
        return (← write layout kind index (.object members)) ++ (← fillPieces (.ordered []) rest)
      | none, .ordered (v :: vs) => do
        return (← write layout kind index v) ++ (← fillPieces (.ordered vs) rest)
      | none, .ordered [] => .error .tooFew

/-- Fills a template. Without arguments it is taken as it is, and a single object names them. -/
def fill (template : String) (args : List Value) : Except TemplateError String :=
  match args with
  | [] => .ok template
  | _ =>
    let arguments : Arguments := match args with
      | [.object (m :: ms)] => .named (m :: ms)
      | _ => .ordered args
    match pieces 0 0 template.toList with
    | some ps => fillPieces arguments ps
    | none => .error .incomplete

end GoToSymbol.Log
