import GoToSymbol.Config.Setting
import GoToSymbol.Decimal.Reading
import GoToSymbol.Text.Lines
import GoToSymbol.Text.Percent

namespace GoToSymbol.Setting

open Text Decimal

def boolWords : List (String × Bool) := [
  ("yes", true), ("Yes", true), ("YES", true), ("no", false), ("No", false), ("NO", false),
  ("true", true), ("True", true), ("TRUE", true), ("false", false), ("False", false),
  ("FALSE", false), ("on", true), ("On", true), ("ON", true), ("off", false), ("Off", false),
  ("OFF", false)]

def nullWords : List String := ["", "~", "null", "Null", "NULL"]

def specialFloats : List (String × Float) := [
  (".inf", 1.0 / 0.0), (".Inf", 1.0 / 0.0), (".INF", 1.0 / 0.0), ("+.inf", 1.0 / 0.0),
  ("+.Inf", 1.0 / 0.0), ("+.INF", 1.0 / 0.0), ("-.inf", -1.0 / 0.0), ("-.Inf", -1.0 / 0.0),
  ("-.INF", -1.0 / 0.0), (".nan", 0.0 / 0.0), (".NaN", 0.0 / 0.0), (".NAN", 0.0 / 0.0)]

def isSpacedDigit (c : Char) : Bool := isDigit c || c == '_'

def unspaced (s : List Char) : List Char := s.filter (· != '_')

/-- Digits of a base with underscores among them; at least one digit is needed. -/
def digitsOf? (base : Nat) (s : List Char) : Option Nat :=
  match (unspaced s).mapM hexValue? with
  | some (d :: ds) => if (d :: ds).all (· < base) then some (natOfDigits base (d :: ds)) else none
  | _ => none

/-- Digits, a first one that is no underscore among them. -/
def isNumeral : List Char → Bool
  | c :: rest => isDigit c && rest.all isSpacedDigit
  | [] => false

/-- A part after a colon: one digit, or two below sixty. -/
def isSixtieth : List Char → Bool
  | [a] => isDigit a
  | [a, b] => '0' ≤ a && a ≤ '5' && isDigit b
  | _ => false

/-- Whole numbers: decimal, octal after a zero, binary, hexadecimal, or by sixties with colons. -/
def wholeOf? (s : List Char) : Option Nat :=
  match s with
  | ['0'] => some 0
  | '0' :: 'b' :: rest => digitsOf? 2 rest
  | '0' :: 'x' :: rest => digitsOf? 16 rest
  | '0' :: rest => if rest.all (· == '_') then some 0 else digitsOf? 8 rest
  | _ =>
    match splitOn ':' s with
    | first :: rest =>
      if isNumeral first && rest.all isSixtieth then
        some (natOfDigits 60 ((first :: rest).map fun part => natOfText (unspaced part)))
      else none
    | [] => none

def intOf? (s : List Char) : Option Int :=
  let (negative, rest) := splitSign s
  (wholeOf? rest).map fun n => if negative then -(n : Int) else n

/-- An exponent, whose sign cannot be left out, or nothing. -/
def exponentOf? : List Char → Option (Option Int)
  | [] => some none
  | c :: sign :: rest =>
    if (c == 'e' || c == 'E') && (sign == '+' || sign == '-') && !rest.isEmpty && rest.all isDigit then
      some (some (if sign = '-' then -(natOfText rest : Int) else natOfText rest))
    else none
  | _ => none

/-- A number with a point that has digits before it, after it, or both. -/
def pointedOf? (negative : Bool) (whole rest : List Char) : Option Float :=
  let fraction := rest.takeWhile isSpacedDigit
  (exponentOf? (rest.dropWhile isSpacedDigit)).map fun e =>
    Parts.toFloat ⟨negative, unspaced whole, some (unspaced fraction), e⟩

/-- A number by sixties with a point in its last part. -/
def sixtyOf? (parts : List (List Char)) (fraction : List Char) : Option Float :=
  match parts with
  | first :: second :: rest =>
    if isNumeral first && (second :: rest).all isSixtieth && fraction.all isSpacedDigit then
      let values := (parts.dropLast).map fun p => Scientific.toFloat ⟨natOfText (unspaced p), 0⟩
      let last := Parts.toFloat ⟨false, parts.getLast?.getD [], some (unspaced fraction), none⟩
      some ((values.foldr (fun x (acc : Float × Float) => (acc.1 + x * acc.2, acc.2 * 60.0))
        (0.0 + last * 1.0, 60.0)).1)
    else none
  | _ => none

def floatOf? (s : List Char) : Option Float :=
  let (negative, body) := splitSign s
  let whole := body.takeWhile (· != '.')
  match body.dropWhile (· != '.') with
  | _ :: rest =>
    if isNumeral whole then pointedOf? negative whole rest
    else if whole.isEmpty then
      if s.head? = some '.' && (rest.head?.map isDigit).getD false then pointedOf? false [] rest else none
    else (sixtyOf? (splitOn ':' whole) rest).map fun x => if negative then -1.0 * x else x
  | [] => none

/-- Drops between `low` and `high` digits. -/
def dropDigits (low high : Nat) (s : List Char) : Option (List Char) :=
  let n := ((s.take high).takeWhile isDigit).length
  if low ≤ n then some (s.drop n) else none

def dropChar (c : Char) : List Char → Option (List Char)
  | d :: rest => if c = d then some rest else none
  | [] => none

/-- A time zone: none, the letter Z, or an offset. -/
def isZone (s : List Char) : Bool :=
  match s.dropWhile (· == ' ') with
  | [] => s.isEmpty
  | ['Z'] => true
  | c :: rest =>
    (c == '+' || c == '-') && match dropDigits 1 2 rest with
      | some [] => true
      | some left => (dropChar ':' left).bind (dropDigits 2 2) == some []
      | none => false

def isTime (s : List Char) : Bool :=
  let read := do
    let s ← dropDigits 1 2 s
    let s ← dropDigits 2 2 (← dropChar ':' s)
    dropDigits 2 2 (← dropChar ':' s)
  match read with
  | some ('.' :: rest) => isZone (rest.dropWhile isDigit)
  | some rest => isZone rest
  | none => false

/-- A day, or a day and a time. -/
def isDate (s : List Char) : Bool :=
  let read (low : Nat) := do
    let s ← dropDigits 4 4 s
    let s ← dropDigits low 2 (← dropChar '-' s)
    dropDigits low 2 (← dropChar '-' s)
  read 2 == some [] || match read 1 with
    | some (c :: rest) =>
      if c = 'T' ∨ c = 't' then isTime rest
      else c == ' ' && isTime (rest.dropWhile (· == ' '))
    | _ => false

/-- The word that merges mappings, and the sign for a default value: neither is a setting. -/
def isReserved (s : String) : Bool := s == "<<" || s == "="

def ofPlain (s : String) : Setting :=
  let cs := s.toList
  if nullWords.contains s then .null
  else match boolWords.lookup s, specialFloats.lookup s, floatOf? cs, intOf? cs with
    | some b, _, _, _ => .bool b
    | none, some x, _, _ => .float x
    | none, none, some x, _ => .float x
    | none, none, none, some n => .int n
    | none, none, none, none => if isDate cs then .date else .text s

example : intOf? "-0x1f".toList = some (-31) := by decide
example : intOf? "1:30".toList = some 90 := by decide
example : intOf? "08".toList = none := by decide
example : isDate "2024-01-05 3:04:05 +01".toList = true := by decide

end GoToSymbol.Setting
