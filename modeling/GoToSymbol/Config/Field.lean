import GoToSymbol.Config.Setting
import GoToSymbol.Decimal.Reading
import GoToSymbol.Text.Case

namespace GoToSymbol.Config

open Text Decimal

/-- Why a value is refused for a field. -/
inductive Violation where
  | notText
  | notBool
  | unclearBool
  | notNumber
  | unclearNumber
  | notInteger
  | unclearInteger
  | fractional
  | infinite
  | oversized
  | notAbove (bound : Nat)
  | notBelow (bound : Nat)
  | less (bound : Nat)
  | unknownName
  | notSection (name : String)
deriving Repr, DecidableEq

def Violation.message : Violation → String
  | notText => "Input should be a valid string"
  | notBool => "Input should be a valid boolean"
  | unclearBool => "Input should be a valid boolean, unable to interpret input"
  | notNumber => "Input should be a valid number"
  | unclearNumber => "Input should be a valid number, unable to parse string as a number"
  | notInteger => "Input should be a valid integer"
  | unclearInteger => "Input should be a valid integer, unable to parse string as an integer"
  | fractional => "Input should be a valid integer, got a number with a fractional part"
  | infinite => "Input should be a finite number"
  | oversized => "Unable to parse input string as an integer, exceeded maximum size"
  | notAbove bound => "Input should be greater than " ++ toString bound
  | notBelow bound => "Input should be less than " ++ toString bound
  | less bound => "Input should be greater than or equal to " ++ toString bound
  | unknownName => "Extra inputs are not permitted"
  | notSection name => "Input should be a valid dictionary or instance of " ++ name

/-- A refused value and the names that lead to it. -/
structure FieldError where
  location : List String
  violation : Violation
deriving Repr, DecidableEq

def readText : Setting → Except Violation String
  | .text s => .ok s
  | _ => .error .notText

def readOptionalText : Setting → Except Violation (Option String)
  | .null => .ok none
  | v => (readText v).map some

def trueWords : List (List Char) := ["1", "t", "y", "on", "yes", "true"].map String.toList

def falseWords : List (List Char) := ["0", "f", "n", "no", "off", "false"].map String.toList

/-- The ASCII capitals in lower case. -/
def lowerAscii (s : List Char) : List Char :=
  s.map fun c => if isAsciiCapital c then Char.ofNat (c.toNat + 32) else c

/-- Truth values: also zero and one, and their words in any case. -/
def readBool : Setting → Except Violation Bool
  | .bool b => .ok b
  | .int n => if n = 0 then .ok false else if n = 1 then .ok true else .error .unclearBool
  | .float x => if x == 0.0 then .ok false else if x == 1.0 then .ok true else .error .unclearBool
  | .text s =>
    let word := lowerAscii s.toList
    if trueWords.contains word then .ok true
    else if falseWords.contains word then .ok false
    else .error .unclearBool
  | _ => .error .notBool

/-- The blanks that may stand around a number. -/
def isPadding (c : Char) : Bool :=
  let n := c.toNat
  (0x09 ≤ n && n ≤ 0x0D) || n == 0x20 || n == 0x85 || n == 0xA0 || n == 0x1680
    || (0x2000 ≤ n && n ≤ 0x200A) || n == 0x2028 || n == 0x2029 || n == 0x202F || n == 0x205F
    || n == 0x3000

def trim (s : List Char) : List Char :=
  ((s.dropWhile isPadding).reverse.dropWhile isPadding).reverse

/-- Digits with or without a point and an exponent, or a word for infinity or no number. -/
def magnitude? (negative : Bool) (s : List Char) : Option Float :=
  let word := String.ofList (lowerAscii s)
  if word = "inf" ∨ word = "infinity" then some (if negative then -1.0 / 0.0 else 1.0 / 0.0)
  else if word = "nan" then some (0.0 / 0.0)
  else
    let whole := s.takeWhile isDigit
    let afterWhole := s.dropWhile isDigit
    let pointed : Option (List Char) × List Char := match afterWhole with
      | '.' :: rest => (some (rest.takeWhile isDigit), rest.dropWhile isDigit)
      | rest => (none, rest)
    if whole.isEmpty && (pointed.1.getD []).isEmpty then none
    else match pointed.2, readExponent pointed.2 with
      | [], _ => some (Parts.toFloat ⟨negative, whole, pointed.1, none⟩)
      | _, some (e, []) => some (Parts.toFloat ⟨negative, whole, pointed.1, some e⟩)
      | _, _ => none

def numberOfText? (s : List Char) : Option Float :=
  let (negative, rest) := splitSign s
  magnitude? negative rest

/-- Numbers: also truth values and texts, in which digits may be set apart by underscores. -/
def readNumber : Setting → Except Violation Float
  | .float x => .ok x
  | .int n =>
    let x := floatOfInt n
    if x.isInf then .error .notNumber else .ok x
  | .bool b => .ok (if b then 1.0 else 0.0)
  | .text s =>
    match numberOfText? (trim s.toList) with
    | some x => .ok x
    | none =>
      match (withoutSpacing s.toList).bind fun t => numberOfText? (trim t) with
      | some x => .ok x
      | none => .error .unclearNumber
  | _ => .error .notNumber

/-- Digits without a fraction of zeros. -/
def dropZeroFraction (s : List Char) : List Char :=
  match s.dropWhile (· != '.') with
  | _ :: rest => if rest.all (· == '0') then s.takeWhile (· != '.') else s
  | [] => s

def integerOfText? (s : List Char) : Option Int :=
  let (negative, rest) := splitSign (dropZeroFraction s)
  match withoutSpacing rest with
  | some (d :: ds) =>
    if (d :: ds).all isDigit then
      let n := natOfText (d :: ds)
      some (if negative then -(n : Int) else n)
    else none
  | _ => none

/-- The number of characters up to which a text is read as an integer. -/
def integerTextLimit : Nat := 4300

/-- Integers: also truth values, floats without a fraction, and texts. -/
def readInteger : Setting → Except Violation Int
  | .int n => .ok n
  | .bool b => .ok (if b then 1 else 0)
  | .float x =>
    match Binary.ofFloat? x with
    | none => .error .infinite
    | some b =>
      match b.toInt? with
      | none => .error .fractional
      | some n => if n.natAbs < Nat.pow 2 63 then .ok n else .error .oversized
  | .text s =>
    let cs := trim s.toList
    if integerTextLimit < cs.length then .error .oversized
    else match integerOfText? cs with
      | some n => .ok n
      | none => .error .unclearInteger
  | _ => .error .notInteger

/-- Between zero and one, neither included; the upper bound is looked at first. -/
def readFraction (v : Setting) : Except Violation Float := do
  let x ← readNumber v
  if !(x < 1.0) then .error (.notBelow 1)
  else if !(0.0 < x) then .error (.notAbove 0)
  else .ok x

def readNonNegative (v : Setting) : Except Violation Float := do
  let x ← readNumber v
  if !(0.0 ≤ x) then .error (.less 0) else .ok x

/-- At least one. -/
def readPositive (v : Setting) : Except Violation Int := do
  let n ← readInteger v
  if n ≤ 0 then .error (.notAbove 0) else .ok n

def readAtLeastOne (v : Setting) : Except Violation Int := do
  let n ← readInteger v
  if n < 1 then .error (.less 1) else .ok n

example : integerOfText? "1_0.0".toList = some 10 := by decide
example : integerOfText? "-_1".toList = none := by decide

end GoToSymbol.Config
