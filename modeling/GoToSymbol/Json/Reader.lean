import GoToSymbol.Value.Basic
import GoToSymbol.Decimal.Reading
import GoToSymbol.Text.Percent

namespace GoToSymbol.Json

open Text Decimal

/-- Why a text is not read. -/
inductive ReadError where
  | invalid
  /-- An integer has more digits than are read. -/
  | longInteger (digits : Nat)
  /-- More lists and objects are open than are gone into. -/
  | tooDeep
deriving Repr, DecidableEq

/-- The digits that an integer can have. -/
def maxDigits : Nat := 4300

/-- The levels of lists and objects that a reader can go into before its stack may be used up. -/
def maxLevels : Nat := 900

def ReadError.message : ReadError → String
  | invalid => "invalid JSON"
  | longInteger digits => "Exceeds the limit (" ++ toString maxDigits ++
      " digits) for integer string conversion: value has " ++ toString digits ++
      " digits; use sys.set_int_max_str_digits() to increase the limit"
  | tooDeep => "maximum recursion depth exceeded"

def orInvalid {α : Type} : Option α → Except ReadError α
  | some a => .ok a
  | none => .error .invalid

def isSpace (c : Char) : Bool := c == ' ' || c == '\t' || c == '\n' || c == '\r'

def skipSpace (s : List Char) : List Char := s.dropWhile isSpace

/-- The rest of the text after a word that it must begin with. -/
def afterWord : List Char → List Char → Option (List Char)
  | [], s => some s
  | w :: ws, c :: s => if w = c then afterWord ws s else none
  | _ :: _, [] => none

def fourHex : List Char → Option (Nat × List Char)
  | a :: b :: c :: d :: rest => do
    let ds ← [a, b, c, d].mapM hexValue?
    some (natOfDigits 16 ds, rest)
  | _ => none

/-- A code unit, joined with the low surrogate that follows a high one. -/
def codePoint (unit : Nat) (rest : List Char) : Nat × List Char :=
  if 0xD800 ≤ unit ∧ unit ≤ 0xDBFF then
    match rest with
    | '\\' :: 'u' :: r =>
      match fourHex r with
      | some (low, r') =>
        if 0xDC00 ≤ low ∧ low ≤ 0xDFFF then
          (0x10000 + (unit - 0xD800) * 0x400 + (low - 0xDC00), r')
        else (unit, rest)
      | none => (unit, rest)
    | _ => (unit, rest)
  else (unit, rest)

/-- Whether every surrogate that is escaped stands beside its partner; `high` says that the first of
two comes before. Else the text in a string is none that characters can make up. -/
def isPaired (high : Bool) : List Char → Bool
  | '\\' :: 'u' :: a :: b :: c :: d :: rest =>
    match (fourHex [a, b, c, d]).map (·.1) with
    | some unit =>
      if 0xD800 ≤ unit ∧ unit ≤ 0xDBFF then !high && isPaired true rest
      else (0xDC00 ≤ unit && unit ≤ 0xDFFF) == high && isPaired false rest
    | none => !high && isPaired false rest
  | '\\' :: _ :: rest => !high && isPaired false rest
  | _ :: rest => !high && isPaired false rest
  | [] => !high

/-- A surrogate without its partner is read as the replacement character. -/
def charOfCode (n : Nat) : Char :=
  if 0xD800 ≤ n ∧ n ≤ 0xDFFF then '\uFFFD' else Char.ofNat n

def simpleEscape? : Char → Option Char
  | '\x22' => some '\x22'
  | '\\' => some '\\'
  | '/' => some '/'
  | 'b' => some '\x08'
  | 'f' => some '\x0c'
  | 'n' => some '\n'
  | 'r' => some '\r'
  | 't' => some '\t'
  | _ => none

/-- Reads a string up to its closing quote; control characters must be escaped. -/
def readString : Nat → List Char → List Char → Option (List Char × List Char)
  | 0, _, _ => none
  | fuel + 1, done, s =>
    match s with
    | [] => none
    | '\x22' :: rest => some (done.reverse, rest)
    | '\\' :: 'u' :: rest => do
      let (unit, r) ← fourHex rest
      let (n, r') := codePoint unit r
      readString fuel (charOfCode n :: done) r'
    | '\\' :: c :: rest => do
      let e ← simpleEscape? c
      readString fuel (e :: done) rest
    | c :: rest => if c.toNat < 0x20 ∨ c = '\\' then none else readString fuel (c :: done) rest

def readText (s : List Char) : Option (String × List Char) :=
  (readString (s.length + 1) [] s).map fun (cs, rest) => (String.ofList cs, rest)

/-- Reads a number: no leading zeros, and digits on both sides of a point. -/
def readNumber (s : List Char) : Except ReadError (Value × List Char) :=
  let signed : Bool × List Char := match s with
    | '-' :: r => (true, r)
    | r => (false, r)
  let whole : List Char := match signed.2 with
    | '0' :: _ => ['0']
    | r => r.takeWhile isDigit
  if whole.isEmpty then .error .invalid
  else
    let afterWhole := signed.2.drop whole.length
    let pointed : Option (List Char) × List Char := match afterWhole with
      | '.' :: r => if (r.takeWhile isDigit).isEmpty then (none, afterWhole)
        else (some (r.takeWhile isDigit), r.dropWhile isDigit)
      | r => (none, r)
    let scaled : Option Int × List Char := match readExponent pointed.2 with
      | some (e, r) => (some e, r)
      | none => (none, pointed.2)
    let parts : Parts := ⟨signed.1, whole, pointed.1, scaled.1⟩
    if !parts.isInteger then .ok (.float parts.toFloat, scaled.2)
    else if whole.length > maxDigits then .error (.longInteger whole.length)
    else .ok (.int parts.toInt, scaled.2)

def words : List (List Char × Value) := [
  ("null".toList, .null), ("true".toList, .bool true), ("false".toList, .bool false),
  ("NaN".toList, .float (0.0 / 0.0)), ("Infinity".toList, .float (1.0 / 0.0)),
  ("-Infinity".toList, .float (-1.0 / 0.0))]

def readWord (s : List Char) : Option (Value × List Char) :=
  words.findSome? fun w => (afterWord w.1 s).map fun rest => (w.2, rest)

mutual
/-- Reads one value and gives the rest of the text. Lists and objects are gone into so many levels
deep, if there is a limit; `fuel` bounds the nesting and the length. -/
def readValue (levels : Option Nat) : Nat → List Char → Except ReadError (Value × List Char)
  | 0, _ => .error .invalid
  | fuel + 1, s =>
    match s with
    | '\x22' :: rest => (orInvalid (readText rest)).map fun (t, r) => (.text t, r)
    | '[' :: rest =>
      if levels = some 0 then .error .tooDeep
      else match skipSpace rest with
        | ']' :: r => .ok (.list [], r)
        | r => (readItems (levels.map (· - 1)) fuel [] r).map fun (items, r') => (.list items, r')
    | '\x7b' :: rest =>
      if levels = some 0 then .error .tooDeep
      else match skipSpace rest with
        | '\x7d' :: r => .ok (.object [], r)
        | r => (readMembers (levels.map (· - 1)) fuel [] r).map fun (members, r') =>
            (.object (Value.ofPairs members), r')
    | _ =>
      match readWord s with
      | some found => .ok found
      | none => readNumber s

def readItems (levels : Option Nat) : Nat → List Value → List Char →
    Except ReadError (List Value × List Char)
  | 0, _, _ => .error .invalid
  | fuel + 1, done, s => do
    let (v, rest) ← readValue levels fuel s
    match skipSpace rest with
    | ',' :: r => readItems levels fuel (v :: done) (skipSpace r)
    | ']' :: r => .ok ((v :: done).reverse, r)
    | _ => .error .invalid

def readMembers (levels : Option Nat) : Nat → List (String × Value) → List Char →
    Except ReadError (List (String × Value) × List Char)
  | 0, _, _ => .error .invalid
  | fuel + 1, done, s =>
    match s with
    | '\x22' :: r => do
      let (key, rest) ← orInvalid (readText r)
      match skipSpace rest with
      | ':' :: r => do
        let (v, rest) ← readValue levels fuel (skipSpace r)
        match skipSpace rest with
        | ',' :: r => readMembers levels fuel ((key, v) :: done) (skipSpace r)
        | '\x7d' :: r => .ok (((key, v) :: done).reverse, r)
        | _ => .error .invalid
      | _ => .error .invalid
    | _ => .error .invalid
end

/-- Reads a text that holds one value and nothing else but blanks, so many levels deep. -/
def read (levels : Option Nat) (s : List Char) : Except ReadError Value := do
  let (v, rest) ← readValue levels (2 * s.length + 2) (skipSpace s)
  if (skipSpace rest).isEmpty then .ok v else .error .invalid

/-- Reads a text as deep as it goes. -/
def read? (s : List Char) : Option Value := (read none s).toOption

end GoToSymbol.Json
