import GoToSymbol.Decimal.Shortest

namespace GoToSymbol.Decimal

def isDigit (c : Char) : Bool := '0' ≤ c && c ≤ '9'

def digitValue (c : Char) : Nat := c.toNat - '0'.toNat

def natOfDigits (base : Nat) (ds : List Nat) : Nat := ds.foldl (fun n d => n * base + d) 0

def natOfText (cs : List Char) : Nat := natOfDigits 10 (cs.map digitValue)

/-- The binary64 value nearest to a decimal, infinite or zero where it leaves the range. -/
def Scientific.toFloat (d : Scientific) : Float :=
  let size := (digitCount d.digits : Int) + d.exponent
  if d.digits = 0 ∨ size < -400 then 0.0
  else if 400 < size then 1.0 / 0.0
  else Float.ofScientific d.digits (d.exponent < 0) d.exponent.natAbs

/-- A decimal number split into its parts: sign, whole digits, digits after a point and exponent. -/
structure Parts where
  negative : Bool
  whole : List Char
  fraction : Option (List Char)
  exponent : Option Int
deriving Repr, DecidableEq

namespace Parts

def isInteger (p : Parts) : Bool := p.fraction.isNone && p.exponent.isNone

def toInt (p : Parts) : Int :=
  if p.negative then -(natOfText p.whole : Int) else natOfText p.whole

def toFloat (p : Parts) : Float :=
  let fraction := p.fraction.getD []
  let magnitude := Scientific.toFloat
    ⟨natOfText (p.whole ++ fraction), p.exponent.getD 0 - fraction.length⟩
  if p.negative then -magnitude else magnitude

end Parts

/-- Whether a minus sign comes first, and what follows the sign. -/
def splitSign : List Char → Bool × List Char
  | '-' :: rest => (true, rest)
  | '+' :: rest => (false, rest)
  | s => (false, s)

/-- Whether no underscore ends a text or stands before another one. -/
def isSpacedFrom : List Char → Bool
  | [] => true
  | ['_'] => false
  | '_' :: '_' :: _ => false
  | _ :: rest => isSpacedFrom rest

/-- Whether every underscore stands between two other characters. -/
def isSpacedOut (s : List Char) : Bool := s.head? != some '_' && isSpacedFrom s

/-- The text without its underscores, which must stand between other characters. -/
def withoutSpacing (s : List Char) : Option (List Char) :=
  if isSpacedOut s then some (s.filter (· != '_')) else none

/-- Reads an exponent mark, an optional sign and at least one digit. -/
def readExponent : List Char → Option (Int × List Char)
  | c :: rest =>
    if c = 'e' ∨ c = 'E' then
      let signed := splitSign rest
      let ds := signed.2.takeWhile isDigit
      if ds.isEmpty then none
      else
        let n : Int := natOfText ds
        some (if signed.1 then -n else n, signed.2.dropWhile isDigit)
    else none
  | [] => none

end GoToSymbol.Decimal
