namespace GoToSymbol.Decimal

/-- A finite binary64 value: `mantissa * 2 ^ exponent`, negated if `negative`. -/
structure Binary where
  negative : Bool
  mantissa : Nat
  exponent : Int
  /-- The gap to the next smaller magnitude is half the gap to the next larger one. -/
  narrowBelow : Bool
deriving Repr, DecidableEq

namespace Binary

/-- Reads the bits of a finite value; an infinity or a NaN has none of this form. -/
def ofBits? (b : UInt64) : Option Binary :=
  let negative : Bool := Nat.pow 2 63 ≤ b.toNat
  let e : Nat := b.toNat / Nat.pow 2 52 % Nat.pow 2 11
  let f : Nat := b.toNat % Nat.pow 2 52
  if e = 2047 then none
  else if e = 0 then some ⟨negative, f, -1074, false⟩
  else some ⟨negative, Nat.pow 2 52 + f, (e : Int) - 1075, f == 0 && 1 < e⟩

def ofFloat? (x : Float) : Option Binary := ofBits? x.toBits

def signed (b : Binary) : Int := if b.negative then -(b.mantissa : Int) else b.mantissa

/-- The least integer that is not below the value. -/
def ceil (b : Binary) : Int :=
  if 0 ≤ b.exponent then b.signed * Int.pow 2 b.exponent.toNat
  else -((-b.signed).fdiv (Int.pow 2 (-b.exponent).toNat))

/-- The value as an integer, if it is one. -/
def toInt? (b : Binary) : Option Int :=
  if 0 ≤ b.exponent then some (b.signed * Int.pow 2 b.exponent.toNat)
  else if b.signed.fmod (Int.pow 2 (-b.exponent).toNat) = 0 then some b.ceil else none

/-- The value as a fraction in lowest terms. -/
def toRat (b : Binary) : Rat :=
  if 0 ≤ b.exponent then ((b.signed * Int.pow 2 b.exponent.toNat : Int) : Rat)
  else mkRat b.signed (Nat.pow 2 (-b.exponent).toNat)

example : (ofFloat? 0.75).map ceil = some 1 := by decide +kernel
example : (ofFloat? (-0.75)).map ceil = some 0 := by decide +kernel
example : (ofFloat? 3.0).bind toInt? = some 3 := by decide +kernel

end Binary

/-- The binary64 value nearest to an integer. -/
def floatOfInt (n : Int) : Float :=
  let magnitude := Float.ofScientific n.natAbs false 0
  if n < 0 then -magnitude else magnitude

end GoToSymbol.Decimal
