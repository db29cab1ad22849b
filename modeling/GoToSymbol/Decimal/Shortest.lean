import GoToSymbol.Decimal.Binary

namespace GoToSymbol.Decimal

/-- The decimal `digits * 10 ^ exponent`. -/
structure Scientific where
  digits : Nat
  exponent : Int
deriving Repr, DecidableEq

/-- Moves up to `fuel` trailing zeros of the digits into the exponent. -/
def Scientific.stripZeros : Nat → Scientific → Scientific
  | 0, d => d
  | fuel + 1, d =>
    if d.digits % 10 = 0 then stripZeros fuel ⟨d.digits / 10, d.exponent + 1⟩ else d

/-- Compares `a * 10 ^ i` with `n * 2 ^ j`. -/
def compareScaled (a : Nat) (i : Int) (n : Nat) (j : Int) : Ordering :=
  compare (a * Nat.pow 10 i.toNat * Nat.pow 2 (-j).toNat)
    (n * Nat.pow 2 j.toNat * Nat.pow 10 (-i).toNat)

/-- Whether the decimal lies among the reals that round to the magnitude of `b`, to nearest with
ties to even. -/
def Binary.readsBack (b : Binary) (d : Scientific) : Bool :=
  let low := compareScaled d.digits d.exponent
    (if b.narrowBelow then 4 * b.mantissa - 1 else 4 * b.mantissa - 2) (b.exponent - 2)
  let high := compareScaled d.digits d.exponent (4 * b.mantissa + 2) (b.exponent - 2)
  if b.mantissa % 2 = 0 then low != .lt && high != .gt else low == .gt && high == .lt

/-- The number of decimal digits of `n`, and zero for zero. -/
def digitCount (n : Nat) : Nat := if n = 0 then 0 else (Nat.toDigits 10 n).length

/-- The largest `digits` with `digits * 10 ^ exponent` at most the magnitude of `b`. -/
def Binary.floorAt (b : Binary) (exponent : Int) : Nat :=
  (b.mantissa * Nat.pow 2 b.exponent.toNat * Nat.pow 10 (-exponent).toNat) /
    (Nat.pow 2 (-b.exponent).toNat * Nat.pow 10 exponent.toNat)

/-- The number of digits before the point, negative when zeros follow the point. -/
def Binary.magnitude (b : Binary) : Int :=
  if 0 ≤ b.exponent then digitCount (b.mantissa * Nat.pow 2 b.exponent.toNat)
  else
    let scale := digitCount (Nat.pow 2 (-b.exponent).toNat)
    (digitCount (b.floorAt (-(scale : Int))) : Int) - scale

/-- Of the two neighbours of `b` on the grid of multiples of `10 ^ exponent`, the nearer one that
reads back; a tie goes to the even neighbour. -/
def Binary.onGrid (b : Binary) (exponent : Int) : Option Scientific :=
  let below := b.floorAt exponent
  let low : Scientific := ⟨below, exponent⟩
  let high : Scientific := ⟨below + 1, exponent⟩
  match b.readsBack low, b.readsBack high with
  | true, false => some low
  | false, true => some high
  | false, false => none
  | true, true =>
    match compareScaled (2 * below + 1) exponent (2 * b.mantissa) b.exponent with
    | .gt => some low
    | .lt => some high
    | .eq => some (if below % 2 = 0 then low else high)

/-- The fewest digits that read back as the magnitude of `b`, searched from one digit to
seventeen. -/
def Binary.shortest (b : Binary) : Scientific :=
  let top := b.magnitude
  match (List.range 17).findSome? fun (k : Nat) => b.onGrid (top - 1 - k) with
  | some d => d.stripZeros 17
  | none => ⟨b.floorAt (min b.exponent 0), min b.exponent 0⟩

example : (Binary.ofFloat? 0.1).map Binary.shortest = some ⟨1, -1⟩ := by decide +kernel
example : (Binary.ofFloat? 5e-324).map Binary.shortest = some ⟨5, -324⟩ := by decide +kernel

end GoToSymbol.Decimal
