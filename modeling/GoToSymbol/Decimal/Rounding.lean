import GoToSymbol.Decimal.Reading

namespace GoToSymbol.Decimal

/-- The integer nearest to `num / den`, the even one on a tie. -/
def roundHalfEven (num den : Nat) : Nat :=
  let q := num / den
  match compare (2 * (num % den)) den with
  | .lt => q
  | .gt => q + 1
  | .eq => if q % 2 = 0 then q else q + 1

/-- Rounds the exact value of a float to a number of decimal places, ties to even, and gives the
float nearest to the result. -/
def roundPlaces (places : Nat) (x : Float) : Float :=
  match Binary.ofFloat? x with
  | none => x
  | some b =>
    let units := roundHalfEven (b.mantissa * Nat.pow 2 b.exponent.toNat * Nat.pow 10 places)
      (Nat.pow 2 (-b.exponent).toNat)
    let magnitude := Scientific.toFloat ⟨units, -(places : Int)⟩
    if b.negative then -magnitude else magnitude

example : roundHalfEven 5 2 = 2 := by decide
example : roundHalfEven 7 2 = 4 := by decide

end GoToSymbol.Decimal
