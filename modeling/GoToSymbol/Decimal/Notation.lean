import GoToSymbol.Decimal.Shortest

namespace GoToSymbol.Decimal

def zeros (n : Nat) : String := String.ofList (List.replicate n '0')

/-- The exponent with its sign and at least two digits. -/
def exponentText (e : Int) : String :=
  (if e < 0 then "e-" else "e+") ++ (if e.natAbs < 10 then "0" else "") ++ toString e.natAbs

/-- Positional from `10 ^ -4` and below `10 ^ 16`, with a point in either case; otherwise one digit
before the point and an exponent. -/
def Scientific.text (d : Scientific) : String :=
  let ds := Nat.toDigits 10 d.digits
  let point := (ds.length : Int) + d.exponent
  if -4 < point ∧ point ≤ 16 then
    if point ≤ 0 then "0." ++ zeros (-point).toNat ++ String.ofList ds
    else if ds.length ≤ point.toNat then
      String.ofList ds ++ zeros (point.toNat - ds.length) ++ ".0"
    else String.ofList (ds.take point.toNat) ++ "." ++ String.ofList (ds.drop point.toNat)
  else
    String.ofList (ds.take 1) ++ (if ds.length = 1 then "" else "." ++ String.ofList (ds.drop 1))
      ++ exponentText (point - 1)

/-- The fewest digits that identify a number, laid out by `Scientific.text`. -/
def floatText (x : Float) : String :=
  match Binary.ofFloat? x with
  | some b =>
    (if b.negative then "-" else "") ++ (if b.mantissa = 0 then "0.0" else b.shortest.text)
  | none => if x.isNaN then "nan" else if x < 0 then "-inf" else "inf"

example : floatText 100.0 = "100.0" := by decide +kernel
example : floatText 1e16 = "1e+16" := by decide +kernel
example : floatText 1e-7 = "1e-07" := by decide +kernel
example : floatText 0.0001 = "0.0001" := by decide +kernel
example : floatText (-0.0) = "-0.0" := by decide +kernel
example : floatText 123456.789 = "123456.789" := by decide +kernel

end GoToSymbol.Decimal
