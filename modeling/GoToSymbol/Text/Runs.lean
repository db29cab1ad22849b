namespace GoToSymbol.Text

/-- The code points `first`, `first + step` and so on up to `last`. -/
structure Run where
  first : Nat
  last : Nat
  step : Nat
deriving Repr, DecidableEq

def Run.has (r : Run) (n : Nat) : Bool :=
  r.first ≤ n && n ≤ r.last && (n - r.first) % r.step == 0

/-- Looks `n` up in runs listed in ascending order; the search stops at the first run above `n`. -/
def inRuns : List Run → Nat → Bool
  | [], _ => false
  | r :: rs, n => if n < r.first then false else r.has n || inRuns rs n

theorem toNat_ofNat {n : Nat} (h : n.isValidChar) : (Char.ofNat n).toNat = n := by
  rw [Char.ofNat, dif_pos h]
  rfl

end GoToSymbol.Text
