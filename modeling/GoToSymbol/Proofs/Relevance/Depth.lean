import GoToSymbol.Relevance
import Mathlib.Algebra.Order.Field.Rat
import Mathlib.Order.Monotone.Basic
import Mathlib.Tactic.Linarith
import Mathlib.Tactic.Positivity
import Mathlib.Tactic.Ring

namespace GoToSymbol.Relevance

/-- The penalty of a name in exact fractions. -/
def exactPenalty (step : Rat) (name : List Char) : Except StepError Rat :=
  exact.penalty step (nestedDepth name)

section Depth

/-- What counts are the dollar signs before the last character. -/
theorem nestedDepth_eq_count (name : List Char) : nestedDepth name = name.dropLast.count '$' := by
  rcases List.eq_nil_or_concat name with rfl | ⟨front, c, rfl⟩
  · rfl
  · rw [List.concat_eq_append, nestedDepth, List.getLast?_concat, List.dropLast_concat,
      List.count_append]
    by_cases hc : c = '$'
    · simp [hc]
    · simp [hc]

theorem nestedDepth_append_dollar {name : List Char} (h : name.getLast? ≠ some '$') :
    nestedDepth (name ++ ['$']) = nestedDepth name := by
  rw [nestedDepth_eq_count, List.dropLast_concat, nestedDepth, if_neg h, Nat.sub_zero]

theorem nestedDepth_eq_zero_iff (name : List Char) : nestedDepth name = 0 ↔ '$' ∉ name.dropLast := by
  rw [nestedDepth_eq_count, List.count_eq_zero]

end Depth

/-- The last level at which the steps taken off leave something. -/
structure IsLastLevel (step : Rat) (last : Nat) : Prop where
  leaves : 0 < 1 - step * last
  nothingBeyond : 1 - step * (last + 1 : Nat) ≤ 0

/-- The levels before the reciprocal of the step all leave something, so that no search is needed. -/
theorem lastLinear_exact {step : Rat} (hpos : 0 < step) :
    ∃ last : Nat, exact.lastLinear step = .ok (last : Int) ∧ IsLastLevel step last := by
  obtain ⟨last, hlast⟩ : ∃ last : Nat, (1 / step).ceil = (last : Int) + 1 := by
    have hone : (0 : Int) < (1 / step).ceil := Rat.lt_ceil_iff.mpr (by positivity)
    exact ⟨((1 / step).ceil - 1).toNat, by omega⟩
  have hbelow : (last : Rat) < 1 / step := by
    have hceil : (last : Int) < (1 / step).ceil := by omega
    exact_mod_cast Rat.lt_ceil_iff.mp hceil
  have habove : 1 / step ≤ (last + 1 : Nat) := by
    have hceil : (1 / step).ceil ≤ ((last + 1 : Nat) : Int) := by omega
    exact_mod_cast Rat.ceil_le_iff.mp hceil
  have hlevel : IsLastLevel step last := by
    constructor
    · have hless : step * last < 1 := by rw [mul_comm]; exact (lt_div_iff₀ hpos).mp hbelow
      linarith
    · have hmore : 1 ≤ step * (last + 1 : Nat) := by rw [mul_comm]; exact (div_le_iff₀ hpos).mp habove
      linarith
  have hsearch : exact.lastPositive step last = last := by
    cases last with
    | zero => rfl
    | succ n =>
      have hleft : exact.isPositive (exact.linear step ((n + 1 : Nat) : Int)) = true := by
        simpa [exact, Arithmetic.linear] using hlevel.leaves
      rw [Arithmetic.lastPositive, if_pos hleft]
  refine ⟨last, ?_, hlevel⟩
  have hceil : exact.ceilInverse step = .ok ((last : Int) + 1) := by
    rw [← hlast]
    exact if_neg (ne_of_gt hpos)
  simp only [Arithmetic.lastLinear, hceil, Bind.bind, Except.bind, Pure.pure, Except.pure,
    add_sub_cancel_right, Int.toNat_natCast, hsearch]
  split
  · rfl
  · rfl

/-- What is left at a depth: a step less per level up to the last one, half as much per level
beyond it. -/
def leftAt (step : Rat) (last depth : Nat) : Rat :=
  if depth ≤ last then 1 - step * depth else (1 - step * last) * (1 / 2) ^ (depth - last)

theorem penalty_exact {step : Rat} {last : Nat} (h : exact.lastLinear step = .ok (last : Int))
    (depth : Nat) : exact.penalty step depth = .ok (leftAt step last depth) := by
  have hlevels : ((depth : Int) - last).toNat = depth - last := by omega
  simp only [Arithmetic.penalty, h, Bind.bind, Except.bind, Pure.pure, Except.pure, hlevels, leftAt,
    Nat.cast_le]
  split
  · simp [exact, Arithmetic.linear]
  · simp [exact, Arithmetic.linear]

section Left

variable {step : Rat} {last : Nat}

theorem leftAt_zero : leftAt step last 0 = 1 := by simp [leftAt]

theorem leftAt_pos (hpos : 0 < step) (hlast : IsLastLevel step last) (depth : Nat) :
    0 < leftAt step last depth := by
  have hleaves := hlast.leaves
  unfold leftAt
  split
  · next hle =>
    have hcost : step * depth ≤ step * last :=
      mul_le_mul_of_nonneg_left (by exact_mod_cast hle) hpos.le
    linarith
  · positivity

/-- One level deeper is one step less, or half as much; the first halving, too, takes something
away. -/
theorem leftAt_succ_lt (hpos : 0 < step) (hlast : IsLastLevel step last) (depth : Nat) :
    leftAt step last (depth + 1) < leftAt step last depth := by
  by_cases hnext : depth + 1 ≤ last
  · have hhere : depth ≤ last := by omega
    rw [leftAt, leftAt, if_pos hnext, if_pos hhere]
    push_cast
    linarith
  · have hhalf : leftAt step last (depth + 1) = leftAt step last depth / 2 := by
      rw [leftAt, leftAt, if_neg hnext]
      split
      · next hhere =>
        obtain rfl : depth = last := by omega
        rw [Nat.add_sub_cancel_left]
        ring
      · next hbeyond =>
        have hlevels : depth + 1 - last = depth - last + 1 := by omega
        rw [hlevels, pow_succ]
        ring
    have hleft := leftAt_pos hpos hlast depth
    rw [hhalf]
    linarith

theorem leftAt_strictAnti (hpos : 0 < step) (hlast : IsLastLevel step last) :
    StrictAnti (leftAt step last) :=
  strictAnti_nat_of_succ_lt (leftAt_succ_lt hpos hlast)

/-- The linear rule holds just where it leaves something. -/
theorem leftAt_eq_linear_iff (hpos : 0 < step) (hlast : IsLastLevel step last) (depth : Nat) :
    leftAt step last depth = 1 - step * depth ↔ 0 < 1 - step * depth := by
  constructor
  · intro h
    rw [← h]
    exact leftAt_pos hpos hlast depth
  · intro h
    by_cases hle : depth ≤ last
    · exact if_pos hle
    · have hcost : step * (last + 1 : Nat) ≤ step * depth :=
        mul_le_mul_of_nonneg_left (by exact_mod_cast Nat.lt_of_not_le hle) hpos.le
      have hnothing := hlast.nothingBeyond
      linarith

end Left

/-- Whatever the step is, each name keeps a part of the whole. It keeps what the
linear rule leaves, just where that leaves something; it keeps all if a dollar sign stands at most
at its end; and it keeps less than any name with fewer dollar signs before the end. -/
theorem exactPenalty_decreases {step : Rat} (hpos : 0 < step) (f g : List Char) :
    ∃ p q, exactPenalty step f = .ok p ∧ exactPenalty step g = .ok q ∧
      (0 < p ∧ p ≤ 1) ∧
      (p = 1 - step * nestedDepth f ↔ 0 < 1 - step * nestedDepth f) ∧
      (p = 1 ↔ '$' ∉ f.dropLast) ∧
      (g.dropLast.count '$' < f.dropLast.count '$' → p < q) ∧
      (f.dropLast.count '$' = g.dropLast.count '$' → p = q) ∧
      (f.getLast? ≠ some '$' → exactPenalty step (f ++ ['$']) = .ok p) := by
  obtain ⟨last, hlinear, hlast⟩ := lastLinear_exact hpos
  have hanti := leftAt_strictAnti hpos hlast
  have hwhole : leftAt step last (nestedDepth f) = 1 ↔ '$' ∉ f.dropLast := by
    rw [← nestedDepth_eq_zero_iff, ← hanti.injective.eq_iff, leftAt_zero]
  refine ⟨leftAt step last (nestedDepth f), leftAt step last (nestedDepth g),
    penalty_exact hlinear _, penalty_exact hlinear _, ⟨leftAt_pos hpos hlast _, ?_⟩,
    leftAt_eq_linear_iff hpos hlast _, hwhole, ?_, ?_, ?_⟩
  · have hbelow := hanti.antitone (Nat.zero_le (nestedDepth f))
    rwa [leftAt_zero] at hbelow
  · intro hmore
    rw [← nestedDepth_eq_count, ← nestedDepth_eq_count] at hmore
    exact hanti hmore
  · intro hsame
    rw [nestedDepth_eq_count, nestedDepth_eq_count, hsame]
  · intro hend
    rw [exactPenalty, nestedDepth_append_dollar hend]
    exact penalty_exact hlinear _

/-- With a step of a third the linear rule would leave nothing at the third level; the third level
halves what the second one left. -/
theorem exactPenalty_decreases_third : ∃ p q,
    exactPenalty (1 / 3) "a.B$c$d$e$".toList = .ok p ∧
      exactPenalty (1 / 3) "a.B$c$d".toList = .ok q ∧ 0 < p ∧ p < q := by
  obtain ⟨p, q, hp, hq, ⟨hpos, _⟩, _, _, hless, _⟩ :=
    exactPenalty_decreases (by decide +kernel : (0 : Rat) < 1 / 3) "a.B$c$d$e$".toList
      "a.B$c$d".toList
  exact ⟨p, q, hp, hq, hpos, hless (by decide)⟩

end GoToSymbol.Relevance
