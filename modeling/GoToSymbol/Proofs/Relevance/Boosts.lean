import GoToSymbol.Proofs.Decimal.Machine
import GoToSymbol.Relevance

namespace GoToSymbol.Relevance

open Decimal
open Float.Model (Format UnpackedFloat)
open Float.Model.UnpackedFloat

section Halving

theorem half_mul_zpow (e : ℤ) : 1 / 2 * (2 : ℚ) ^ e = 2 ^ (e - 1) := by
  rw [zpow_sub_one₀ (by norm_num), mul_comm, one_div]

theorem stands_halfPower {n : ℕ} (h : n ≤ 1074) : Stands (halfPowerFloat n) (2 ^ (-n : ℤ)) := by
  induction n with
  | zero =>
    have hone : (2 : ℚ) ^ (-(0 : ℕ) : ℤ) = 1 := zpow_zero 2
    rw [hone]
    exact stands_one
  | succ n ih =>
    have hexponent : (-n : ℤ) - 1 = -(n + 1 : ℕ) := by omega
    have hexact := rounded_exact (n := 1) (e := -(n + 1 : ℕ)) (by norm_num) (by omega)
    have hproduct := stands_mul stands_half (ih (by omega))
    rw [Nat.cast_one, one_mul] at hexact
    rw [half_mul_zpow, hexponent, hexact] at hproduct
    exact hproduct (zpow_lt_zpow_right₀ (by norm_num) (by omega))

/-- The half of the least number is nearer to nothing. -/
theorem stands_halfPower_gone {n : ℕ} (h : 1074 < n) : Stands (halfPowerFloat n) 0 := by
  induction n, h using Nat.le_induction with
  | base =>
    have hnothing : rounded (2 ^ (-1075 : ℤ)) = 0 := (rounded_eq_zero_iff (two_zpow_pos _).le).mpr le_rfl
    have hproduct := stands_mul stands_half (stands_halfPower le_rfl)
    have hexponent : (-(1074 : ℕ) : ℤ) - 1 = -1075 := by norm_num
    rw [half_mul_zpow, hexponent, hnothing] at hproduct
    exact hproduct (two_zpow_pos _)
  | succ n _ ih =>
    have hproduct := stands_mul stands_half ih
    rw [mul_zero, rounded_zero] at hproduct
    exact hproduct (two_zpow_pos _)

/-- After `k` halvings nothing is left just of what `2 ^ (k - 1075)` reaches. -/
theorem stands_mul_halfPower {x : Float} {q : ℚ} (hx : Stands x q) (hq : q ≤ 1) (k : ℕ) :
    ∃ v, Stands (binary64.mul x (binary64.halfPower k)) v ∧
      (v = 0 ↔ q ≤ 2 ^ ((k : ℤ) - 1075)) := by
  by_cases hk : k ≤ 1074
  · have hpower : binary64.halfPower k = halfPowerFloat k :=
      congrArg halfPowerFloat (min_eq_left (by omega))
    have hle : q * 2 ^ (-k : ℤ) ≤ 1 :=
      mul_le_one₀ hq (two_zpow_pos _).le (zpow_le_one_of_nonpos₀ (by norm_num) (by omega))
    have hleft : 0 ≤ q * 2 ^ (-k : ℤ) := mul_nonneg hx.nonneg (two_zpow_pos _).le
    rw [hpower]
    refine ⟨_, stands_mul hx (stands_halfPower hk) ?_, ?_⟩
    · calc rounded (q * 2 ^ (-k : ℤ)) ≤ 1 := rounded_le_one hleft hle
        _ < 2 ^ (1024 : ℤ) := one_lt_zpow₀ (by norm_num) (by norm_num)
    · have hlimit : (2 : ℚ) ^ (-1075 : ℤ) = 2 ^ ((k : ℤ) - 1075) * 2 ^ (-k : ℤ) := by
        rw [← zpow_add₀ (by norm_num)]
        congr 1
        ring
      rw [rounded_eq_zero_iff hleft, hlimit, mul_le_mul_iff_of_pos_right (two_zpow_pos _)]
  · have hpower : binary64.halfPower k = halfPowerFloat (min k 1100) := rfl
    have hproduct := stands_mul hx (stands_halfPower_gone (n := min k 1100) (by omega))
    rw [mul_zero, rounded_zero] at hproduct
    rw [hpower]
    refine ⟨0, hproduct (two_zpow_pos _), iff_of_true rfl (hq.trans ?_)⟩
    exact one_le_zpow₀ (by norm_num) (by omega)

end Halving

section Linear

variable {step : Float} {depth : ℕ}

theorem isPositive_eq_true (x : Float) : binary64.isPositive x = true ↔ ¬ x ≤ 0.0 := by
  simp [binary64]

theorem stands_ofInt_one : Stands (binary64.ofInt 1) 1 := by
  obtain ⟨z, hz, hdenotes⟩ := floatOfInt_natCast 1
  rw [Nat.cast_one, rounded_one] at hdenotes
  have hone : binary64.ofInt 1 = ⟨Float.Model.pack z⟩ := hz
  rw [hone]
  exact stands_pack hdenotes (one_lt_zpow₀ (by norm_num) (by norm_num))

/-- The steps taken off do not reach one, so that something is left. -/
def StepsLeave (q : ℚ) (depth : ℕ) : Prop :=
  rounded depth < 2 ^ (1024 : ℤ) ∧ rounded (q * rounded depth) < 1

theorem StepsLeave.mono {q : ℚ} (hq : 0 ≤ q) {depth depth' : ℕ} (hle : depth ≤ depth')
    (h : StepsLeave q depth') : StepsLeave q depth := by
  have hdepth : rounded depth ≤ rounded depth' :=
    rounded_mono (Nat.cast_nonneg _) (by exact_mod_cast hle)
  refine ⟨hdepth.trans_lt h.1, lt_of_le_of_lt ?_ h.2⟩
  exact rounded_mono (mul_nonneg hq (rounded_nonneg _)) (mul_le_mul_of_nonneg_left hdepth hq)

theorem stepsLeave_zero (q : ℚ) : StepsLeave q 0 := by
  constructor
  · rw [Nat.cast_zero, rounded_zero]
    exact two_zpow_pos _
  · rw [Nat.cast_zero, rounded_zero, mul_zero, rounded_zero]
    exact one_pos

variable {q : ℚ} (h : Stands step q) (hpos : 0 < q) (hq : q < 1)

include h in
/-- Where something is left, it is half a unit of the last place of one at least. -/
theorem stands_linear (hleave : StepsLeave q depth) :
    ∃ v, Stands (binary64.linear step depth) v ∧ 2 ^ (-53 : ℤ) ≤ v ∧ v ≤ 1 := by
  obtain ⟨hdepth, hless⟩ := hleave
  obtain ⟨z, hz, hdenotes⟩ := floatOfInt_natCast depth
  have hlevels : Stands (floatOfInt depth) (rounded depth) := hz ▸ stands_pack hdenotes hdepth
  have hproduct := stands_mul h hlevels (hless.trans (one_lt_zpow₀ (by norm_num) (by norm_num)))
  have hexact := rounded_exact (n := 1) (e := -53) (by norm_num) (by norm_num)
  rw [Nat.cast_one, one_mul] at hexact
  refine ⟨_, stands_sub stands_ofInt_one hproduct hless.le, ?_, ?_⟩
  · exact hexact ▸ rounded_mono (two_zpow_pos _).le (hproduct.gap_below_one hless)
  · exact rounded_le_one (sub_nonneg.mpr hless.le) (sub_le_self 1 hproduct.nonneg)

include h hpos hq in
theorem linear_le_zero (hreach : ¬ StepsLeave q depth) : binary64.linear step depth ≤ 0.0 := by
  obtain ⟨z, hz, hdenotes⟩ := floatOfInt_natCast depth
  rcases lt_or_ge (rounded depth) (2 ^ (1024 : ℤ)) with hdepth | htop
  · have hlevels : Stands (floatOfInt depth) (rounded depth) := hz ▸ stands_pack hdenotes hdepth
    have hbound : rounded (q * rounded depth) < 2 ^ (1024 : ℤ) :=
      calc rounded (q * rounded depth) ≤ rounded (rounded depth) :=
            rounded_mono (mul_nonneg hpos.le hlevels.nonneg) (mul_le_of_le_one_left hlevels.nonneg hq.le)
        _ = rounded depth := hlevels.rounded_eq
        _ < 2 ^ (1024 : ℤ) := hdepth
    have hproduct := stands_mul h hlevels hbound
    rcases (not_lt.mp fun hless => hreach ⟨hdepth, hless⟩).eq_or_lt with hone | hmore
    · have hdifference := stands_sub stands_ofInt_one hproduct hone.ge
      rw [← hone, sub_self, rounded_zero] at hdifference
      exact hdifference.le_zero_iff.mpr rfl
    · exact sub_le_zero stands_ofInt_one hproduct hmore
  · have hinfinity : (floatOfInt depth).toModel.unpack = .infinity .positive := by
      rw [hz]
      exact unpack_pack_top hdenotes htop
    exact sub_infinity_le_zero stands_ofInt_one (mul_infinity h hpos hinfinity)

include h hpos hq in
theorem isPositive_linear (hleave : binary64.isPositive (binary64.linear step depth) = true) :
    StepsLeave q depth := by
  by_contra hreach
  exact (isPositive_eq_true _).mp hleave (linear_le_zero h hpos hq hreach)

end Linear

section Reciprocal

variable {step : Float} {q : ℚ} (h : Stands step q) (hpos : 0 < q) (hq : q < 1)
include h hpos

theorem step_ne_zero : (step == 0.0) = false := by
  change UnpackedFloat.beq step.toModel.unpack (.zero .positive) = false
  obtain ⟨_, hzero⟩ | ⟨m, e, hm, hx, _⟩ := h.cases
  · exact absurd hzero hpos.ne'
  · rw [hx]
    rfl

include hq

theorem ceilInverse_ok (hmore : 2 ^ (-1024 : ℤ) < q) :
    ∃ n : ℤ, 0 < n ∧ binary64.ceilInverse step = .ok n := by
  have hinverse := stands_inverse h hpos hq.le hmore
  have hone := rounded_mono zero_le_one ((one_le_div hpos).mpr hq.le)
  rw [rounded_one] at hone
  obtain ⟨b, hread, hceil⟩ := hinverse.read (one_pos.trans_le hone)
  refine ⟨b.ceil, hceil, ?_⟩
  simp only [binary64, step_ne_zero h hpos, hread]
  rfl

theorem ceilInverse_error (hless : q ≤ 2 ^ (-1024 : ℤ)) :
    binary64.ceilInverse step = .error .tooSmall := by
  have hinfinity := inverse_infinity h hpos hq.le hless
  have hnumber : (1.0 / step).isNaN = false := by
    change (1.0 / step).toModel.unpack.isNaN = false
    rw [hinfinity]
    rfl
  simp only [binary64, step_ne_zero h hpos, ofFloat?_infinity hinfinity, hnumber]
  rfl

/-- The search ends at a level that leaves something; at the latest it ends at none. -/
theorem lastLinear_ok (hmore : 2 ^ (-1024 : ℤ) < q) :
    ∃ last : ℕ, binary64.lastLinear step = .ok (last : ℤ) ∧ StepsLeave q last := by
  obtain ⟨n, hn, hceil⟩ := ceilInverse_ok h hpos hq hmore
  obtain ⟨k, rfl⟩ : ∃ k : ℕ, n = k + 1 := ⟨(n - 1).toNat, by omega⟩
  refine ⟨binary64.lastPositive step k, ?_, ?_⟩
  · simp only [Arithmetic.lastLinear, hceil, Bind.bind, Except.bind, Pure.pure, Except.pure,
      add_sub_cancel_right, Int.toNat_natCast]
    split
    · next hzero =>
      obtain rfl : k = 0 := by omega
      rfl
    · rfl
  · rcases binary64.linear_lastPositive step k with hzero | hpositive
    · rw [hzero]
      exact stepsLeave_zero q
    · exact isPositive_linear h hpos hq hpositive

theorem lastLinear_error (hless : q ≤ 2 ^ (-1024 : ℤ)) :
    binary64.lastLinear step = .error .tooSmall := by
  rw [Arithmetic.lastLinear, ceilInverse_error h hpos hq hless]
  rfl

omit hq in
/-- The penalty is zero only far beyond the last level, where the halvings have used up all of what
was left there. -/
theorem stands_penalty {last : ℕ} (hlast : binary64.lastLinear step = .ok (last : ℤ))
    (hleave : StepsLeave q last) (depth : ℕ) :
    ∃ p v, binary64.penalty step depth = .ok p ∧ Stands p v ∧ (v = 0 ↔ last < depth ∧
      fraction (binary64.linear step last) ≤ 2 ^ ((depth : ℤ) - last - 1075)) := by
  simp only [Arithmetic.penalty, hlast, Bind.bind, Except.bind, Pure.pure, Except.pure]
  by_cases hdepth : depth ≤ last
  · obtain ⟨v, hv, hleast, _⟩ := stands_linear h (hleave.mono hpos.le hdepth)
    refine ⟨_, v, rfl, ?_, iff_of_false ?_ fun hbeyond => absurd hbeyond.1 hdepth.not_gt⟩
    · rw [if_pos (by exact_mod_cast hdepth)]
      exact hv
    · exact ((two_zpow_pos _).trans_le hleast).ne'
  · obtain ⟨w, hw, _, hone⟩ := stands_linear h hleave
    obtain ⟨v, hv, hzero⟩ := stands_mul_halfPower hw hone (depth - last)
    have hlevels : ((depth : ℤ) - last).toNat = depth - last := by omega
    have hlevels' : ((depth - last : ℕ) : ℤ) = (depth : ℤ) - last := by omega
    refine ⟨_, v, rfl, ?_, ?_⟩
    · rw [if_neg (by exact_mod_cast hdepth), hlevels]
      exact hv
    · rw [hzero, hw.fraction_eq, hlevels', and_iff_right (not_le.mp hdepth)]

end Reciprocal

/-- When a name of a depth gets a boost above zero: the reciprocal of the step has to be finite, and
either the bonus or the penalty has to be above zero. -/
def IsBoosted (policy : Policy) (prioritized : Bool) (depth : ℕ) : Prop :=
  2 ^ (-1024 : ℤ) < fraction policy.penaltyStep ∧
    (prioritized = true ∧ 0.0 < policy.priorityBonus ∨
      ∃ last : ℤ, binary64.lastLinear policy.penaltyStep = .ok last ∧
        (depth ≤ last ∨
          2 ^ (depth - last - 1075) < fraction (binary64.linear policy.penaltyStep last)))

section Boost

variable {policy : Policy} (hstep : 0.0 < policy.penaltyStep) (hstep' : policy.penaltyStep < 1.0)
include hstep hstep'

/-- What becomes of the boost of a name. -/
theorem boost_cases (hbonus : 0.0 ≤ policy.priorityBonus) (prioritized : Bool) (name : List Char) :
    boost policy prioritized name = .error .tooSmall ∧
        ¬ IsBoosted policy prioritized (nestedDepth name) ∨
      ∃ b, boost policy prioritized name = .ok b ∧
        (0.0 < b ∧ IsBoosted policy prioritized (nestedDepth name) ∨
          b ≤ 0.0 ∧ ¬ IsBoosted policy prioritized (nestedDepth name)) := by
  obtain ⟨hstands, hpos, hone⟩ := stands_fraction hstep hstep'
  rcases le_or_gt (fraction policy.penaltyStep) (2 ^ (-1024 : ℤ)) with hless | hmore
  · refine .inl ⟨?_, fun hboosted => hboosted.1.not_ge hless⟩
    rw [boost, penalty, Arithmetic.penalty, lastLinear_error hstands hpos hone hless]
    rfl
  obtain ⟨last, hlast, hleave⟩ := lastLinear_ok hstands hpos hone hmore
  obtain ⟨p, v, hpenalty, hp, hzero⟩ := stands_penalty hstands hpos hlast hleave (nestedDepth name)
  have hboost : boost policy prioritized name =
      .ok (if prioritized then p + policy.priorityBonus else p) := by
    rw [boost, penalty, hpenalty]
    rfl
  have hleft : (∃ last : ℤ, binary64.lastLinear policy.penaltyStep = .ok last ∧
      (nestedDepth name ≤ last ∨ 2 ^ (nestedDepth name - last - 1075) <
        fraction (binary64.linear policy.penaltyStep last))) ↔ v ≠ 0 := by
    rw [Ne, hzero, not_and_or, not_lt, not_le, hlast]
    constructor
    · rintro ⟨_, hsame, hreached⟩
      cases hsame
      exact hreached.imp_left (by exact_mod_cast ·)
    · intro hreached
      exact ⟨last, rfl, hreached.imp_left (by exact_mod_cast ·)⟩
  have hpenalized : 0.0 < p ∧ v ≠ 0 ∨ p ≤ 0.0 ∧ ¬ v ≠ 0 := by
    rw [hp.zero_lt_iff, hp.le_zero_iff, not_not, and_self, and_self]
    exact (em (v = 0)).symm
  refine .inr ⟨_, hboost, ?_⟩
  rw [IsBoosted, and_iff_right hmore, hleft]
  cases prioritized with
  | false => simpa using hpenalized
  | true =>
    rw [and_iff_right rfl, if_pos rfl]
    rcases add_cases hp hbonus with ⟨hnone, hsum⟩ | ⟨hsome, hsum⟩
    · rw [hsum, or_iff_right hnone]
      exact hpenalized
    · exact .inl ⟨hsum, .inl hsome⟩

/-- The boost of a name is there and is above zero just where it can be. -/
theorem boost_positive_iff (hbonus : 0.0 ≤ policy.priorityBonus) (prioritized : Bool)
    (name : List Char) :
    (∃ b, boost policy prioritized name = .ok b ∧ ¬ b ≤ 0.0) ↔
      IsBoosted policy prioritized (nestedDepth name) := by
  obtain ⟨hfails, hnot⟩ | ⟨b, hboost, ⟨hpositive, hboosted⟩ | ⟨hzero, hnot⟩⟩ :=
    boost_cases hstep hstep' hbonus prioritized name
  · rw [hfails]
    exact iff_of_false (fun ⟨b, hb, _⟩ => by cases hb) hnot
  · exact iff_of_true ⟨b, hboost, not_le_zero hpositive⟩ hboosted
  · refine iff_of_false ?_ hnot
    rintro ⟨b', hboost', hpositive⟩
    cases hboost.symm.trans hboost'
    exact hpositive hzero

/-- No boost is incomparable to zero. -/
theorem zero_lt_boost (hbonus : 0.0 ≤ policy.priorityBonus) {prioritized : Bool}
    {name : List Char} {b : Float} (h : boost policy prioritized name = .ok b) (hb : ¬ b ≤ 0.0) :
    0.0 < b := by
  obtain ⟨hfails, _⟩ | ⟨b', hboost, ⟨hpositive, _⟩ | ⟨hzero, _⟩⟩ :=
    boost_cases hstep hstep' hbonus prioritized name
  · cases hfails.symm.trans h
  · cases hboost.symm.trans h
    exact hpositive
  · cases hboost.symm.trans h
    exact absurd hzero hb

/-- Up to 1021 levels every name has a boost above zero, however small the step is, as long as its
reciprocal is finite: what is left at the last level is `2 ^ -53` at least. -/
theorem isBoosted_of_shallow (hmore : 2 ^ (-1024 : ℤ) < fraction policy.penaltyStep)
    (prioritized : Bool) {depth : ℕ} (hdepth : depth ≤ 1021) :
    IsBoosted policy prioritized depth := by
  obtain ⟨hstands, hpos, hone⟩ := stands_fraction hstep hstep'
  obtain ⟨last, hlast, hleave⟩ := lastLinear_ok hstands hpos hone hmore
  obtain ⟨w, hw, hleast, _⟩ := stands_linear hstands hleave
  refine ⟨hmore, .inr ⟨last, hlast, .inr ?_⟩⟩
  calc (2 : ℚ) ^ ((depth : ℤ) - last - 1075) < 2 ^ (-53 : ℤ) :=
        zpow_lt_zpow_right₀ (by norm_num) (by omega)
    _ ≤ w := hleast
    _ = fraction (binary64.linear policy.penaltyStep last) := hw.fraction_eq.symm

end Boost

theorem stands_quarter : Stands 0.25 (1 / 4) := by
  have hquarter := @stands_finite 0.25 (2 ^ 52) (-54) (by norm_num) (by rfl)
  norm_num at hquarter
  exact hquarter

/-- A quarter is taken off three times before nothing would be left. -/
theorem lastLinear_quarter : binary64.lastLinear 0.25 = .ok (3 : ℕ) := by rfl

theorem fraction_linear_quarter : fraction (binary64.linear 0.25 (3 : ℕ)) = 2 ^ (-2 : ℤ) := by
  have hlast : binary64.linear 0.25 (3 : ℕ) = 0.25 := by decide +kernel
  rw [hlast, stands_quarter.fraction_eq]
  norm_num

/-- By default every name has a boost, and it is positive just where the name is not nested deeper
than 1075 levels: after three steps of a quarter the last quarter can be halved 1072 times. -/
theorem boost_default (name : List Char) :
    ∃ b, boost .default false name = .ok b ∧ (b ≤ 0.0 ↔ 1075 < nestedDepth name) := by
  have hleave : StepsLeave (1 / 4) 3 :=
    isPositive_linear stands_quarter (by norm_num) (by norm_num) (by decide +kernel)
  obtain ⟨p, v, hpenalty, hp, hzero⟩ := stands_penalty stands_quarter (by norm_num)
    lastLinear_quarter hleave (nestedDepth name)
  refine ⟨p, ?_, ?_⟩
  · rw [boost, penalty, Policy.default, hpenalty]
    rfl
  · rw [hp.le_zero_iff, hzero, fraction_linear_quarter, zpow_le_zpow_iff_right₀ (by norm_num)]
    omega

end GoToSymbol.Relevance
