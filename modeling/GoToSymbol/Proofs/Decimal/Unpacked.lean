import GoToSymbol.Proofs.Decimal.Nearest
import Mathlib

namespace GoToSymbol.Decimal

open Float.Model (Format UnpackedFloat totalExponent)
open Float.Model.UnpackedFloat

/-- What a number has below a mantissa and its round bit. -/
def residue (x : ExtendedMantissa) (q : ℚ) : ℚ := q - x.mantissa - x.roundBit.toNat / 2

/-- The mantissa, the round bit and the sticky bit are those of a number. -/
structure Extends (x : ExtendedMantissa) (q : ℚ) : Prop where
  nonneg : 0 ≤ residue x q
  lt_half : residue x q < 1 / 2
  sticky : x.stickyBit = true ↔ 0 < residue x q

namespace Extends

variable {x : ExtendedMantissa} {q : ℚ}

theorem shiftRightOne (h : Extends x q) : Extends x.shiftRightOne (q / 2) := by
  obtain ⟨m, round, sticky⟩ := x
  obtain ⟨hnonneg, hlt, hsticky⟩ := h
  have hparity : (m : ℚ) = 2 * (m / 2 : ℕ) + (m % 2 != 0).toNat := by
    have hbit : (m % 2 != 0).toNat = m % 2 := by
      rcases Nat.mod_two_eq_zero_or_one m with h | h <;> simp [h]
    rw [hbit]
    exact_mod_cast (Nat.div_add_mod m 2).symm
  -- The old round bit is worth a quarter now.
  have hresidue : residue (ExtendedMantissa.shiftRightOne ⟨m, round, sticky⟩) (q / 2) =
      round.toNat / 4 + residue ⟨m, round, sticky⟩ q / 2 := by
    simp only [residue, ExtendedMantissa.shiftRightOne]
    rw [hparity]
    ring
  have hbit : (round.toNat : ℚ) ≤ 1 := by cases round <;> simp
  have hbit' : (0 : ℚ) ≤ round.toNat := Nat.cast_nonneg _
  refine ⟨?_, ?_, ?_⟩
  · rw [hresidue]
    linarith
  · rw [hresidue]
    linarith
  · rw [hresidue]
    cases round with
    | false => simpa [ExtendedMantissa.shiftRightOne] using hsticky
    | true =>
      refine iff_of_true rfl ?_
      simp only [Bool.toNat_true, Nat.cast_one]
      linarith

theorem shiftRight (h : Extends x q) (s : ℕ) : Extends (x >>> s) (q / 2 ^ s) := by
  induction s with
  | zero =>
    rw [pow_zero, div_one]
    exact h
  | succ s ih =>
    have hhalf : q / 2 ^ (s + 1) = q / 2 ^ s / 2 := by rw [pow_succ, div_div]
    rw [hhalf]
    exact ih.shiftRightOne

theorem mantissa_le (h : Extends x q) : (x.mantissa : ℚ) ≤ q := by
  have hnonneg := h.nonneg
  have hbit : (0 : ℚ) ≤ x.roundBit.toNat := Nat.cast_nonneg _
  rw [residue] at hnonneg
  linarith

theorem lt_mantissa (h : Extends x q) : q < x.mantissa + 1 := by
  have hlt := h.lt_half
  have hbit : (x.roundBit.toNat : ℚ) ≤ 1 := by cases x.roundBit <;> simp
  rw [residue] at hlt
  linarith

/-- The two bits are all that rounding to the nearest needs. -/
theorem roundedMantissa (h : Extends x q) : x.roundedMantissa = nearestEven q := by
  have hfloor : ⌊q⌋₊ = x.mantissa :=
    (Nat.floor_eq_iff (x.mantissa.cast_nonneg.trans h.mantissa_le)).mpr
      ⟨h.mantissa_le, h.lt_mantissa⟩
  obtain ⟨m, round, sticky⟩ := x
  obtain ⟨hnonneg, hlt, hsticky⟩ := h
  simp only at hfloor
  simp only [nearestEven, hfloor]
  cases round <;> cases sticky <;>
    simp only [residue, Bool.toNat_false, Bool.toNat_true, Nat.cast_zero, Nat.cast_one, zero_div,
      sub_zero, Bool.false_eq_true, false_iff, true_iff, not_lt] at hnonneg hlt hsticky
  case false.false => rw [if_pos (by linarith)]; rfl
  case false.true => rw [if_pos (by linarith)]; rfl
  case true.false => rw [if_neg (by linarith), if_neg (by linarith)]; rfl
  case true.true => rw [if_neg (by linarith), if_pos (by linarith)]; rfl

theorem mantissa_ofAccuracy (m : ℕ) (acc : Accuracy) :
    (ExtendedMantissa.ofMantissaAndAccuracy m acc).mantissa = m := by
  cases acc with
  | exact => rfl
  | inexact place => cases place <;> rfl

theorem pos {m : ℕ} {acc : Accuracy} (hm : 0 < m) (h : Extends (.ofMantissaAndAccuracy m acc) q) :
    0 < q := by
  have hle := h.mantissa_le
  rw [mantissa_ofAccuracy] at hle
  exact lt_of_lt_of_le (by exact_mod_cast hm) hle

theorem exact (m : ℕ) : Extends (.ofMantissaAndAccuracy m .exact) m := by
  constructor <;> simp [residue, ExtendedMantissa.ofMantissaAndAccuracy]

/-- Where the rest of a division lies between two mantissas. -/
theorem fraction (n : ℕ) {r d : ℕ} (hr : r < d) :
    Extends (.ofMantissaAndAccuracy n (accuracyOfFraction r d)) (n + r / d) := by
  have hd : (0 : ℚ) < d := by exact_mod_cast Nat.zero_lt_of_lt hr
  have hone : (r : ℚ) / d < 1 := (div_lt_one hd).mpr (by exact_mod_cast hr)
  have hresidue (round sticky : Bool) :
      residue ⟨n, round, sticky⟩ (n + r / d) = r / d - round.toNat / 2 := by
    rw [residue, add_sub_cancel_left]
  rcases r.eq_zero_or_pos with rfl | hpos
  · simpa [accuracyOfFraction] using exact n
  have hfraction : (0 : ℚ) < r / d := div_pos (by exact_mod_cast hpos) hd
  rw [accuracyOfFraction, if_neg hpos.ne']
  rcases Nat.lt_trichotomy (2 * r) d with hlt | heq | hgt
  · have hless : (r : ℚ) / d < 1 / 2 := by
      rw [div_lt_div_iff₀ hd (by norm_num), one_mul, mul_comm]
      exact_mod_cast hlt
    rw [Nat.compare_eq_lt.mpr hlt]
    change Extends ⟨n, false, true⟩ _
    constructor <;> rw [hresidue, Bool.toNat_false, Nat.cast_zero, zero_div, sub_zero]
    · exact hfraction.le
    · exact hless
    · exact iff_of_true rfl hfraction
  · have hhalf : (r : ℚ) / d = 1 / 2 := by
      rw [div_eq_div_iff hd.ne' (by norm_num), one_mul, mul_comm]
      exact_mod_cast heq
    rw [Nat.compare_eq_eq.mpr heq]
    change Extends ⟨n, true, false⟩ _
    constructor <;> rw [hresidue, hhalf, Bool.toNat_true, Nat.cast_one, sub_self]
    · norm_num
    · exact iff_of_false Bool.false_ne_true (lt_irrefl _)
  · have hmore : 1 / 2 < (r : ℚ) / d := by
      rw [div_lt_div_iff₀ (by norm_num) hd, one_mul, mul_comm (r : ℚ)]
      exact_mod_cast hgt
    rw [Nat.compare_eq_gt.mpr hgt]
    change Extends ⟨n, true, true⟩ _
    constructor <;> rw [hresidue, Bool.toNat_true, Nat.cast_one]
    · linarith
    · linarith
    · exact iff_of_true rfl (by linarith)

end Extends

/-- A mantissa and an exponent as a number of the machine has them: 53 bits, unless the exponent is
the least one. -/
structure Canonical (m : ℕ) (e : ℤ) : Prop where
  lt : m < 2 ^ 53
  ge : -1074 ≤ e
  full : e = -1074 ∨ 2 ^ 52 ≤ m

/-- An unpacked number is not negative and stands for a fraction. -/
inductive Denotes : UnpackedFloat → ℚ → Prop where
  | zero : Denotes (.zero .positive) 0
  | finite {m : ℕ} {e : ℤ} (hm : 0 < m) (h : Canonical m e) :
    Denotes (.finite .positive m e hm) (m * 2 ^ e)

section Round

variable {m : ℕ} {e : ℤ} {acc : Accuracy} {q : ℚ}

theorem totalExponent_two_pow (i : ℕ) (e : ℤ) : totalExponent (2 ^ i) e = i + 1 + e := by
  simp [totalExponent]

theorem targetExponent_binary64 (e : ℤ) :
    Format.binary64.targetExponent e = max (e - 53) (-1074) := rfl

/-- The bits below the mantissa do not count for the place of the first one. -/
theorem log_extends (hm : 0 < m) (hx : Extends (.ofMantissaAndAccuracy m acc) q) (e : ℤ) :
    Int.log 2 (q * 2 ^ e) = m.log2 + e := by
  have hle := hx.mantissa_le
  have hlt := hx.lt_mantissa
  rw [Extends.mantissa_ofAccuracy] at hle hlt
  have hlow : (2 : ℚ) ^ m.log2 ≤ q :=
    le_trans (by exact_mod_cast Nat.log2_self_le hm.ne') hle
  have hhigh : q < (2 : ℚ) ^ (m.log2 + 1) :=
    lt_of_lt_of_le hlt (by exact_mod_cast Nat.lt_log2_self)
  have hpos : 0 < q * 2 ^ e := mul_pos (hx.pos hm) (two_zpow_pos e)
  apply le_antisymm
  · refine Int.lt_add_one_iff.mp ((Int.lt_zpow_iff_log_lt (by norm_num) hpos).mp ?_)
    calc q * 2 ^ e < 2 ^ (m.log2 + 1) * 2 ^ e := mul_lt_mul_of_pos_right hhigh (two_zpow_pos e)
      _ = ((2 : ℕ) : ℚ) ^ ((m.log2 : ℤ) + e + 1) := by
        rw [Nat.cast_two, add_right_comm, zpow_add₀ (by norm_num)]
        norm_cast
  · refine (Int.zpow_le_iff_le_log (by norm_num) hpos).mp ?_
    calc ((2 : ℕ) : ℚ) ^ ((m.log2 : ℤ) + e) = 2 ^ m.log2 * 2 ^ e := by
          rw [Nat.cast_two, zpow_add₀ (by norm_num), zpow_natCast]
      _ ≤ q * 2 ^ e := mul_le_mul_of_nonneg_right hlow (two_zpow_pos e).le

/-- The exponent that is aimed at is that of the last bit to be kept. -/
theorem targetExponent_extends (hm : 0 < m) (hx : Extends (.ofMantissaAndAccuracy m acc) q)
    (e : ℤ) : Format.binary64.targetExponent (totalExponent m e) = lastBit (q * 2 ^ e) := by
  rw [targetExponent_binary64, lastBit, log_extends hm hx, totalExponent]
  congr 1
  ring

theorem shiftToTarget_extends (hm : 0 < m) (hx : Extends (.ofMantissaAndAccuracy m acc) q)
    (he : e ≤ lastBit (q * 2 ^ e)) :
    ∃ x, shiftToTargetExponent Format.binary64 m e acc = (x, lastBit (q * 2 ^ e)) ∧
      Extends x (q * 2 ^ e / 2 ^ lastBit (q * 2 ^ e)) := by
  obtain ⟨s, hs⟩ : ∃ s : ℕ, lastBit (q * 2 ^ e) = e + s :=
    ⟨(lastBit (q * 2 ^ e) - e).toNat, by omega⟩
  have hshift : (lastBit (q * 2 ^ e) - e).toNat = s := by omega
  refine ⟨ExtendedMantissa.ofMantissaAndAccuracy m acc >>> s, ?_, ?_⟩
  · simp only [shiftToTargetExponent, shiftToExponent, targetExponent_extends hm hx, hshift]
    rw [hs]
  · have hscaled : q * 2 ^ e / 2 ^ lastBit (q * 2 ^ e) = q / 2 ^ s := by
      rw [hs, zpow_add₀ (by norm_num), zpow_natCast]
      have hne := (two_zpow_pos e).ne'
      field_simp
    rw [hscaled]
    exact hx.shiftRight s

theorem shiftToTarget_short (h : max (totalExponent m e - 53) (-1074) ≤ e) :
    shiftToTargetExponent Format.binary64 m e .exact = (⟨m, false, false⟩, e) := by
  have hzero : (max (totalExponent m e - 53) (-1074) - e).toNat = 0 := by omega
  simp only [shiftToTargetExponent, targetExponent_binary64, shiftToExponent, hzero]
  exact Prod.ext rfl (Int.add_zero e)

/-- A mantissa that rounding has carried over into a 54th bit loses its last one, which is zero. -/
theorem shiftToTarget_carried (he : -1074 ≤ e) :
    shiftToTargetExponent Format.binary64 (2 ^ 53) e .exact = (⟨2 ^ 52, false, false⟩, e + 1) := by
  have hone : (max ((53 : ℕ) + 1 + e - 53) (-1074) - e).toNat = 1 := by omega
  simp only [shiftToTargetExponent, targetExponent_binary64, totalExponent_two_pow, shiftToExponent,
    hone]
  rfl

theorem totalExponent_le {n : ℕ} (hn : n < 2 ^ 53) (e : ℤ) : totalExponent n e ≤ 53 + e := by
  have hlog : n.log2 < 53 := by
    rcases n.eq_zero_or_pos with rfl | hpos
    · decide
    · exact (Nat.log2_lt hpos.ne').mpr hn
  rw [totalExponent]
  omega

/-- The second shift only takes up what rounding has carried over. -/
theorem denotes_rounded {x : ExtendedMantissa} {u : ℤ} (hu : -1074 ≤ u)
    (hshift : shiftToTargetExponent Format.binary64 m e acc = (x, u))
    {n : ℕ} (hx : x.roundedMantissa = n) (hn : n ≤ 2 ^ 53) (hfull : u = -1074 ∨ 2 ^ 52 ≤ n) :
    Denotes (roundWithAccuracy Format.binary64 .positive m e acc) (n * 2 ^ u) := by
  simp only [roundWithAccuracy, hshift, hx]
  rcases hn.lt_or_eq with hlt | rfl
  · have htarget : max (totalExponent n u - 53) (-1074) ≤ u := by
      have htotal := totalExponent_le hlt u
      omega
    simp only [shiftToTarget_short htarget]
    rcases n.eq_zero_or_pos with rfl | hpos
    · simpa using Denotes.zero
    · rw [dif_neg hpos.ne']
      exact .finite hpos ⟨hlt, hu, hfull⟩
  · have hvalue : ((2 ^ 53 : ℕ) : ℚ) * 2 ^ u = (2 ^ 52 : ℕ) * 2 ^ (u + 1) := by
      rw [zpow_add_one₀ (by norm_num)]
      push_cast
      ring
    simp only [shiftToTarget_carried hu]
    rw [hvalue, dif_neg (by norm_num)]
    exact .finite (by norm_num) ⟨by norm_num, by omega, .inr le_rfl⟩

/-- Rounding gives what binary64 has for the exact number, where the mantissa it begins with has
bits enough. -/
theorem denotes_round (hm : 0 < m) (hx : Extends (.ofMantissaAndAccuracy m acc) q)
    (hbits : 2 ^ 52 ≤ m ∨ e ≤ -1074) :
    Denotes (roundWithAccuracy Format.binary64 .positive m e acc) (rounded (q * 2 ^ e)) := by
  have he : e ≤ lastBit (q * 2 ^ e) := by
    rw [lastBit, log_extends hm hx e]
    rcases hbits with hmany | hleast
    · have hfull : 52 ≤ m.log2 := (Nat.le_log2 hm.ne').mpr hmany
      omega
    · omega
  have hpos : 0 < q * 2 ^ e := mul_pos (hx.pos hm) (two_zpow_pos e)
  obtain ⟨x, hshift, hx'⟩ := shiftToTarget_extends hm hx he
  refine denotes_rounded (lastBit_ge _) hshift hx'.roundedMantissa ?_ ?_
  · exact nearestEven_le (by exact_mod_cast (scaled_lt _).le)
  · refine (lastBit_ge _).eq_or_lt.imp Eq.symm fun hmore => ?_
    exact le_nearestEven (by exact_mod_cast le_scaled hpos hmore)

theorem decreaseExponent_value {t : ℤ} (h : t ≤ e) :
    ((decreaseExponent m e t).1 : ℚ) * 2 ^ t = m * 2 ^ e := by
  obtain ⟨s, rfl⟩ : ∃ s : ℕ, e = t + s := ⟨(e - t).toNat, by omega⟩
  have hshift : (t + s - t).toNat = s := by omega
  simp only [decreaseExponent, hshift, Nat.shiftLeft_eq]
  rw [zpow_add₀ (by norm_num), zpow_natCast]
  push_cast
  ring

/-- Rounding that may also lower the exponent needs no bits to begin with. -/
theorem denotes_round_exact (hm : 0 < m) (e : ℤ) :
    Denotes (UnpackedFloat.round Format.binary64 .positive m e) (rounded (m * 2 ^ e)) := by
  obtain ⟨s, hs⟩ : ∃ s : ℕ, (e - max (totalExponent m e - 53) (-1074)).toNat = s := ⟨_, rfl⟩
  have hvalue : (m : ℚ) * 2 ^ e = (m <<< s : ℕ) * 2 ^ (e - s) := by
    rw [Nat.shiftLeft_eq, zpow_sub₀ (by norm_num), zpow_natCast]
    push_cast
    field_simp
  have hpos : 0 < m <<< s := by
    rw [Nat.shiftLeft_eq]
    positivity
  have hbits : 2 ^ 52 ≤ m <<< s ∨ e - s ≤ -1074 := by
    rw [totalExponent] at hs
    by_cases hleast : (m.log2 : ℤ) + 1 + e - 53 ≤ -1074
    · exact .inr (by omega)
    · refine .inl ?_
      calc 2 ^ 52 ≤ 2 ^ (m.log2 + s) := Nat.pow_le_pow_right (by norm_num) (by omega)
        _ = 2 ^ m.log2 * 2 ^ s := Nat.pow_add 2 _ _
        _ ≤ m * 2 ^ s := Nat.mul_le_mul_right _ (Nat.log2_self_le hm.ne')
        _ = m <<< s := (Nat.shiftLeft_eq m s).symm
  simp only [UnpackedFloat.round, decreaseExponent, targetExponent_binary64, hs]
  rw [hvalue]
  exact denotes_round hpos (.exact _) hbits

theorem denotes_normalize {n : ℤ} (hn : 0 ≤ n) (e : ℤ) :
    Denotes (UnpackedFloat.normalize Format.binary64 n e .positive) (rounded (n * 2 ^ e)) := by
  rcases hn.eq_or_lt with rfl | hpos
  · rw [Int.cast_zero, zero_mul, rounded_zero]
    exact .zero
  · have hcompare : compare n 0 = .gt := Int.compare_eq_gt.mpr hpos
    have hvalue : (n : ℚ) = n.toNat := by exact_mod_cast (Int.toNat_of_nonneg hn).symm
    simp only [UnpackedFloat.normalize, hcompare]
    rw [hvalue]
    exact denotes_round_exact (by omega) e

end Round

section Operations

variable {x y : UnpackedFloat} {p q : ℚ}

theorem Denotes.nonneg (h : Denotes x q) : 0 ≤ q := by
  cases h with
  | zero => exact le_rfl
  | finite hm _ => exact (mul_two_zpow_pos hm _).le

theorem Denotes.rounded_eq (h : Denotes x q) : rounded q = q := by
  cases h with
  | zero => exact rounded_zero
  | finite _ hc => exact rounded_exact hc.lt hc.ge

theorem denotes_mul (hx : Denotes x p) (hy : Denotes y q) :
    Denotes (mul Format.binary64 x y) (rounded (p * q)) := by
  cases hx with
  | zero =>
    rw [zero_mul, rounded_zero]
    cases hy <;> exact .zero
  | @finite m e hm hc =>
    cases hy with
    | zero =>
      rw [mul_zero, rounded_zero]
      exact .zero
    | @finite n d hn hd =>
      have hvalue : (m : ℚ) * 2 ^ e * (n * 2 ^ d) = (m * n : ℕ) * 2 ^ (e + d) := by
        rw [zpow_add₀ (by norm_num)]
        push_cast
        ring
      have hbits : 2 ^ 52 ≤ m * n ∨ e + d ≤ -1074 := by
        rcases hc.full with rfl | hfull
        · rcases hd.full with rfl | hfull
          · exact .inr (by norm_num)
          · exact .inl (le_trans hfull (Nat.le_mul_of_pos_left n hm))
        · exact .inl (le_trans hfull (Nat.le_mul_of_pos_right m hn))
      rw [hvalue]
      exact denotes_round (Nat.mul_pos hm hn) (.exact _) hbits

theorem denotes_add (hx : Denotes x p) (hy : Denotes y q) :
    Denotes (add Format.binary64 x y) (rounded (p + q)) := by
  cases hx with
  | zero =>
    rw [zero_add, hy.rounded_eq]
    cases hy with
    | zero => exact .zero
    | finite hn hd => exact .finite hn hd
  | @finite m e hm hc =>
    cases hy with
    | zero =>
      rw [add_zero, rounded_exact hc.lt hc.ge]
      exact .finite hm hc
    | @finite n d hn hd =>
      have hvalue : (m : ℚ) * 2 ^ e + n * 2 ^ d =
          (((decreaseExponent m e (min e d)).1 : ℤ) + ((decreaseExponent n d (min e d)).1 : ℤ) : ℤ) *
            2 ^ min e d := by
        push_cast
        rw [add_mul, decreaseExponent_value (min_le_left e d),
          decreaseExponent_value (min_le_right e d)]
      have hsum : 0 ≤ ((decreaseExponent m e (min e d)).1 : ℤ) +
          ((decreaseExponent n d (min e d)).1 : ℤ) := by omega
      rw [hvalue]
      exact denotes_normalize hsum _

theorem denotes_sub (hx : Denotes x p) (hy : Denotes y q) (h : q ≤ p) :
    Denotes (sub Format.binary64 x y) (rounded (p - q)) := by
  cases hy with
  | zero =>
    rw [sub_zero, hx.rounded_eq]
    cases hx with
    | zero => exact .zero
    | finite hm hc => exact .finite hm hc
  | @finite n d hn hd =>
    have hq : (0 : ℚ) < n * 2 ^ d := mul_two_zpow_pos hn d
    cases hx with
    | zero => exact absurd h hq.not_ge
    | @finite m e hm hc =>
      have hvalue : (m : ℚ) * 2 ^ e - n * 2 ^ d =
          (((decreaseExponent m e (min e d)).1 : ℤ) - ((decreaseExponent n d (min e d)).1 : ℤ) : ℤ) *
            2 ^ min e d := by
        push_cast
        rw [sub_mul, decreaseExponent_value (min_le_left e d),
          decreaseExponent_value (min_le_right e d)]
      have hdifference : 0 ≤ ((decreaseExponent m e (min e d)).1 : ℤ) -
          ((decreaseExponent n d (min e d)).1 : ℤ) := by
        have hproduct := sub_nonneg.mpr h
        rw [hvalue] at hproduct
        exact_mod_cast nonneg_of_mul_nonneg_left hproduct (two_zpow_pos (min e d))
      rw [hvalue]
      exact denotes_normalize hdifference _

/-- A quotient is cut off late enough for all of its bits. -/
theorem bits_quotient {m n s : ℕ} {e d t : ℤ} (hm : 0 < m) (hn : 0 < n) (hs : e - d = t + s)
    (ht : t ≤ max (totalExponent m e - totalExponent n d - 53) (-1074)) :
    2 ^ 52 ≤ m <<< s / n ∨ t ≤ -1074 := by
  rw [or_iff_not_imp_right]
  intro hmore
  have hlogs : n.log2 + 1 + 52 ≤ m.log2 + s := by
    simp only [totalExponent] at ht
    omega
  rw [Nat.le_div_iff_mul_le hn, Nat.shiftLeft_eq]
  calc 2 ^ 52 * n ≤ 2 ^ 52 * 2 ^ (n.log2 + 1) := Nat.mul_le_mul_left _ Nat.lt_log2_self.le
    _ = 2 ^ (n.log2 + 1 + 52) := by rw [Nat.pow_add 2 (n.log2 + 1), Nat.mul_comm]
    _ ≤ 2 ^ (m.log2 + s) := Nat.pow_le_pow_right (by norm_num) hlogs
    _ = 2 ^ m.log2 * 2 ^ s := Nat.pow_add 2 _ _
    _ ≤ m * 2 ^ s := Nat.mul_le_mul_right _ (Nat.log2_self_le hm.ne')

/-- A quotient that is not below one. -/
theorem denotes_div (hx : Denotes x p) (hy : Denotes y q) (hq : 0 < q) (h : q ≤ p) :
    Denotes (div Format.binary64 x y) (rounded (p / q)) := by
  cases hy with
  | zero => exact absurd hq (lt_irrefl _)
  | @finite n d hn hd =>
    cases hx with
    | zero => exact absurd h hq.not_ge
    | @finite m e hm hc =>
      have hn' : (0 : ℚ) < n := by exact_mod_cast hn
      set t := min (e - d)
        (Format.binary64.targetExponent (totalExponent m e - totalExponent n d)) with ht
      obtain ⟨s, hs⟩ : ∃ s : ℕ, e - d = t + s := ⟨(e - d - t).toNat, by omega⟩
      have hshift : (e - d - t).toNat = s := by omega
      have hscaled : (m : ℚ) * 2 ^ e / (n * 2 ^ d) = (m <<< s : ℕ) / n * 2 ^ t := by
        have hpowers : (2 : ℚ) ^ e = 2 ^ d * (2 ^ t * 2 ^ s) := by
          rw [← zpow_natCast, ← zpow_add₀ (by norm_num), ← zpow_add₀ (by norm_num), ← hs,
            add_sub_cancel]
        have hd' := (two_zpow_pos d).ne'
        rw [hpowers, Nat.shiftLeft_eq]
        push_cast
        field_simp
      have hrest : ((m <<< s : ℕ) : ℚ) / n = (m <<< s / n : ℕ) + ((m <<< s % n : ℕ) : ℚ) / n := by
        have hdivision : ((m <<< s : ℕ) : ℚ) = n * (m <<< s / n : ℕ) + (m <<< s % n : ℕ) := by
          exact_mod_cast (Nat.div_add_mod (m <<< s) n).symm
        rw [div_eq_iff hn'.ne', add_mul, div_mul_cancel₀ _ hn'.ne', mul_comm]
        exact hdivision
      have hbits := bits_quotient hm hn hs (min_le_right _ _)
      have hpos : 0 < m <<< s / n := by
        rcases hbits with hmany | hleast
        · omega
        · have hone : (1 : ℚ) ≤ (m <<< s : ℕ) / n := by
            have hquotient : 1 ≤ (m : ℚ) * 2 ^ e / (n * 2 ^ d) := (one_le_div hq).mpr h
            rw [hscaled] at hquotient
            refine hquotient.trans (mul_le_of_le_one_right (by positivity) ?_)
            exact zpow_le_one_of_nonpos₀ (by norm_num) (by omega)
          exact Nat.div_pos (by exact_mod_cast (one_le_div hn').mp hone) hn
      simp only [UnpackedFloat.div, divCore, ← ht, hshift]
      rw [hscaled, hrest]
      exact denotes_round hpos (.fraction _ (Nat.mod_lt _ hn)) hbits

theorem denotes_ofNat (n : ℕ) : Denotes (UnpackedFloat.ofNat Format.binary64 n) (rounded n) := by
  have hnormal := denotes_normalize (Int.natCast_nonneg n) 0
  rw [zpow_zero, mul_one] at hnormal
  exact hnormal

/-- A natural number as it is read from a text without a point. -/
theorem denotes_ofScientific (n : ℕ) :
    Denotes (UnpackedFloat.ofScientific Format.binary64 n 0) (rounded n) := by
  rcases n.eq_zero_or_pos with rfl | hpos
  · rw [Nat.cast_zero, rounded_zero]
    exact .zero
  · have hfull : 2 ^ 52 ≤ n <<< 53 * 1 := by
      rw [Nat.shiftLeft_eq]
      omega
    have hvalue : ((n <<< 53 * 1 : ℕ) : ℚ) * 2 ^ (-53 : ℤ) = n := by
      rw [Nat.shiftLeft_eq, mul_one, zpow_neg]
      push_cast
      exact mul_inv_cancel_right₀ (by norm_num) _
    have hround := denotes_round (by omega) (.exact _) (.inl hfull) (e := -53)
    rw [hvalue] at hround
    rw [UnpackedFloat.ofScientific, dif_neg hpos.ne', if_neg (by norm_num), if_neg (by norm_num),
      if_pos le_rfl]
    exact hround

/-- A zero that is added changes nothing, whatever its sign is. -/
theorem Denotes.add_signed_zero (hx : Denotes x p) (s : Sign) :
    UnpackedFloat.add Format.binary64 x (.zero s) = x := by
  cases hx with
  | zero => cases s <;> rfl
  | finite => rfl

theorem Denotes.add_infinity (hx : Denotes x p) :
    UnpackedFloat.add Format.binary64 x (.infinity .positive) = .infinity .positive := by
  cases hx <;> rfl

theorem Denotes.mul_infinity (hx : Denotes x p) (hp : 0 < p) :
    UnpackedFloat.mul Format.binary64 x (.infinity .positive) = .infinity .positive := by
  cases hx with
  | zero => exact absurd hp (lt_irrefl _)
  | finite => rfl

theorem Denotes.sub_infinity (hx : Denotes x p) :
    UnpackedFloat.sub Format.binary64 x (.infinity .positive) = .infinity .negative := by
  cases hx <;> rfl

end Operations

/-- A number, finite or not, has a sign. -/
inductive HasSign (s : Sign) : UnpackedFloat → Prop where
  | infinity : HasSign s (.infinity s)
  | zero : HasSign s (.zero s)
  | finite {m : ℕ} {e : ℤ} (hm : 0 < m) : HasSign s (.finite s m e hm)

section Signs

variable {x y : UnpackedFloat} {p q : ℚ}

theorem hasSign_round (s : Sign) (m : ℕ) (e : ℤ) :
    HasSign s (UnpackedFloat.round Format.binary64 s m e) := by
  simp only [UnpackedFloat.round, roundWithAccuracy]
  split
  · exact .zero
  · exact .finite _

/-- A difference below zero is negative, also where nothing is left of it. -/
theorem negative_sub (hx : Denotes x p) (hy : Denotes y q) (h : p < q) :
    HasSign .negative (sub Format.binary64 x y) := by
  cases hy with
  | zero => exact absurd h hx.nonneg.not_gt
  | @finite n d hn hd =>
    cases hx with
    | zero => exact .finite hn
    | @finite m e hm hc =>
      have hdifference : ((decreaseExponent m e (min e d)).1 : ℤ) -
          ((decreaseExponent n d (min e d)).1 : ℤ) < 0 := by
        have hproduct := sub_neg.mpr h
        rw [← decreaseExponent_value (min_le_left e d), ← decreaseExponent_value (min_le_right e d),
          ← sub_mul] at hproduct
        exact_mod_cast neg_of_mul_neg_left hproduct (two_zpow_pos (min e d)).le
      have hcompare := Int.compare_eq_lt.mpr hdifference
      change HasSign .negative (UnpackedFloat.normalize Format.binary64 (((decreaseExponent m e (min e d)).1 : ℤ) -
          ((decreaseExponent n d (min e d)).1 : ℤ)) (min e d) .positive)
      simp only [UnpackedFloat.normalize, hcompare]
      exact hasSign_round _ _ _

theorem HasSign.le_zero (h : HasSign .negative x) : UnpackedFloat.le x (.zero .positive) = true := by
  cases h <;> rfl

end Signs

end GoToSymbol.Decimal
