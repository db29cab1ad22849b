import Mathlib.Algebra.Order.Floor.Semiring
import Mathlib.Data.Int.Log
import Mathlib.Data.Rat.Floor
import Mathlib.Tactic.Linarith
import Mathlib.Tactic.NormNum
import Mathlib.Tactic.Positivity
import Mathlib.Tactic.Ring

namespace GoToSymbol.Decimal

/-- The natural number nearest to a fraction, the even one on a tie. -/
def nearestEven (q : ℚ) : ℕ :=
  let n := ⌊q⌋₊
  if q - n < 1 / 2 then n else if 1 / 2 < q - n then n + 1 else n + n % 2

section NearestEven

variable {p q : ℚ}

theorem nearestEven_natCast (n : ℕ) : nearestEven n = n := by simp [nearestEven]

theorem floor_le_nearestEven (q : ℚ) : ⌊q⌋₊ ≤ nearestEven q := by
  simp only [nearestEven]
  split_ifs <;> omega

theorem nearestEven_le_floor (q : ℚ) : nearestEven q ≤ ⌊q⌋₊ + 1 := by
  simp only [nearestEven]
  split_ifs <;> omega

theorem nearestEven_mono (h : p ≤ q) : nearestEven p ≤ nearestEven q := by
  rcases (Nat.floor_mono h).lt_or_eq with hlt | heq
  · calc nearestEven p ≤ ⌊p⌋₊ + 1 := nearestEven_le_floor p
      _ ≤ ⌊q⌋₊ := hlt
      _ ≤ nearestEven q := floor_le_nearestEven q
  · simp only [nearestEven, heq]
    -- The same floor lies below both, so that the case of `p` is not above the case of `q`.
    split_ifs
    all_goals first | omega | (exfalso; linarith)

theorem nearestEven_le {n : ℕ} (h : q ≤ n) : nearestEven q ≤ n :=
  nearestEven_natCast n ▸ nearestEven_mono h

theorem le_nearestEven {n : ℕ} (h : (n : ℚ) ≤ q) : n ≤ nearestEven q := by
  have hmono := nearestEven_mono h
  rwa [nearestEven_natCast] at hmono

theorem nearestEven_eq_zero_iff : nearestEven q = 0 ↔ q ≤ 1 / 2 := by
  constructor
  · intro hzero
    have hfloor : ⌊q⌋₊ = 0 := Nat.le_zero.mp (hzero ▸ floor_le_nearestEven q)
    by_contra hmore
    simp only [nearestEven, hfloor, Nat.cast_zero, sub_zero] at hzero
    rw [if_neg (by linarith), if_pos (by linarith)] at hzero
    exact absurd hzero (by decide)
  · intro hhalf
    have hfloor : ⌊q⌋₊ = 0 := Nat.floor_eq_zero.mpr (by linarith)
    simp only [nearestEven, hfloor, Nat.cast_zero, sub_zero]
    rcases hhalf.lt_or_eq with hlt | heq
    · rw [if_pos hlt]
    · rw [if_neg heq.ge.not_gt, if_neg heq.le.not_gt]

end NearestEven

/-- The exponent of the last bit that is kept of a fraction: 53 bits are kept, but none below
`2 ^ -1074`. -/
def lastBit (q : ℚ) : ℤ := max (Int.log 2 q - 52) (-1074)

/-- The fraction that binary64 has for a fraction. -/
def rounded (q : ℚ) : ℚ := nearestEven (q / 2 ^ lastBit q) * 2 ^ lastBit q

section Rounded

variable {p q : ℚ}

theorem two_zpow_pos (e : ℤ) : (0 : ℚ) < 2 ^ e := zpow_pos (by norm_num) e

theorem mul_two_zpow_pos {n : ℕ} (hn : 0 < n) (e : ℤ) : (0 : ℚ) < n * 2 ^ e :=
  mul_pos (by exact_mod_cast hn) (two_zpow_pos e)

theorem lastBit_ge (q : ℚ) : -1074 ≤ lastBit q := le_max_right _ _

theorem lastBit_mono (hp : 0 < p) (h : p ≤ q) : lastBit p ≤ lastBit q :=
  max_le_max (sub_le_sub_right (Int.log_mono_right hp h) 52) le_rfl

/-- What is kept of a fraction has 53 bits at most. -/
theorem scaled_lt (q : ℚ) : q / 2 ^ lastBit q < 2 ^ 53 := by
  have hlog : q < (2 : ℕ) ^ (Int.log 2 q + 1) := Int.lt_zpow_succ_log_self (by norm_num) q
  have hexponent : Int.log 2 q + 1 ≤ 53 + lastBit q := by
    have hlast : Int.log 2 q - 52 ≤ lastBit q := le_max_left _ _
    omega
  rw [div_lt_iff₀ (two_zpow_pos _)]
  calc q < (2 : ℚ) ^ (Int.log 2 q + 1) := by exact_mod_cast hlog
    _ ≤ 2 ^ (53 + lastBit q) := zpow_le_zpow_right₀ (by norm_num) hexponent
    _ = 2 ^ 53 * 2 ^ lastBit q := zpow_add₀ (by norm_num) _ _

/-- Above the least exponent all 53 bits are kept. -/
theorem le_scaled (hq : 0 < q) (h : -1074 < lastBit q) : (2 : ℚ) ^ 52 ≤ q / 2 ^ lastBit q := by
  have hlog : ((2 : ℕ) : ℚ) ^ Int.log 2 q ≤ q := Int.zpow_log_le_self (by norm_num) hq
  have hexponent : 52 + lastBit q = Int.log 2 q := by
    have hlast : lastBit q = max (Int.log 2 q - 52) (-1074) := rfl
    omega
  rw [le_div_iff₀ (two_zpow_pos _)]
  calc (2 : ℚ) ^ 52 * 2 ^ lastBit q = 2 ^ (52 + lastBit q) := (zpow_add₀ (by norm_num) 52 _).symm
    _ = 2 ^ Int.log 2 q := by rw [hexponent]
    _ ≤ q := by exact_mod_cast hlog

theorem rounded_zero : rounded 0 = 0 := by simp [rounded, nearestEven]

theorem rounded_nonneg (q : ℚ) : 0 ≤ rounded q :=
  mul_nonneg (Nat.cast_nonneg _) (two_zpow_pos _).le

theorem rounded_mono (hp : 0 ≤ p) (h : p ≤ q) : rounded p ≤ rounded q := by
  rcases hp.eq_or_lt with rfl | hpos
  · rw [rounded_zero]
    exact rounded_nonneg q
  have hposq : 0 < q := hpos.trans_le h
  rcases (lastBit_mono hpos h).eq_or_lt with heq | hlt
  · unfold rounded
    rw [heq]
    refine mul_le_mul_of_nonneg_right ?_ (two_zpow_pos _).le
    exact_mod_cast nearestEven_mono (div_le_div_of_nonneg_right h (two_zpow_pos _).le)
  · have hbelow : nearestEven (p / 2 ^ lastBit p) ≤ 2 ^ 53 :=
      nearestEven_le (by exact_mod_cast (scaled_lt p).le)
    have habove : 2 ^ 52 ≤ nearestEven (q / 2 ^ lastBit q) :=
      le_nearestEven (by exact_mod_cast le_scaled hposq (hlt.trans_le' (lastBit_ge p)))
    calc rounded p ≤ 2 ^ 53 * 2 ^ lastBit p :=
          mul_le_mul_of_nonneg_right (by exact_mod_cast hbelow) (two_zpow_pos _).le
      _ = 2 ^ 52 * 2 ^ (lastBit p + 1) := by rw [zpow_add_one₀ (by norm_num)]; ring
      _ ≤ 2 ^ 52 * 2 ^ lastBit q :=
          mul_le_mul_of_nonneg_left (zpow_le_zpow_right₀ (by norm_num) hlt) (by norm_num)
      _ ≤ rounded q := mul_le_mul_of_nonneg_right (by exact_mod_cast habove) (two_zpow_pos _).le

/-- What has 53 bits at most, and none below the last one, is kept as it is. -/
theorem rounded_exact {n : ℕ} {e : ℤ} (hn : n < 2 ^ 53) (he : -1074 ≤ e) :
    rounded (n * 2 ^ e) = n * 2 ^ e := by
  rcases n.eq_zero_or_pos with rfl | hpos
  · simp [rounded_zero]
  have hvalue : (0 : ℚ) < n * 2 ^ e := mul_two_zpow_pos hpos e
  have hlast : lastBit (n * 2 ^ e) ≤ e := by
    have hlog : Int.log 2 ((n : ℚ) * 2 ^ e) < 53 + e := by
      rw [← Int.lt_zpow_iff_log_lt (by norm_num) hvalue]
      have hless : (n : ℚ) * 2 ^ e < 2 ^ 53 * 2 ^ e :=
        mul_lt_mul_of_pos_right (by exact_mod_cast hn) (two_zpow_pos e)
      calc (n : ℚ) * 2 ^ e < 2 ^ 53 * 2 ^ e := hless
        _ = 2 ^ (53 + e) := (zpow_add₀ (by norm_num) 53 e).symm
        _ = ((2 : ℕ) : ℚ) ^ (53 + e) := by norm_num
    exact max_le (by omega) he
  obtain ⟨k, hk⟩ : ∃ k : ℕ, e = lastBit ((n : ℚ) * 2 ^ e) + k :=
    ⟨(e - lastBit ((n : ℚ) * 2 ^ e)).toNat, by omega⟩
  have hscaled : (n : ℚ) * 2 ^ e / 2 ^ lastBit (n * 2 ^ e) = (n * 2 ^ k : ℕ) := by
    rw [div_eq_iff (two_zpow_pos _).ne']
    push_cast
    conv_lhs => rw [hk, zpow_add₀ (by norm_num), zpow_natCast]
    ring
  rw [rounded, hscaled, nearestEven_natCast, ← hscaled, div_mul_cancel₀ _ (two_zpow_pos _).ne']

theorem rounded_one : rounded 1 = 1 := by
  have hone := rounded_exact (n := 1) (e := 0) (by norm_num) (by norm_num)
  simpa using hone

theorem rounded_le_one (hq : 0 ≤ q) (h : q ≤ 1) : rounded q ≤ 1 := rounded_one ▸ rounded_mono hq h

theorem half_last : 1 / 2 * (2 : ℚ) ^ (-1074 : ℤ) = 2 ^ (-1075 : ℤ) :=
  calc 1 / 2 * (2 : ℚ) ^ (-1074 : ℤ) = 2 ^ (-1 : ℤ) * 2 ^ (-1074 : ℤ) := by rw [zpow_neg_one, one_div]
    _ = 2 ^ (-1075 : ℤ) := (zpow_add₀ (by norm_num) (-1) (-1074)).symm

/-- Nothing is left just of what half of the last bit reaches. -/
theorem rounded_eq_zero_iff (hq : 0 ≤ q) : rounded q = 0 ↔ q ≤ 2 ^ (-1075 : ℤ) := by
  rcases hq.eq_or_lt with rfl | hpos
  · exact iff_of_true rounded_zero (two_zpow_pos _).le
  have hhalf : rounded q = 0 ↔ q / 2 ^ lastBit q ≤ 1 / 2 := by
    rw [rounded, mul_eq_zero, or_iff_left (two_zpow_pos _).ne', Nat.cast_eq_zero,
      nearestEven_eq_zero_iff]
  rw [hhalf]
  rcases (lastBit_ge q).eq_or_lt with hleast | hmore
  · rw [← hleast, div_le_iff₀ (two_zpow_pos _), half_last]
  · have hscaled := le_scaled hpos hmore
    refine iff_of_false (by linarith) (not_le.mpr ?_)
    rw [le_div_iff₀ (two_zpow_pos _)] at hscaled
    have hlast : (2 : ℚ) ^ (-1074 : ℤ) ≤ 2 ^ lastBit q := zpow_le_zpow_right₀ (by norm_num) hmore.le
    have hleast := two_zpow_pos (-1074)
    calc (2 : ℚ) ^ (-1075 : ℤ) < 2 ^ 52 * 2 ^ (-1074 : ℤ) := by rw [← half_last]; linarith
      _ ≤ 2 ^ 52 * 2 ^ lastBit q := mul_le_mul_of_nonneg_left hlast (by norm_num)
      _ ≤ q := hscaled

end Rounded

end GoToSymbol.Decimal
