import GoToSymbol.Decimal.Binary
import GoToSymbol.Proofs.Decimal.Unpacked

namespace GoToSymbol.Decimal

open Float.Model (Format UnpackedFloat)
open Float.Model.UnpackedFloat

section Packing

variable {m : ℕ} {e : ℤ} {x : UnpackedFloat} {q : ℚ}

/-- The exponent field of a number below `2 ^ 1024`. -/
theorem exponent_field {n : ℕ} (h : n < 2047) :
    (BitVec.ofNat 11 n).toNat = n ∧ BitVec.ofNat 11 n ≠ -1#11 ∧ (0 < n → BitVec.ofNat 11 n ≠ 0#11) := by
  have hvalue : (BitVec.ofNat 11 n).toNat = n := by
    rw [BitVec.toNat_ofNat]
    omega
  refine ⟨hvalue, fun hlast => ?_, fun hpos hfirst => ?_⟩
  · have hn : n = 2047 := hvalue.symm.trans (congrArg BitVec.toNat hlast)
    omega
  · have hn : n = 0 := hvalue.symm.trans (congrArg BitVec.toNat hfirst)
    omega

/-- The implicit bit on top of a mantissa field. -/
theorem implicit_bit (f : BitVec 52) : (1#1 ++ f).toNat = 2 ^ 52 + f.toNat := by
  rw [BitVec.toNat_append, BitVec.toNat_ofNat, Nat.one_mod, Nat.one_shiftLeft]
  exact (Nat.two_pow_add_eq_or_of_lt f.isLt 1).symm

/-- What fits into the bits comes out of them again. -/
theorem unpack_pack_finite (hm : 0 < m) (h : Canonical m e) (he : e ≤ 971) :
    unpack Format.binary64 (pack Format.binary64 (.finite .positive m e hm)) =
      .finite .positive m e hm := by
  have hge := h.ge
  have hlt := h.lt
  have hfits : ¬ 2 ^ 11 ≤ (e + (1023 : ℕ) + (52 : ℕ)).toNat + 1 := by omega
  obtain ⟨hvalue, hfinite, hnormal⟩ :=
    exponent_field (n := (e + (1023 : ℕ) + (52 : ℕ)).toNat) (by omega)
  have hpack : pack Format.binary64 (.finite .positive m e hm) =
      if m.log2 + 1 = 53 then
        packComponents Format.binary64 .positive (BitVec.ofNat 11 (e + (1023 : ℕ) + (52 : ℕ)).toNat)
          (BitVec.ofNat 52 m)
      else packComponents Format.binary64 .positive 0#11 (BitVec.ofNat 52 m) := if_neg hfits
  rw [hpack]
  by_cases hfull : 2 ^ 52 ≤ m
  · have hlog : m.log2 + 1 = 53 := by
      rw [(Nat.log2_eq_iff hm.ne').mpr ⟨hfull, hlt⟩]
    have hmantissa : (1#1 ++ BitVec.ofNat 52 m).toNat = m := by
      rw [implicit_bit, BitVec.toNat_ofNat]
      omega
    rw [if_pos hlog]
    simp only [unpack, unpackMantissa_packComponents, unpackExponent_packComponents,
      unpackSign_packComponents, if_neg hfinite, if_neg (hnormal (by omega)), hvalue, hmantissa]
    have hexponent : ((e + (1023 : ℕ) + (52 : ℕ)).toNat : ℤ) - ((1023 : ℕ) + (52 : ℕ)) = e := by omega
    exact congrArg (UnpackedFloat.finite .positive m · hm) hexponent
  · have hleast : e = -1074 := h.full.resolve_right hfull
    have hlog : ¬ m.log2 + 1 = 53 := by
      have hless := (Nat.log2_lt hm.ne').mpr (not_le.mp hfull)
      omega
    have hmantissa : (BitVec.ofNat 52 m).toNat = m := by
      rw [BitVec.toNat_ofNat]
      omega
    have hsome : BitVec.ofNat 52 m ≠ 0#52 := fun hnone =>
      hm.ne' (hmantissa.symm.trans (congrArg BitVec.toNat hnone))
    rw [if_neg hlog]
    simp only [unpack, unpackMantissa_packComponents, unpackExponent_packComponents,
      unpackSign_packComponents, dif_neg hsome, hmantissa, hleast]
    rfl

theorem top_le_iff (h : Canonical m e) : (2 : ℚ) ^ (1024 : ℤ) ≤ m * 2 ^ e ↔ 971 < e := by
  constructor
  · intro htop
    by_contra hle
    have hless : (m : ℚ) * 2 ^ e < 2 ^ 53 * 2 ^ (971 : ℤ) := by
      refine mul_lt_mul (by exact_mod_cast h.lt) ?_ (two_zpow_pos e) (by norm_num)
      exact zpow_le_zpow_right₀ (by norm_num) (not_lt.mp hle)
    exact htop.not_gt (hless.trans_eq (zpow_add₀ (by norm_num) 53 971).symm)
  · intro hgreat
    have hfull : 2 ^ 52 ≤ m := h.full.resolve_left (by omega)
    calc (2 : ℚ) ^ (1024 : ℤ) = 2 ^ 52 * 2 ^ (972 : ℤ) := zpow_add₀ (by norm_num) 52 972
      _ ≤ m * 2 ^ e := by
        refine mul_le_mul (by exact_mod_cast hfull) ?_ (two_zpow_pos _).le (Nat.cast_nonneg _)
        exact zpow_le_zpow_right₀ (by norm_num) hgreat

theorem unpack_pack (h : Denotes x q) (hq : q < 2 ^ (1024 : ℤ)) :
    unpack Format.binary64 (pack Format.binary64 x) = x := by
  cases h with
  | zero => exact unpack_packedZero
  | finite hm hc => exact unpack_pack_finite hm hc (not_lt.mp (mt (top_le_iff hc).mpr hq.not_ge))

/-- From `2 ^ 1024` on there is but infinity. -/
theorem unpack_pack_top (h : Denotes x q) (hq : 2 ^ (1024 : ℤ) ≤ q) :
    unpack Format.binary64 (pack Format.binary64 x) = .infinity .positive := by
  cases h with
  | zero => exact absurd hq (two_zpow_pos _).not_ge
  | @finite m e hm hc =>
    have hgreat := (top_le_iff hc).mp hq
    have htop : 2 ^ 11 ≤ (e + (1023 : ℕ) + (52 : ℕ)).toNat + 1 := by omega
    have hpack : pack Format.binary64 (.finite .positive m e hm) =
        packedInfinity Format.binary64 .positive := if_pos htop
    rw [hpack]
    rfl

theorem unpackSign_pack {s : Sign} (h : HasSign s x) :
    unpackSign (pack Format.binary64 x) = s.toBitVec := by
  cases h with
  | infinity => exact unpackSign_packComponents _ _ _
  | zero => exact unpackSign_packComponents _ _ _
  | finite hm =>
    rw [pack]
    split
    · exact unpackSign_packComponents _ _ _
    · split
      · exact unpackSign_packComponents _ _ _
      · exact unpackSign_packComponents _ _ _

/-- Packing keeps the sign. -/
theorem negative_unpack_pack (h : HasSign .negative x) :
    HasSign .negative (unpack Format.binary64 (pack Format.binary64 x)) := by
  have hsign : unpackSign (pack Format.binary64 x) = 1#1 := unpackSign_pack h
  have hnegative : Sign.ofBitVec 1#1 = .negative := rfl
  rw [unpack]
  simp only [hsign, hnegative]
  split_ifs with hlast hnone
  · exact .infinity
  · -- The only bits without a number have the other sign.
    have hnan := (valid_pack (f := x)).eq_packedNaN hlast hnone
    rw [hnan] at hsign
    exact absurd hsign (by decide)
  · exact .zero
  · exact .finite _
  · exact .finite _

end Packing

section Reading

variable {x : Float} {m : ℕ} {e : ℤ}

theorem exponent_bits (b : BitVec 64) :
    (@unpackExponent Format.binary64 b).toNat = b.toNat / 2 ^ 52 % 2 ^ 11 := by
  rw [unpackExponent_def, BitVec.extractLsb'_toNat, Nat.shiftRight_eq_div_pow]

theorem mantissa_bits (b : BitVec 64) :
    (@unpackMantissa Format.binary64 b).toNat = b.toNat % 2 ^ 52 := by
  rw [unpackMantissa_def, BitVec.extractLsb'_toNat, Nat.shiftRight_eq_div_pow, pow_zero, Nat.div_one]

theorem sign_bit (b : BitVec 64) :
    Sign.ofBitVec (@unpackSign Format.binary64 b) = .positive ↔ b.toNat < 2 ^ 63 := by
  have hzero (s : BitVec 1) : Sign.ofBitVec s = .positive ↔ s.toNat = 0 := by
    simp [Sign.ofBitVec, BitVec.toNat_eq]
  have hbit : (@unpackSign Format.binary64 b).toNat = b.toNat / 2 ^ 63 % 2 := by
    rw [unpackSign_def, BitVec.extractLsb'_toNat, Nat.shiftRight_eq_div_pow]
    rfl
  rw [hzero, hbit]
  omega

theorem ofBits?_fields {b : UInt64} {n f : ℕ} (hn : b.toNat / 2 ^ 52 % 2 ^ 11 = n)
    (hf : b.toNat % 2 ^ 52 = f) (hpositive : b.toNat < 2 ^ 63) :
    Binary.ofBits? b = if n = 2047 then none else if n = 0 then some ⟨false, f, -1074, false⟩
      else some ⟨false, 2 ^ 52 + f, (n : ℤ) - 1075, f == 0 && 1 < n⟩ := by
  have hsign : decide (Nat.pow 2 63 ≤ b.toNat) = false := decide_eq_false (not_le.mpr hpositive)
  subst hn hf
  simp only [Binary.ofBits?, hsign]
  rfl

/-- The bits of a positive number tell its mantissa and its exponent. -/
theorem ofFloat?_finite {hm : 0 < m} (h : x.toModel.unpack = .finite .positive m e hm) :
    (∃ narrow, Binary.ofFloat? x = some ⟨false, m, e, narrow⟩) ∧ Canonical m e ∧ e ≤ 971 := by
  set b := x.toModel.toBits.toBitVec with hb
  have hexponent := exponent_bits b
  have hmantissa := mantissa_bits b
  change unpack Format.binary64 b = _ at h
  simp only [unpack] at h
  split_ifs at h with hlast hnone hfirst hzero
  · injection h with hs hm' he'
    have hleast : e = -1074 := by
      rw [← he', hfirst]
      rfl
    have hfields := ofBits?_fields (b := x.toBits) hexponent.symm hmantissa.symm ((sign_bit b).mp hs)
    rw [hfirst, hm', if_neg (by decide), if_pos (by decide)] at hfields
    subst hleast
    exact ⟨⟨_, hfields⟩, ⟨by omega, le_rfl, .inl rfl⟩, by norm_num⟩
  · injection h with hs hm' he'
    have hfields := ofBits?_fields (b := x.toBits) hexponent.symm hmantissa.symm ((sign_bit b).mp hs)
    have hn : (@unpackExponent Format.binary64 b).toNat ≠ 0 := fun h =>
      hfirst (BitVec.toNat_inj.mp h)
    have hn' : (@unpackExponent Format.binary64 b).toNat ≠ 2047 := fun h =>
      hlast (BitVec.toNat_inj.mp h)
    have he : ((@unpackExponent Format.binary64 b).toNat : ℤ) - 1075 = e := he'
    rw [implicit_bit] at hm'
    rw [if_neg hn', if_neg hn, hm', he] at hfields
    exact ⟨⟨_, hfields⟩, ⟨by omega, by omega, .inr (by omega)⟩, by omega⟩

/-- A number of the machine has only these bits. -/
theorem eq_pack (x : Float) : x = ⟨Float.Model.pack x.toModel.unpack⟩ := (Float.ofBits_toBits x).symm

theorem ofFloat?_zero (h : x.toModel.unpack = .zero .positive) :
    Binary.ofFloat? x = some ⟨false, 0, -1074, false⟩ := by
  rw [eq_pack x, h]
  rfl

theorem ofFloat?_infinity (h : x.toModel.unpack = .infinity .positive) :
    Binary.ofFloat? x = none := by
  rw [eq_pack x, h]
  rfl

theorem toRat_positive (m : ℕ) (e : ℤ) (narrow : Bool) :
    (⟨false, m, e, narrow⟩ : Binary).toRat = m * 2 ^ e := by
  rw [Binary.toRat]
  split
  · next h =>
    obtain ⟨k, rfl⟩ := Int.eq_ofNat_of_zero_le h
    simp [Binary.signed]
  · next h =>
    have he : e < 0 := not_le.mp h
    obtain ⟨k, rfl⟩ : ∃ k : ℕ, e = -k := ⟨(-e).toNat, by omega⟩
    simp [Binary.signed, Rat.mkRat_eq_div, div_eq_mul_inv]

theorem ceil_positive {narrow : Bool} (hm : 0 < m) : 0 < (⟨false, m, e, narrow⟩ : Binary).ceil := by
  have hmantissa : 0 < (m : ℤ) := by exact_mod_cast hm
  rw [Binary.ceil]
  split
  · exact mul_pos hmantissa (Int.pow_pos (by norm_num))
  · have hbase : 0 < Int.pow 2 (-e).toNat := Int.pow_pos (by norm_num)
    have hless : -(m : ℤ) < 0 := neg_neg_of_pos hmantissa
    rw [Int.fdiv_eq_ediv_of_nonneg _ hbase.le]
    exact neg_pos.mpr (Int.ediv_neg_of_neg_of_pos hless hbase)

end Reading

/-- The fraction that a number of the machine is; infinities and what is no number are none. -/
def fraction (x : Float) : ℚ := ((Binary.ofFloat? x).map Binary.toRat).getD 0

/-- A number of the machine is a fraction that is not negative. -/
def Stands (x : Float) (q : ℚ) : Prop := Denotes x.toModel.unpack q

section Numbers

variable {x y : Float} {p q : ℚ}

theorem stands_finite {m : ℕ} {e : ℤ} {hm : 0 < m} (h : x.toModel.unpack = .finite .positive m e hm) :
    Stands x (m * 2 ^ e) := by
  rw [Stands, h]
  exact .finite hm (ofFloat?_finite h).2.1

/-- What a number stands for, by the form of its bits. -/
theorem Stands.cases (h : Stands x q) : (x.toModel.unpack = .zero .positive ∧ q = 0) ∨
    ∃ m e hm, x.toModel.unpack = .finite .positive m e hm ∧ q = m * 2 ^ e := by
  rw [Stands] at h
  generalize x.toModel.unpack = z at h
  cases h with
  | zero => exact .inl ⟨rfl, rfl⟩
  | finite hm _ => exact .inr ⟨_, _, hm, rfl, rfl⟩

theorem Stands.fraction_eq (h : Stands x q) : fraction x = q := by
  obtain ⟨hx, rfl⟩ | ⟨m, e, hm, hx, rfl⟩ := h.cases
  · rw [fraction, ofFloat?_zero hx, Option.map_some, Option.getD_some, toRat_positive, Nat.cast_zero,
      zero_mul]
  · obtain ⟨⟨narrow, hread⟩, _⟩ := ofFloat?_finite hx
    rw [fraction, hread]
    exact toRat_positive m e narrow

theorem Stands.lt_top (h : Stands x q) : q < 2 ^ (1024 : ℤ) := by
  obtain ⟨hx, rfl⟩ | ⟨m, e, hm, hx, rfl⟩ := h.cases
  · exact two_zpow_pos _
  · obtain ⟨_, hcanonical, he⟩ := ofFloat?_finite hx
    exact not_le.mp (mt (top_le_iff hcanonical).mp he.not_gt)

theorem Stands.nonneg (h : Stands x q) : 0 ≤ q := Denotes.nonneg h

theorem Stands.rounded_eq (h : Stands x q) : rounded q = q := Denotes.rounded_eq h

theorem stands_pack {z : UnpackedFloat} (h : Denotes z q) (hq : q < 2 ^ (1024 : ℤ)) :
    Stands ⟨Float.Model.pack z⟩ q := by
  have hz : (⟨Float.Model.pack z⟩ : Float).toModel.unpack = z := unpack_pack h hq
  rw [Stands, hz]
  exact h

theorem stands_mul (hx : Stands x p) (hy : Stands y q) (h : rounded (p * q) < 2 ^ (1024 : ℤ)) :
    Stands (x * y) (rounded (p * q)) :=
  stands_pack (denotes_mul hx hy) h

theorem stands_sub (hx : Stands x p) (hy : Stands y q) (h : q ≤ p) :
    Stands (x - y) (rounded (p - q)) := by
  refine stands_pack (denotes_sub hx hy h) ?_
  calc rounded (p - q) ≤ rounded p := rounded_mono (sub_nonneg.mpr h) (sub_le_self p hy.nonneg)
    _ = p := hx.rounded_eq
    _ < 2 ^ (1024 : ℤ) := hx.lt_top

end Numbers

section Comparisons

variable {x y : Float} {p q : ℚ}

theorem le_iff_unpack (x y : Float) :
    x ≤ y ↔ UnpackedFloat.le x.toModel.unpack y.toModel.unpack = true := decide_eq_true_iff

theorem lt_iff_unpack (x y : Float) :
    x < y ↔ UnpackedFloat.lt x.toModel.unpack y.toModel.unpack = true := decide_eq_true_iff

theorem unpack_zero : (0.0 : Float).toModel.unpack = .zero .positive := by rfl

theorem unpack_one :
    (1.0 : Float).toModel.unpack = .finite .positive (2 ^ 52) (-52) (Nat.two_pow_pos 52) := by rfl

theorem Stands.le_zero_iff (h : Stands x q) : x ≤ 0.0 ↔ q = 0 := by
  rw [le_iff_unpack, unpack_zero]
  obtain ⟨hx, rfl⟩ | ⟨m, e, hm, hx, rfl⟩ := h.cases
  · rw [hx]
    exact iff_of_true rfl rfl
  · rw [hx]
    exact iff_of_false Bool.false_ne_true (mul_two_zpow_pos hm e).ne'

theorem Stands.zero_lt_iff (h : Stands x q) : 0.0 < x ↔ q ≠ 0 := by
  rw [lt_iff_unpack, unpack_zero]
  obtain ⟨hx, rfl⟩ | ⟨m, e, hm, hx, rfl⟩ := h.cases
  · rw [hx]
    exact iff_of_false Bool.false_ne_true (not_not.mpr rfl)
  · rw [hx]
    exact iff_of_true rfl (mul_two_zpow_pos hm e).ne'

/-- What is positive is infinite or has a mantissa and an exponent. -/
theorem positive_form (h : 0.0 < x) : x.toModel.unpack = .infinity .positive ∨
    ∃ m e hm, x.toModel.unpack = .finite .positive m e hm := by
  rw [lt_iff_unpack, unpack_zero] at h
  generalize x.toModel.unpack = z at h
  cases z with
  | notANumber => exact absurd h Bool.false_ne_true
  | zero s => exact absurd h Bool.false_ne_true
  | infinity s =>
    cases s with
    | negative => exact absurd h Bool.false_ne_true
    | positive => exact .inl rfl
  | finite s m e hm =>
    cases s with
    | negative => exact absurd h Bool.false_ne_true
    | positive => exact .inr ⟨m, e, hm, rfl⟩

/-- What is not negative is positive or a zero, which may have a sign. -/
theorem not_negative_form (h : 0.0 ≤ x) : 0.0 < x ∨ ∃ s, x.toModel.unpack = .zero s := by
  rw [le_iff_unpack, unpack_zero] at h
  rw [lt_iff_unpack, unpack_zero]
  generalize x.toModel.unpack = z at h
  cases z with
  | notANumber => exact absurd h Bool.false_ne_true
  | zero s => exact .inr ⟨s, rfl⟩
  | infinity s =>
    cases s with
    | negative => exact absurd h Bool.false_ne_true
    | positive => exact .inl rfl
  | finite s m e hm =>
    cases s with
    | negative => exact absurd h Bool.false_ne_true
    | positive => exact .inl rfl

theorem not_le_zero (h : 0.0 < x) : ¬ x ≤ 0.0 := by
  rw [le_iff_unpack, unpack_zero]
  obtain hx | ⟨m, e, hm, hx⟩ := positive_form h
  · rw [hx]
    exact Bool.false_ne_true
  · rw [hx]
    exact Bool.false_ne_true

/-- A number between zero and one stands for a fraction between zero and one. -/
theorem stands_fraction (h : 0.0 < x) (h' : x < 1.0) :
    Stands x (fraction x) ∧ 0 < fraction x ∧ fraction x < 1 := by
  rw [lt_iff_unpack, unpack_one] at h'
  obtain hx | ⟨m, e, hm, hx⟩ := positive_form h
  · rw [hx] at h'
    exact absurd h' Bool.false_ne_true
  · have hstands := stands_finite hx
    rw [hstands.fraction_eq]
    refine ⟨hstands, mul_two_zpow_pos hm e, ?_⟩
    rw [hx] at h'
    -- Exponents are compared first: with 53 bits a smaller one means a smaller number.
    have hcompare : (compare e (-52)).then (compare m (2 ^ 52)) = .lt := by
      simpa [UnpackedFloat.lt, UnpackedFloat.compare] using h'
    rcases Ordering.then_eq_lt.mp hcompare with hlow | ⟨hsame, hfew⟩
    · have hlast : e ≤ -53 := by
        have hless := Int.compare_eq_lt.mp hlow
        omega
      obtain ⟨_, hcanonical, _⟩ := ofFloat?_finite hx
      calc (m : ℚ) * 2 ^ e < 2 ^ 53 * 2 ^ (-53 : ℤ) :=
            mul_lt_mul (by exact_mod_cast hcanonical.lt) (zpow_le_zpow_right₀ (by norm_num) hlast)
              (two_zpow_pos e) (by norm_num)
        _ = 1 := by norm_num
    · obtain rfl := Int.compare_eq_eq.mp hsame
      have hless := Nat.compare_eq_lt.mp hfew
      calc (m : ℚ) * 2 ^ (-52 : ℤ) < 2 ^ 52 * 2 ^ (-52 : ℤ) :=
            mul_lt_mul_of_pos_right (by exact_mod_cast hless) (two_zpow_pos _)
        _ = 1 := by norm_num

/-- What is below one is below it by half a unit of its last place at least. -/
theorem Stands.gap_below_one (h : Stands x q) (hq : q < 1) : 2 ^ (-53 : ℤ) ≤ 1 - q := by
  obtain ⟨hx, rfl⟩ | ⟨m, e, hm, hx, rfl⟩ := h.cases
  · rw [sub_zero]
    exact zpow_le_one_of_nonpos₀ (by norm_num) (by norm_num)
  · obtain ⟨_, hcanonical, _⟩ := ofFloat?_finite hx
    have hlast : e ≤ -53 := by
      by_contra hmore
      have hfull : 2 ^ 52 ≤ m := hcanonical.full.resolve_left (by omega)
      refine hq.not_ge ?_
      calc (1 : ℚ) = 2 ^ 52 * 2 ^ (-52 : ℤ) := by norm_num
        _ ≤ m * 2 ^ e := mul_le_mul (by exact_mod_cast hfull)
            (zpow_le_zpow_right₀ (by norm_num) (by omega : -52 ≤ e)) (two_zpow_pos _).le (Nat.cast_nonneg _)
    have hmantissa : (m : ℚ) ≤ 2 ^ 53 - 1 := by
      have hnext : (m : ℚ) + 1 ≤ 2 ^ 53 := by exact_mod_cast hcanonical.lt
      linarith
    have hbound : (m : ℚ) * 2 ^ e ≤ (2 ^ 53 - 1) * 2 ^ (-53 : ℤ) :=
      mul_le_mul hmantissa (zpow_le_zpow_right₀ (by norm_num) hlast) (two_zpow_pos _).le (by norm_num)
    have hone : (2 ^ 53 - 1) * (2 : ℚ) ^ (-53 : ℤ) = 1 - 2 ^ (-53 : ℤ) := by norm_num
    linarith

end Comparisons

section Signs

variable {x y : Float} {p q : ℚ}

/-- What an operation gives is positive where something is left, however great it is. -/
theorem zero_lt_pack {z : UnpackedFloat} (h : Denotes z q) (hq : 0 < q) :
    0.0 < (⟨Float.Model.pack z⟩ : Float) := by
  rcases lt_or_ge q (2 ^ (1024 : ℤ)) with hless | htop
  · exact (stands_pack h hless).zero_lt_iff.mpr hq.ne'
  · have hinfinity : (⟨Float.Model.pack z⟩ : Float).toModel.unpack = .infinity .positive :=
      unpack_pack_top h htop
    rw [lt_iff_unpack, unpack_zero, hinfinity]
    rfl

/-- What has the sign of a negative number is not above zero once it is packed. -/
theorem pack_le_zero {z : UnpackedFloat} (h : HasSign .negative z) :
    (⟨Float.Model.pack z⟩ : Float) ≤ 0.0 := by
  rw [le_iff_unpack, unpack_zero]
  exact (negative_unpack_pack h).le_zero

theorem sub_le_zero (hx : Stands x p) (hy : Stands y q) (h : p < q) : x - y ≤ 0.0 :=
  pack_le_zero (negative_sub hx hy h)

theorem sub_infinity_le_zero (hx : Stands x p) (hy : y.toModel.unpack = .infinity .positive) :
    x - y ≤ 0.0 := by
  have hdifference := Denotes.sub_infinity hx
  rw [← hy] at hdifference
  exact pack_le_zero (hdifference ▸ .infinity)

theorem mul_infinity (hx : Stands x p) (hp : 0 < p) (hy : y.toModel.unpack = .infinity .positive) :
    (x * y).toModel.unpack = .infinity .positive := by
  have hproduct := Denotes.mul_infinity hx hp
  rw [← hy] at hproduct
  change unpack Format.binary64 (pack Format.binary64
    (UnpackedFloat.mul Format.binary64 x.toModel.unpack y.toModel.unpack)) = _
  rw [hproduct, hy]
  rfl

/-- A number that is not negative adds nothing or makes the sum positive. -/
theorem add_cases (hx : Stands x p) (hy : 0.0 ≤ y) :
    ¬ 0.0 < y ∧ x + y = x ∨ 0.0 < y ∧ 0.0 < x + y := by
  have hsum : x + y = ⟨Float.Model.pack
      (UnpackedFloat.add Format.binary64 x.toModel.unpack y.toModel.unpack)⟩ := rfl
  obtain hpositive | ⟨s, hzero⟩ := not_negative_form hy
  · refine .inr ⟨hpositive, ?_⟩
    obtain hinfinity | ⟨n, d, hn, hfinite⟩ := positive_form hpositive
    · rw [hsum, hinfinity, Denotes.add_infinity hx]
      rfl
    · have hy' := stands_finite hfinite
      have hmore : 0 < rounded (p + n * 2 ^ d) :=
        calc (0 : ℚ) < n * 2 ^ d := mul_two_zpow_pos hn d
          _ = rounded (n * 2 ^ d) := hy'.rounded_eq.symm
          _ ≤ rounded (p + n * 2 ^ d) := rounded_mono hy'.nonneg (le_add_of_nonneg_left hx.nonneg)
      exact zero_lt_pack (denotes_add hx hy') hmore
  · refine .inl ⟨?_, ?_⟩
    · rw [lt_iff_unpack, unpack_zero, hzero]
      exact Bool.false_ne_true
    · rw [hsum, hzero, Denotes.add_signed_zero hx]
      exact (eq_pack x).symm

end Signs

section Integers

theorem stands_one : Stands 1.0 1 := by
  have hone := @stands_finite 1.0 (2 ^ 52) (-52) (by norm_num) (by rfl)
  norm_num at hone
  exact hone

theorem stands_half : Stands 0.5 (1 / 2) := by
  have hhalf := @stands_finite 0.5 (2 ^ 52) (-53) (by norm_num) (by rfl)
  norm_num at hhalf
  exact hhalf

/-- The number of the machine for a natural number, before it is packed. -/
theorem floatOfInt_natCast (n : ℕ) :
    ∃ z, floatOfInt n = ⟨Float.Model.pack z⟩ ∧ Denotes z (rounded n) := by
  have hsign : ¬ (n : ℤ) < 0 := not_lt.mpr (Int.natCast_nonneg n)
  simp only [floatOfInt, if_neg hsign, Int.natAbs_natCast, Float.ofScientific]
  split
  · next h =>
    -- A number of 53 bits is converted as a word, and multiplied by one.
    have hexact : rounded n = n := by
      have hkept := rounded_exact h.1 (by norm_num : (-1074 : ℤ) ≤ 0)
      rwa [zpow_zero, mul_one] at hkept
    have htop : rounded n < 2 ^ (1024 : ℤ) := by
      rw [hexact]
      calc (n : ℚ) < 2 ^ (53 : ℤ) := by exact_mod_cast h.1
        _ ≤ 2 ^ (1024 : ℤ) := zpow_le_zpow_right₀ (by norm_num) (by norm_num)
    have hword : Stands n.toUInt64.toFloat (rounded n) := by
      have hnat : n.toUInt64.toNat = n := UInt64.toNat_ofNat_of_lt (h.1.trans (by norm_num))
      have hconverted : Denotes (ofUInt64 Format.binary64 n.toUInt64) (rounded n.toUInt64.toNat) :=
        denotes_ofNat n.toUInt64.toNat
      rw [hnat] at hconverted
      exact stands_pack hconverted htop
    have hone : Float.exactlyRepresentablePowersOfTen[0] = 1.0 := by rfl
    have hproduct := denotes_mul hword stands_one
    rw [mul_one, hword.rounded_eq] at hproduct
    simp only [hone]
    exact ⟨_, rfl, hproduct⟩
  · exact ⟨_, rfl, denotes_ofScientific n⟩

end Integers

section Reciprocal

variable {x : Float} {q : ℚ}

/-- The first number above `2 ^ -1024` is a good deal above it, as numbers that small have few bits. -/
theorem Stands.above_gap (h : Stands x q) (hq : 2 ^ (-1024 : ℤ) < q) :
    (2 ^ 50 + 1) * 2 ^ (-1074 : ℤ) ≤ q := by
  have hpos : 0 < q := (two_zpow_pos (-1024)).trans hq
  obtain ⟨hx, hzero⟩ | ⟨m, e, hm, hx, rfl⟩ := h.cases
  · exact absurd hzero hpos.ne'
  · obtain ⟨_, hcanonical, _⟩ := ofFloat?_finite hx
    have hge := hcanonical.ge
    obtain ⟨k, rfl⟩ : ∃ k : ℕ, e = -1074 + k := ⟨(e + 1074).toNat, by omega⟩
    have hunits : (m : ℚ) * 2 ^ (-1074 + k : ℤ) = (m * 2 ^ k : ℕ) * 2 ^ (-1074 : ℤ) := by
      rw [zpow_add₀ (by norm_num), zpow_natCast, Nat.cast_mul, Nat.cast_pow, Nat.cast_two,
        mul_comm ((2 : ℚ) ^ (-1074 : ℤ)), mul_assoc]
    have hgap : (2 : ℚ) ^ (-1024 : ℤ) = 2 ^ 50 * 2 ^ (-1074 : ℤ) := zpow_add₀ (by norm_num) 50 (-1074)
    rw [hunits] at hq ⊢
    rw [hgap] at hq
    have hmore : (2 ^ 50 : ℚ) < (m * 2 ^ k : ℕ) := lt_of_mul_lt_mul_right hq (two_zpow_pos _).le
    have hnext : 2 ^ 50 + 1 ≤ m * 2 ^ k := by exact_mod_cast hmore
    exact mul_le_mul_of_nonneg_right (by exact_mod_cast hnext) (two_zpow_pos _).le

/-- The reciprocal is too great for the machine just up to `2 ^ -1024`. -/
theorem rounded_inverse_lt_top (h : Stands x q) (hpos : 0 < q) :
    rounded (1 / q) < 2 ^ (1024 : ℤ) ↔ 2 ^ (-1024 : ℤ) < q := by
  constructor
  · intro hless
    by_contra hsmall
    have hgreat : (2 : ℚ) ^ (1024 : ℤ) ≤ 1 / q := by
      rw [le_div_iff₀ hpos]
      calc (2 : ℚ) ^ (1024 : ℤ) * q ≤ 2 ^ (1024 : ℤ) * 2 ^ (-1024 : ℤ) :=
            mul_le_mul_of_nonneg_left (not_lt.mp hsmall) (two_zpow_pos _).le
        _ = 2 ^ (0 : ℤ) := (zpow_add₀ (by norm_num) 1024 (-1024)).symm
        _ = 1 := zpow_zero _
    have hkept : rounded (2 ^ (1024 : ℤ)) = 2 ^ (1024 : ℤ) := by
      have hexact := rounded_exact (n := 1) (e := 1024) (by norm_num) (by norm_num)
      rwa [Nat.cast_one, one_mul] at hexact
    have hmono := rounded_mono (two_zpow_pos 1024).le hgreat
    rw [hkept] at hmono
    exact hmono.not_gt hless
  · intro hmore
    have hgap := h.above_gap hmore
    have hbound : 1 / q ≤ (2 ^ 53 - 4 : ℕ) * 2 ^ (971 : ℤ) := by
      have hpowers : (2 : ℚ) ^ (-103 : ℤ) = 2 ^ (971 : ℤ) * 2 ^ (-1074 : ℤ) :=
        zpow_add₀ (by norm_num) 971 (-1074)
      rw [div_le_iff₀ hpos]
      calc (1 : ℚ) ≤ (2 ^ 53 - 4 : ℕ) * (2 ^ 50 + 1) * 2 ^ (-103 : ℤ) := by norm_num
        _ = (2 ^ 53 - 4 : ℕ) * 2 ^ (971 : ℤ) * ((2 ^ 50 + 1) * 2 ^ (-1074 : ℤ)) := by
          rw [hpowers]
          ring
        _ ≤ (2 ^ 53 - 4 : ℕ) * 2 ^ (971 : ℤ) * q :=
          mul_le_mul_of_nonneg_left hgap (mul_nonneg (Nat.cast_nonneg _) (two_zpow_pos _).le)
    calc rounded (1 / q) ≤ rounded ((2 ^ 53 - 4 : ℕ) * 2 ^ (971 : ℤ)) :=
          rounded_mono (one_div_pos.mpr hpos).le hbound
      _ = (2 ^ 53 - 4 : ℕ) * 2 ^ (971 : ℤ) := rounded_exact (by norm_num) (by norm_num)
      _ < 2 ^ 53 * 2 ^ (971 : ℤ) := mul_lt_mul_of_pos_right (by norm_num) (two_zpow_pos _)
      _ = 2 ^ (1024 : ℤ) := (zpow_add₀ (by norm_num) 53 971).symm

theorem Stands.read (h : Stands x q) (hpos : 0 < q) : ∃ b, Binary.ofFloat? x = some b ∧ 0 < b.ceil := by
  obtain ⟨_, hzero⟩ | ⟨m, e, hm, hx, _⟩ := h.cases
  · exact absurd hzero hpos.ne'
  · obtain ⟨⟨narrow, hread⟩, _⟩ := ofFloat?_finite hx
    exact ⟨_, hread, ceil_positive hm⟩

variable (h : Stands x q) (hpos : 0 < q) (hq : q ≤ 1)
include h hpos hq

theorem stands_inverse (hmore : 2 ^ (-1024 : ℤ) < q) : Stands (1.0 / x) (rounded (1 / q)) :=
  stands_pack (denotes_div stands_one h hpos hq) ((rounded_inverse_lt_top h hpos).mpr hmore)

theorem inverse_infinity (hless : q ≤ 2 ^ (-1024 : ℤ)) :
    (1.0 / x).toModel.unpack = .infinity .positive := by
  refine unpack_pack_top (denotes_div stands_one h hpos hq) (not_lt.mp fun htop => ?_)
  exact ((rounded_inverse_lt_top h hpos).mp htop).not_ge hless

end Reciprocal

end GoToSymbol.Decimal
