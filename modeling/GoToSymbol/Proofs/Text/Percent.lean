import GoToSymbol.Text.Percent

namespace GoToSymbol.Text

/-- The bytes that a text stands for: a percent sign with two hexadecimal digits is one byte, and
every other character is its bytes in UTF-8. -/
def percentBytes : List Char → List UInt8
  | '%' :: high :: low :: rest =>
    match hexValue? high, hexValue? low with
    | some h, some l => UInt8.ofNat (16 * h + l) :: percentBytes rest
    | _, _ => String.utf8EncodeChar '%' ++ percentBytes (high :: low :: rest)
  | c :: rest => String.utf8EncodeChar c ++ percentBytes rest
  | [] => []

/-- The text behind a percent-encoded one, if its bytes are UTF-8. -/
def percentDecode? (s : List Char) : Option (List Char) :=
  (percentBytes s).toByteArray.utf8Decode?.map Array.toList

theorem hexValue?_upperHexDigit {n : Nat} (h : n < 16) : hexValue? (upperHexDigit n) = some n := by
  have hall : ∀ k ∈ List.range 16, hexValue? (upperHexDigit k) = some k := by decide
  exact hall n (List.mem_range.mpr h)

theorem isUriPlain_bounds {b : UInt8} (h : isUriPlain b = true) :
    b.toNat < 128 ∧ b.toNat ≠ 37 := by
  simp only [isUriPlain, Bool.or_eq_true, Bool.and_eq_true, decide_eq_true_eq, beq_iff_eq] at h
  omega

theorem toNat_ofNat_byte (b : UInt8) : (Char.ofNat b.toNat).toNat = b.toNat := by
  have hsize : b.toNat < 256 := b.toNat_lt_size
  have hchar : b.toNat.isValidChar := by
    simp only [Nat.isValidChar]
    omega
  exact toNat_ofNat hchar

/-- A byte below 128 is the one byte of its character. -/
theorem utf8EncodeChar_ofNat {b : UInt8} (h : b.toNat < 128) :
    String.utf8EncodeChar (Char.ofNat b.toNat) = [b] := by
  have hcode := toNat_ofNat_byte b
  have hone : (Char.ofNat b.toNat).utf8Size = 1 := by
    rw [Char.utf8Size_eq_one_iff, UInt32.le_iff_toNat_le, Char.toNat_val, hcode]
    exact Nat.le_of_lt_succ h
  rw [String.utf8EncodeChar_eq_singleton hone, List.singleton_inj, ← UInt8.toNat_inj,
    UInt32.toNat_toUInt8, Char.toNat_val, hcode]
  exact Nat.mod_eq_of_lt b.toNat_lt_size

theorem percentBytes_cons_of_ne {c : Char} (h : c ≠ '%') (rest : List Char) :
    percentBytes (c :: rest) = String.utf8EncodeChar c ++ percentBytes rest := by
  rw [percentBytes]
  intro _ _ _ hpercent
  exact absurd hpercent h

/-- One byte is read back, whatever comes after it. -/
theorem percentBytes_percentByte (b : UInt8) (rest : List Char) :
    percentBytes (percentByte b ++ rest) = b :: percentBytes rest := by
  unfold percentByte
  split
  · next hplain =>
    obtain ⟨hascii, hother⟩ := isUriPlain_bounds hplain
    have hne : Char.ofNat b.toNat ≠ '%' := by
      intro heq
      have hcode := toNat_ofNat_byte b
      rw [heq] at hcode
      exact hother hcode.symm
    rw [List.singleton_append, percentBytes_cons_of_ne hne, utf8EncodeChar_ofNat hascii,
      List.singleton_append]
  · have hsize : b.toNat < 256 := b.toNat_lt_size
    have hhigh : hexValue? (upperHexDigit (b.toNat / 16)) = some (b.toNat / 16) :=
      hexValue?_upperHexDigit (by omega)
    have hlow : hexValue? (upperHexDigit (b.toNat % 16)) = some (b.toNat % 16) :=
      hexValue?_upperHexDigit (by omega)
    simp only [List.cons_append, List.nil_append, percentBytes, hhigh, hlow, Nat.div_add_mod,
      UInt8.ofNat_toNat]

theorem percentBytes_flatMap (bs : List UInt8) : percentBytes (bs.flatMap percentByte) = bs := by
  induction bs with
  | nil => rfl
  | cons b bs ih => rw [List.flatMap_cons, percentBytes_percentByte, ih]

theorem percentDecode?_percentEncode (s : List Char) :
    percentDecode? (percentEncode s) = some s := by
  have hbytes : (percentBytes (percentEncode s)).toByteArray = s.utf8Encode := by
    rw [percentEncode, percentBytes_flatMap, List.utf8Encode]
  rw [percentDecode?, hbytes, List.utf8Decode?_utf8Encode, Option.map_some]

theorem percentEncode_injective {s t : List Char} (h : percentEncode s = percentEncode t) :
    s = t := by
  have hs := percentDecode?_percentEncode s
  rw [h, percentDecode?_percentEncode] at hs
  exact (Option.some.inj hs).symm

example : percentDecode? "a%20%c3%A9".toList = some ['a', ' ', 'é'] := by decide +kernel

end GoToSymbol.Text
