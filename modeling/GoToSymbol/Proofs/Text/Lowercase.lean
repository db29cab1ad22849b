import GoToSymbol.Text.Case
import Mathlib.Logic.Basic

namespace GoToSymbol.Text

/-- The code points that those of a run become. -/
def CaseRun.image (r : CaseRun) : Run :=
  ⟨(r.run.first + r.shift).toNat, (r.run.last + r.shift).toNat, r.run.step⟩

/-- Whether the code points of two runs differ, by the ends of the runs or by their remainders. -/
def Run.isApart (r q : Run) : Bool :=
  Nat.blt q.last r.first ||
    ((r.first == r.last || r.step % q.step == 0) && r.first % q.step != q.first % q.step)

/-- Whether a run is apart from the runs of a table, up to the first that begins above it. -/
def Run.isOutside (r : Run) : List CaseRun → Bool
  | [] => true
  | q :: qs => Nat.blt r.last q.run.first || (r.isApart q.run && r.isOutside qs)

theorem Run.has_iff {r : Run} {n : Nat} :
    r.has n = true ↔ r.first ≤ n ∧ n ≤ r.last ∧ (n - r.first) % r.step = 0 := by
  simp [Run.has, and_assoc]

/-- All code points of a run leave the same remainder. -/
theorem Run.mod_eq {r : Run} {n k : Nat} (h : r.has n = true)
    (hk : r.first = r.last ∨ r.step % k = 0) : n % k = r.first % k := by
  obtain ⟨hfirst, hlast, hstep⟩ := Run.has_iff.mp h
  rcases hk with hk | hk
  · rw [show n = r.first by omega]
  · obtain ⟨t, ht⟩ := Nat.dvd_trans (Nat.dvd_of_mod_eq_zero hk) (Nat.dvd_of_mod_eq_zero hstep)
    rw [show n = r.first + k * t by omega, Nat.add_mul_mod_self_left]

theorem Run.not_has_of_isApart {r q : Run} {n : Nat} (h : r.isApart q = true)
    (hr : r.has n = true) : q.has n = false := by
  cases hq : q.has n with
  | false => rfl
  | true =>
    simp only [Run.isApart, Bool.or_eq_true, Bool.and_eq_true, Nat.blt_eq, beq_iff_eq,
      bne_iff_ne] at h
    rcases h with h | ⟨hk, hne⟩
    · have hfirst := (Run.has_iff.mp hr).1
      have hlast := (Run.has_iff.mp hq).2.1
      omega
    · exact absurd ((mod_eq hr hk).symm.trans (mod_eq hq (Or.inr (Nat.mod_self q.step)))) hne

theorem lowercaseShift_of_isOutside {r : Run} {rs : List CaseRun} {n : Nat}
    (h : r.isOutside rs = true) (hn : r.has n = true) : lowercaseShift rs n = none := by
  induction rs with
  | nil => rfl
  | cons q qs ih =>
    simp only [Run.isOutside, Bool.or_eq_true, Bool.and_eq_true, Nat.blt_eq] at h
    rw [lowercaseShift]
    split
    · rfl
    · next hbelow =>
      rcases h with h | ⟨hapart, hrest⟩
      · have hlast := (Run.has_iff.mp hn).2.1
        omega
      · rw [Run.not_has_of_isApart hapart hn]
        exact ih hrest

theorem has_of_lowercaseShift {rs : List CaseRun} {n : Nat} {d : Int}
    (h : lowercaseShift rs n = some d) : ∃ r ∈ rs, r.run.has n = true ∧ r.shift = d := by
  induction rs with
  | nil => simp [lowercaseShift] at h
  | cons r rs ih =>
    simp only [lowercaseShift] at h
    split at h
    · simp at h
    · split at h
      · next hr => exact ⟨r, List.mem_cons_self, hr, Option.some.inj h⟩
      · obtain ⟨s, hs, hn⟩ := ih h
        exact ⟨s, List.mem_cons_of_mem r hs, hn⟩

/-- What the table makes of a character is not in the table. -/
theorem image_isOutside : ∀ r ∈ lowercaseRuns, r.image.isOutside lowercaseRuns = true := by
  decide +kernel

/-- What the table makes of a character is a character from `a` on, and not `İ`. -/
theorem image_bounds : ∀ r ∈ lowercaseRuns, 0x61 ≤ r.run.first + r.shift ∧
    (r.image.last < 0xD800 ∨ 0xDFFF < r.image.first ∧ r.image.last < 0x110000) ∧
    r.image.has 0x130 = false := by
  decide +kernel

theorem has_image {r : CaseRun} {n : Nat} (h : r.run.has n = true)
    (hfirst : 0x61 ≤ r.run.first + r.shift) : r.image.has (n + r.shift).toNat = true := by
  obtain ⟨hge, hle, hstep⟩ := Run.has_iff.mp h
  have hsame : (n + r.shift).toNat - r.image.first = n - r.run.first := by
    simp only [CaseRun.image]
    omega
  refine Run.has_iff.mpr ⟨?_, ?_, hsame ▸ hstep⟩
  · simp only [CaseRun.image]
    omega
  · simp only [CaseRun.image]
    omega

/-- The character stands for itself in lower case, wherever it stands in a text. -/
def IsLowered (c : Char) : Prop := c ≠ 'Σ' ∧ lowerChar c = [c]

instance (c : Char) : Decidable (IsLowered c) := inferInstanceAs (Decidable (_ ∧ _))

theorem isLowered_of_no_shift {c : Char} (hc : c ≠ 'İ')
    (h : lowercaseShift lowercaseRuns c.toNat = none) : IsLowered c := by
  refine ⟨?_, by simp [lowerChar, hc, h]⟩
  rintro rfl
  exact absurd h (by decide)

theorem isLowered_image {r : CaseRun} {n : Nat} (hr : r ∈ lowercaseRuns)
    (hn : r.run.has n = true) : IsLowered (Char.ofNat (n + r.shift).toNat) ∧
      'a' ≤ Char.ofNat (n + r.shift).toNat := by
  obtain ⟨hfirst, hvalid, hdotted⟩ := image_bounds r hr
  have himage := has_image hn hfirst
  have hrange := Run.has_iff.mp himage
  have hchar : (n + r.shift).toNat.isValidChar := by
    simp only [Nat.isValidChar]
    omega
  have hcode : (Char.ofNat (n + r.shift).toNat).toNat = (n + r.shift).toNat := toNat_ofNat hchar
  have hnone := lowercaseShift_of_isOutside (image_isOutside r hr) himage
  refine ⟨isLowered_of_no_shift (fun heq => ?_) (hcode.symm ▸ hnone), ?_⟩
  · rw [heq] at hcode
    rw [← hcode] at himage
    exact absurd (himage.symm.trans hdotted) (by decide)
  · rw [Char.le_def, UInt32.le_iff_toNat_le, Char.toNat_val, Char.toNat_val, hcode]
    simp only [CaseRun.image] at hrange
    simp only [Char.reduceToNat]
    omega

/-- The lowercase of a character is in lower case. Only `a` and what comes after it is new there. -/
theorem isLowered_of_mem_lowerChar {c d : Char} (h : d ∈ lowerChar c) :
    IsLowered d ∧ (d = c ∨ 'a' ≤ d) := by
  by_cases hdotted : c = 'İ'
  · subst hdotted
    have hd : d = 'i' ∨ d = '\u0307' := by simpa [lowerChar] using h
    rcases hd with rfl | rfl
    · exact ⟨by decide, Or.inr (by decide)⟩
    · exact ⟨by decide, Or.inr (by decide)⟩
  · cases hshift : lowercaseShift lowercaseRuns c.toNat with
    | none =>
      have hlowered := isLowered_of_no_shift hdotted hshift
      rw [hlowered.2, List.mem_singleton] at h
      exact ⟨h ▸ hlowered, Or.inl h⟩
    | some k =>
      obtain ⟨r, hr, hhas, rfl⟩ := has_of_lowercaseShift hshift
      have hd : d = Char.ofNat (c.toNat + r.shift).toNat := by
        simpa [lowerChar, hdotted, hshift] using h
      obtain ⟨hlowered, hnew⟩ := isLowered_image hr hhas
      exact hd ▸ ⟨hlowered, Or.inr hnew⟩

theorem sigmaAt_cases (before after : List Char) :
    sigmaAt before after = 'ς' ∨ sigmaAt before after = 'σ' := by
  unfold sigmaAt
  split
  · exact Or.inl rfl
  · exact Or.inr rfl

theorem isLowered_sigmaAt (before after : List Char) : IsLowered (sigmaAt before after) := by
  rcases sigmaAt_cases before after with h | h
  · exact h ▸ by decide
  · exact h ▸ by decide

theorem isLowered_of_mem_lowerAfter {before s : List Char} {d : Char}
    (h : d ∈ lowerAfter before s) : IsLowered d := by
  induction s generalizing before with
  | nil => simp [lowerAfter] at h
  | cons c rest ih =>
    rw [lowerAfter, List.mem_append] at h
    rcases h with h | h
    · split at h
      · exact List.mem_singleton.mp h ▸ isLowered_sigmaAt before rest
      · exact (isLowered_of_mem_lowerChar h).1
    · exact ih h

theorem lowerAfter_of_isLowered (before : List Char) {s : List Char} (h : ∀ c ∈ s, IsLowered c) :
    lowerAfter before s = s := by
  induction s generalizing before with
  | nil => rfl
  | cons c rest ih =>
    obtain ⟨hsigma, hself⟩ := h c List.mem_cons_self
    have hrest := ih (c :: before) fun d hd => h d (List.mem_cons_of_mem c hd)
    rw [lowerAfter, if_neg hsigma, hself, hrest, List.singleton_append]

/-- A second pass changes nothing, whatever the first one made of a sigma at the end of a word or
of a character that became two. -/
theorem lower_lower (s : List Char) : lower (lower s) = lower s :=
  lowerAfter_of_isLowered [] fun _ hd => isLowered_of_mem_lowerAfter hd

/-- A character before `a` that is in lower case is in the lowercase of a text if and only if it is
in the text. -/
theorem mem_lowerAfter_iff {before s : List Char} {d : Char} (hlowered : IsLowered d)
    (hd : d < 'a') : d ∈ lowerAfter before s ↔ d ∈ s := by
  induction s generalizing before with
  | nil => exact Iff.rfl
  | cons c rest ih =>
    rw [lowerAfter, List.mem_append, ih, List.mem_cons]
    refine or_congr_left' fun _ => ?_
    split
    · next hsigma =>
      have hnot : d ≠ sigmaAt before rest := by
        rintro rfl
        rcases sigmaAt_cases before rest with h | h
        · exact absurd (h ▸ hd) (by decide)
        · exact absurd (h ▸ hd) (by decide)
      exact iff_of_false (by simpa using hnot) (hsigma ▸ hlowered.1)
    · refine ⟨fun h => ?_, fun h => ?_⟩
      · exact (isLowered_of_mem_lowerChar h).2.resolve_right (Char.not_le.mpr hd)
      · rw [← h, hlowered.2]
        exact List.mem_singleton_self d

theorem mem_lower_iff {s : List Char} {d : Char} (hlowered : IsLowered d) (hd : d < 'a') :
    d ∈ lower s ↔ d ∈ s := mem_lowerAfter_iff hlowered hd

theorem lowerChar_ne_nil (c : Char) : lowerChar c ≠ [] := by
  unfold lowerChar
  split
  · simp
  · split
    · simp
    · simp

/-- A text may become longer in lower case, never shorter: every character becomes at least one. -/
theorem length_le_lowerAfter (before s : List Char) : s.length ≤ (lowerAfter before s).length := by
  induction s generalizing before with
  | nil => exact Nat.zero_le _
  | cons c rest ih =>
    have hrest := ih (c :: before)
    have hfirst : 1 ≤ (if c = 'Σ' then [sigmaAt before rest] else lowerChar c).length := by
      split
      · exact Nat.le_refl 1
      · exact List.length_pos_iff.mpr (lowerChar_ne_nil c)
    rw [lowerAfter, List.length_append, List.length_cons]
    omega

theorem length_le_lower (s : List Char) : s.length ≤ (lower s).length := length_le_lowerAfter [] s

end GoToSymbol.Text
