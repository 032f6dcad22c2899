import MapQuery.Proofs.Decimal.Fields
import MapQuery.Proofs.Decimal.Rounding

/-!
# Integers are finite floats

A distance may be written as an integer of 64 bits, and is taken as the nearest float. That float is
finite (`isFinite_ofInt`): rounding raises the exponent by one at most (`fits_roundWithAccuracy`),
and the exponents of such integers are far below the largest one.
-/

namespace MapQuery.Decimal

open Float.Model Float.Model.UnpackedFloat Rounding

/-! ## Exponents after rounding -/

/-- Whether the number is zero or finite, with an exponent of two of at most `limit`. -/
inductive Fits (limit : ℤ) : UnpackedFloat → Prop
  | zero (s : Sign) : Fits limit (.zero s)
  | finite (s : Sign) (m : ℕ) (e : ℤ) (hm : 0 < m) (he : e ≤ limit) : Fits limit (.finite s m e hm)

private theorem mantissa_shiftRight (em : ExtendedMantissa) (n : ℕ) :
    (em >>> n).mantissa = em.mantissa / 2 ^ n := by
  change (n.repeat ExtendedMantissa.shiftRightOne em).mantissa = _
  induction n with
  | zero => simp [Nat.repeat]
  | succ n ih =>
    rw [Nat.repeat, pow_succ, ← Nat.div_div_eq_div_mul, ← ih]
    rfl

private theorem roundedMantissa_le (em : ExtendedMantissa) :
    em.roundedMantissa ≤ em.mantissa + 1 := by
  rw [ExtendedMantissa.roundedMantissa]
  rcases em.accuracy with _ | (_ | _ | _) <;> simp only [Accuracy.roundToNearestEven] <;> omega

theorem shiftToTargetExponent_bounds (m : ℕ) (e : ℤ) (a : Accuracy) :
    (shiftToTargetExponent Format.binary64 m e a).1.mantissa < 2 ^ 53 ∧
      (shiftToTargetExponent Format.binary64 m e a).2 = max e (max (m.log2 + e - 52) (-1074)) := by
  rw [shiftToTargetExponent, targetExponent_eq, totalExponent, shiftToExponent]
  constructor
  · rw [mantissa_shiftRight, mantissa_ofMantissaAndAccuracy, Nat.div_lt_iff_lt_mul (by positivity),
      ← pow_add]
    refine lt_of_lt_of_le Nat.lt_log2_self (Nat.pow_le_pow_right two_pos ?_)
    omega
  · omega

/-- Rounding raises the exponent by one at most. -/
theorem fits_roundWithAccuracy (s : Sign) {m : ℕ} {e limit : ℤ} (a : Accuracy) (he : e ≤ limit)
    (hm : m.log2 + e ≤ limit + 52) (hlimit : -1074 ≤ limit) :
    Fits (limit + 1) (roundWithAccuracy Format.binary64 s m e a) := by
  obtain ⟨hmantissa, hexp⟩ := shiftToTargetExponent_bounds m e a
  set first := shiftToTargetExponent Format.binary64 m e a
  have hrounded : first.1.roundedMantissa ≤ 2 ^ 53 :=
    le_trans (roundedMantissa_le first.1) hmantissa
  -- Rounding up may give one bit more, and then the second shift is by one.
  have hlog : first.1.roundedMantissa.log2 ≤ 53 := by
    by_cases h0 : first.1.roundedMantissa = 0
    · rw [h0]
      decide
    · rw [← Nat.lt_succ_iff, Nat.log2_lt h0]
      exact lt_of_le_of_lt hrounded (by decide)
  obtain ⟨-, hexp'⟩ :=
    shiftToTargetExponent_bounds first.1.roundedMantissa first.2 .exact
  rw [roundWithAccuracy]
  dsimp only
  split
  · exact .zero _
  · refine .finite _ _ _ _ ?_
    change (shiftToTargetExponent Format.binary64 first.1.roundedMantissa first.2 .exact).2 ≤ _
    omega

/-! ## Packing without overflow -/

theorem exists_hasFields_of_fits {u : UnpackedFloat} {limit : ℤ} (h : Fits limit u)
    (hlow : -1074 ≤ limit) (hhigh : limit ≤ 970) :
    ∃ s e m, HasFields (.ofModel (.pack u)) s e m ∧ (e.toNat : ℤ) ≤ limit + 1075 := by
  rcases h with s | ⟨s, m, e, hm, he⟩
  · exact ⟨s, 0#11, 0#52, ⟨rfl, by decide⟩, by simpa using by omega⟩
  · have hbias : e + Format.binary64.exponentBias + Format.binary64.mantissaBitsWithoutImplicit
        = e + 1075 := by
      have hexp : (Format.binary64.exponentBias : ℤ) = 1023 := rfl
      have hwidth : (Format.binary64.mantissaBitsWithoutImplicit : ℤ) = 52 := rfl
      rw [hexp, hwidth]
      ring
    -- A full mantissa has an exponent field, and any other is packed with the field zero.
    by_cases hbits : m.log2 + 1 = Format.binary64.mantissaBits
    · have hfield : (BitVec.ofNat 11 (e + 1075).toNat).toNat = (e + 1075).toNat := by
        rw [BitVec.toNat_ofNat]
        exact Nat.mod_eq_of_lt (by omega)
      refine ⟨s, BitVec.ofNat 11 (e + 1075).toNat, BitVec.ofNat 52 m, ⟨?_, ?_⟩, ?_⟩
      · change UnpackedFloat.pack Format.binary64 (.finite s m e hm) = _
        rw [UnpackedFloat.pack, hbias, if_neg (by norm_num; omega), if_pos hbits]
      · intro hall
        have hones := congrArg BitVec.toNat hall
        rw [hfield, show (-1#11).toNat = 2047 from rfl] at hones
        omega
      · rw [hfield]
        omega
    · refine ⟨s, 0#11, BitVec.ofNat 52 m, ⟨?_, by decide⟩, by simpa using by omega⟩
      change UnpackedFloat.pack Format.binary64 (.finite s m e hm) = _
      rw [UnpackedFloat.pack, hbias, if_neg (by norm_num; omega), if_neg hbits]

/-! ## Integers of 64 bits -/

private theorem log2_shiftLeft_le (n k : ℕ) : (n <<< k).log2 ≤ n.log2 + k := by
  by_cases h0 : n <<< k = 0
  · rw [h0, Nat.log2_zero]
    exact Nat.zero_le _
  · rw [← Nat.lt_succ_iff, Nat.log2_lt h0, Nat.shiftLeft_eq, Nat.succ_eq_add_one,
      add_right_comm, pow_add]
    exact Nat.mul_lt_mul_of_pos_right Nat.lt_log2_self (Nat.two_pow_pos k)

theorem log2_le_of_lt {n k : ℕ} (h : n < 2 ^ (k + 1)) : n.log2 ≤ k := by
  by_cases h0 : n = 0
  · rw [h0, Nat.log2_zero]
    exact Nat.zero_le _
  · exact Nat.lt_succ_iff.mp ((Nat.log2_lt h0).mpr h)

theorem fits_ofNat {n : ℕ} (hn : n < 2 ^ 64) :
    Fits 13 (UnpackedFloat.ofNat Format.binary64 n) := by
  have hlog : n.log2 ≤ 63 := log2_le_of_lt hn
  rw [UnpackedFloat.ofNat, UnpackedFloat.ofInt, UnpackedFloat.normalize]
  split
  · rename_i hneg
    rw [Int.compare_eq_lt] at hneg
    omega
  · exact .zero _
  · rw [Int.toNat_natCast, UnpackedFloat.round, targetExponent_eq, totalExponent, decreaseExponent]
    have hshift := log2_shiftLeft_le n (0 - max ((n.log2 : ℤ) + 1 + 0 - 53) (-1074)).toNat
    have hlimit : (-1074 : ℤ) ≤ 12 := by decide
    exact fits_roundWithAccuracy .positive .exact (by omega) (by omega) hlimit

private theorem fits_mul {s t : Sign} {m n : ℕ} {e f limit : ℤ} (hm : 0 < m) (hn : 0 < n)
    (hexp : e + f ≤ limit) (hlog : (m * n).log2 + (e + f) ≤ limit + 52) (hlow : -1074 ≤ limit) :
    Fits (limit + 1)
      (UnpackedFloat.mul Format.binary64 (.finite s m e hm) (.finite t n f hn)) := by
  rw [UnpackedFloat.mul]
  exact fits_roundWithAccuracy _ _ hexp hlog hlow

/-- One is the power of ten with which small integers are multiplied. -/
theorem fits_mul_one {x : Float} {s : Sign} {e : BitVec 11} {m : BitVec 52}
    (h : HasFields x s e m) {limit : ℤ} (hlow : -1074 ≤ limit) (he : (e.toNat : ℤ) ≤ limit + 1075) :
    Fits (limit + 1) (UnpackedFloat.mul Format.binary64 x.toModel.unpack
      (Float.ofBits 0x3FF0000000000000).toModel.unpack) := by
  have hone : (Float.ofBits 0x3FF0000000000000).toModel.unpack
      = .finite .positive (2 ^ 52) (-52) (by decide) := rfl
  rw [hone]
  by_cases hx : mantissa x = 0
  · rw [h.unpack_eq_zero hx]
    exact .zero _
  · rw [h.unpack_eq_finite hx]
    have hexp := h.binaryExponent_eq
    have hlog : (mantissa x * 2 ^ 52).log2 ≤ 104 := by
      refine log2_le_of_lt ?_
      have hlt := h.mantissa_lt
      omega
    exact fits_mul _ _ (by omega) (by omega) hlow

private theorem isFinite_of_fits {u : UnpackedFloat} {limit : ℤ} (h : Fits limit u)
    (hlow : -1074 ≤ limit) (hhigh : limit ≤ 970) : (Float.ofModel (.pack u)).isFinite = true := by
  obtain ⟨s, e, m, hfields, -⟩ := exists_hasFields_of_fits h hlow hhigh
  exact hfields.isFinite

/-- A large integer takes the way of all decimals. -/
theorem fits_ofScientific {n : ℕ} (h0 : n ≠ 0) (hn : n < 2 ^ 64) :
    Fits 13 (UnpackedFloat.ofScientific Format.binary64 n 0) := by
  have hlog : (n <<< 53 * 1).log2 ≤ 116 := by
    have hshift := log2_shiftLeft_le n 53
    have hlog : n.log2 ≤ 63 := log2_le_of_lt hn
    rw [Nat.mul_one]
    omega
  have hbits : (2 : ℤ) ^ Format.binary64.exponentBits = 2048 := by norm_num
  have hwidth : Format.binary64.mantissaBits = 53 := rfl
  have hshifted : 0 < n <<< 53 := by
    rw [Nat.shiftLeft_eq]
    positivity
  have hlimit : (-1074 : ℤ) ≤ 12 := by decide
  have hfits : Fits (12 + 1) (UnpackedFloat.mul Format.binary64
      (.finite .positive (n <<< 53) (-53) hshifted) (.finite .positive 1 0 one_pos)) :=
    fits_mul hshifted one_pos (by omega) (by omega) hlimit
  rw [UnpackedFloat.ofScientific, dif_neg h0, if_neg (by omega), if_neg (by omega),
    if_pos (le_refl 0)]
  simp only [Int.toNat_zero, pow_zero, hwidth]
  exact hfits

private theorem isFinite_ofNat {n : ℕ} (hn : n < 2 ^ 64) : (Float.ofNat n).isFinite = true := by
  change (Float.ofScientific n false 0).isFinite = true
  rw [Float.ofScientific]
  split
  · obtain ⟨s, e, m, h, he⟩ :=
      exists_hasFields_of_fits (fits_ofNat n.toUInt64.toNat_lt) (by omega) (by omega)
    exact isFinite_of_fits (fits_mul_one h (by omega) he) (by omega) (by omega)
  · rename_i hlarge
    have h0 : n ≠ 0 := by
      rintro rfl
      exact hlarge (by decide)
    exact isFinite_of_fits (fits_ofScientific h0 hn) (by decide) (by decide)

/-- **An integer of 64 bits is a finite float.** -/
theorem isFinite_ofInt (value : Int64) : (Float.ofInt value.toInt).isFinite = true := by
  have hlow := value.le_toInt
  have hhigh := value.toInt_lt
  rw [Float.ofInt.eq_def]
  split
  · rename_i n heq
    have hn : (n : ℤ) < 2 ^ 63 := by
      rw [heq] at hhigh
      exact hhigh
    exact isFinite_ofNat (by omega)
  · rename_i n heq
    rw [heq] at hlow
    have hn : n.succ < 2 ^ 64 := by omega
    obtain ⟨s, e, m, h⟩ := isFinite_iff_exists_hasFields.mp (isFinite_ofNat hn)
    exact h.neg.isFinite

end MapQuery.Decimal
