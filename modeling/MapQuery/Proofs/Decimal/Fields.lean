import Mathlib
import MapQuery.Decimal.Basic

/-!
# The three fields of a float

The 64 bits of a float are a sign, eleven bits of exponent and 52 bits of mantissa. For a finite
float, where the exponent bits are not all set, unpacking and packing only translate between these
fields and a sign, a whole mantissa and a power of two. So a finite float is recovered from its
mantissa and its exponent (`HasFields.unpack_eq_finite`), and a change of sign changes the sign bit
and nothing else (`HasFields.neg`).
-/

namespace MapQuery.Decimal

open Float.Model Float.Model.UnpackedFloat

/-- The bits of the float are these three fields, and the float is finite. -/
structure HasFields (x : Float) (s : Sign) (e : BitVec 11) (m : BitVec 52) : Prop where
  /-- The fields one after the other. -/
  toBitVec_eq : x.toBits.toBitVec = packComponents Format.binary64 s e m
  /-- All exponent bits are set in infinities and in what is not a number. -/
  exponent_ne : e ≠ -1#11

/-! ## Packing and unpacking fields -/

theorem ofModel_pack_unpack (x : Float) : .ofModel (.pack x.toModel.unpack) = x :=
  Float.ofBits_toBits x

theorem toNat_one_append (m : BitVec 52) : (1#1 ++ m).toNat = 2 ^ 52 + m.toNat := by
  rw [BitVec.toNat_append, ← Nat.shiftLeft_add_eq_or_of_lt m.isLt]
  rfl

private theorem toNat_packComponents (s : Sign) (e : BitVec 11) (m : BitVec 52) :
    (packComponents Format.binary64 s e m).toNat
      = s.toBitVec.toNat * 2 ^ 63 + e.toNat * 2 ^ 52 + m.toNat := by
  rw [packComponents, BitVec.toNat_append, ← Nat.shiftLeft_add_eq_or_of_lt m.isLt,
    BitVec.toNat_append, ← Nat.shiftLeft_add_eq_or_of_lt e.isLt, Nat.shiftLeft_eq,
    Nat.shiftLeft_eq]
  omega

/-- The value of three fields: without a leading bit where the exponent bits are all zero. -/
theorem unpack_packComponents (s : Sign) {e : BitVec 11} (m : BitVec 52) (he : e ≠ -1#11) :
    UnpackedFloat.unpack Format.binary64 (packComponents Format.binary64 s e m)
      = if e = 0#11 then
          if h : m.toNat = 0 then .zero s
          else .finite s m.toNat (-1074) (Nat.pos_of_ne_zero h)
        else .finite s (2 ^ 52 + m.toNat) (e.toNat - 1075) (by omega) := by
  have hzero : m = 0#52 ↔ m.toNat = 0 := BitVec.toNat_inj.symm
  rw [UnpackedFloat.unpack]
  simp only [unpackMantissa_packComponents, unpackExponent_packComponents,
    unpackSign_packComponents, Sign.ofBitVec_toBitVec, he, if_false, hzero, toNat_one_append]
  split
  · rename_i h0
    rw [h0]
    rfl
  · rfl

private theorem neg_unpack_packComponents (s : Sign) {e : BitVec 11} (m : BitVec 52)
    (he : e ≠ -1#11) :
    (UnpackedFloat.unpack Format.binary64 (packComponents Format.binary64 s e m)).neg
      = UnpackedFloat.unpack Format.binary64 (packComponents Format.binary64 (-s) e m) := by
  rw [unpack_packComponents s m he, unpack_packComponents (-s) m he]
  split
  · split <;> rfl
  · rfl

private theorem pack_unpack_packComponents (s : Sign) {e : BitVec 11} (m : BitVec 52)
    (he : e ≠ -1#11) :
    UnpackedFloat.pack Format.binary64
        (UnpackedFloat.unpack Format.binary64 (packComponents Format.binary64 s e m))
      = packComponents Format.binary64 s e m := by
  have hnumber : isNaNBits (packComponents Format.binary64 s e m) = false := by
    rw [isNaNBits, unpackExponent_packComponents, decide_eq_false_iff_not]
    exact fun hnan ↦ he hnan.1
  rw [pack_unpack, hnumber, if_neg Bool.false_ne_true]

/-! ## Floats with given fields -/

theorem isFinite_iff_exists_hasFields {x : Float} :
    x.isFinite = true ↔ ∃ s e m, HasFields x s e m := by
  have hx : x.isFinite = (UnpackedFloat.unpack Format.binary64 x.toBits.toBitVec).isFinite := rfl
  constructor
  · intro h
    have hfields := @packComponents_unpackSign_unpackExponent_unpackMantissa Format.binary64
      x.toBits.toBitVec
    refine ⟨_, _, _, ⟨hfields.symm, fun he ↦ ?_⟩⟩
    rw [hx, UnpackedFloat.unpack] at h
    simp only [he, if_true] at h
    split at h <;> simp [UnpackedFloat.isFinite] at h
  · rintro ⟨s, e, m, h⟩
    rw [hx, h.toBitVec_eq, unpack_packComponents s m h.exponent_ne]
    split
    · split <;> rfl
    · rfl

namespace HasFields

variable {x y : Float} {s : Sign} {e : BitVec 11} {m : BitVec 52}

theorem unpack_eq (h : HasFields x s e m) :
    x.toModel.unpack
      = UnpackedFloat.unpack Format.binary64 (packComponents Format.binary64 s e m) := by
  rw [← h.toBitVec_eq]
  rfl

theorem isFinite (h : HasFields x s e m) : x.isFinite = true :=
  isFinite_iff_exists_hasFields.mpr ⟨s, e, m, h⟩

theorem eq (h : HasFields x s e m) (h' : HasFields y s e m) : x = y :=
  Float.toBits_inj.mp (UInt64.toBitVec_inj.mp (h.toBitVec_eq.trans h'.toBitVec_eq.symm))

/-- **A change of sign** changes the sign bit and nothing else. -/
theorem neg (h : HasFields x s e m) : HasFields (-x) (-s) e m := by
  refine ⟨?_, h.exponent_ne⟩
  have hneg : (-x).toBits.toBitVec = UnpackedFloat.pack Format.binary64 x.toModel.unpack.neg := rfl
  rw [hneg, h.unpack_eq, neg_unpack_packComponents s m h.exponent_ne,
    pack_unpack_packComponents (-s) m h.exponent_ne]

theorem toNat_toBits (h : HasFields x s e m) :
    x.toBits.toNat = s.toBitVec.toNat * 2 ^ 63 + e.toNat * 2 ^ 52 + m.toNat := by
  rw [← UInt64.toNat_toBitVec, h.toBitVec_eq, toNat_packComponents]

theorem isNegative_eq (h : HasFields x s e m) : isNegative x = (s == .negative) := by
  have he := e.isLt
  have hm := m.isLt
  have hshift : x.toBits.toNat >>> 63 = s.toBitVec.toNat := by
    rw [h.toNat_toBits, Nat.shiftRight_eq_div_pow]
    omega
  rw [isNegative, hshift]
  cases s <;> rfl

private theorem fraction_eq (h : HasFields x s e m) : fraction x = m.toNat := by
  have hm := m.isLt
  rw [fraction, h.toNat_toBits]
  omega

private theorem exponentField_eq (h : HasFields x s e m) : exponentField x = e.toNat := by
  have he := e.isLt
  have hm := m.isLt
  rw [exponentField, h.toNat_toBits, Nat.shiftRight_eq_div_pow]
  omega

theorem mantissa_eq (h : HasFields x s e m) :
    mantissa x = if e.toNat = 0 then m.toNat else 2 ^ 52 + m.toNat := by
  rw [mantissa, h.exponentField_eq, h.fraction_eq]
  rfl

theorem binaryExponent_eq (h : HasFields x s e m) :
    binaryExponent x = max (e.toNat : ℤ) 1 - 1075 := by
  rw [binaryExponent, h.exponentField_eq]

/-- **A finite float is its sign, its mantissa and its exponent.** -/
theorem unpack_eq_finite (h : HasFields x s e m) (hx : mantissa x ≠ 0) :
    x.toModel.unpack = .finite s (mantissa x) (binaryExponent x) (Nat.pos_of_ne_zero hx) := by
  have hzero : e = 0#11 ↔ e.toNat = 0 := BitVec.toNat_inj.symm
  have hmant := h.mantissa_eq
  have hexp := h.binaryExponent_eq
  rw [h.unpack_eq, unpack_packComponents s m h.exponent_ne]
  by_cases h0 : e.toNat = 0
  · rw [if_pos h0] at hmant
    have hexp' : binaryExponent x = -1074 := by omega
    simp only [hzero.mpr h0, if_true, hmant, hexp', dif_neg (hmant ▸ hx)]
  · rw [if_neg h0] at hmant
    have hexp' : binaryExponent x = e.toNat - 1075 := by omega
    simp only [hzero, h0, if_false, hmant, hexp']

theorem unpack_eq_zero (h : HasFields x s e m) (hx : mantissa x = 0) :
    x.toModel.unpack = .zero s := by
  have hzero : e = 0#11 ↔ e.toNat = 0 := BitVec.toNat_inj.symm
  have hmant := h.mantissa_eq
  rw [h.unpack_eq, unpack_packComponents s m h.exponent_ne]
  by_cases h0 : e.toNat = 0
  · rw [if_pos h0, hx] at hmant
    rw [if_pos (hzero.mpr h0), dif_pos hmant.symm]
  · rw [if_neg h0] at hmant
    omega

theorem isNaN_eq (h : HasFields x s e m) : x.isNaN = false := by
  have hx : x.isNaN = x.toModel.unpack.isNaN := rfl
  by_cases h0 : mantissa x = 0
  · rw [hx, h.unpack_eq_zero h0]
    rfl
  · rw [hx, h.unpack_eq_finite h0]
    rfl

theorem isInf_eq (h : HasFields x s e m) : x.isInf = false := by
  have hx : x.isInf = x.toModel.unpack.isInf := rfl
  by_cases h0 : mantissa x = 0
  · rw [hx, h.unpack_eq_zero h0]
    rfl
  · rw [hx, h.unpack_eq_finite h0]
    rfl

/-! ## Bounds -/

theorem mantissa_lt (h : HasFields x s e m) : mantissa x < 2 ^ 53 := by
  have hm := m.isLt
  rw [h.mantissa_eq]
  split <;> omega

theorem binaryExponent_mem (h : HasFields x s e m) :
    -1074 ≤ binaryExponent x ∧ binaryExponent x ≤ 971 := by
  have hne : e.toNat ≠ 2047 := fun h' ↦ h.exponent_ne (BitVec.eq_of_toNat_eq h')
  have he := e.isLt
  rw [h.binaryExponent_eq]
  omega

theorem le_mantissa_or (h : HasFields x s e m) :
    2 ^ 52 ≤ mantissa x ∨ binaryExponent x = -1074 := by
  rw [h.mantissa_eq, h.binaryExponent_eq]
  split
  · right
    omega
  · left
    omega

end HasFields

end MapQuery.Decimal
