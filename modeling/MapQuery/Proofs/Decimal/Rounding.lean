import Mathlib

/-!
# Rounding depends on the value alone

The nearest float of a number is computed from a mantissa with two more bits: whether the number
lies at or above the middle between the mantissa and the next one, and whether it lies strictly
between these three marks. There are many ways to arrive there. A product starts from an exact
mantissa that is far too long, a quotient from a short one and the position of the remainder.

The main statement is `roundWithAccuracy_congr`: whenever two starting points describe the same
positive number, and neither is coarser than the grid of floats at that number, they are rounded to
the same float. Its core is that the description of a number on a fixed grid is unique
(`Marks.unique`), and that making the grid coarser keeps a description correct
(`Marks.shiftRight`).
-/

namespace MapQuery.Rounding

open Float.Model Float.Model.UnpackedFloat

/-! ## Descriptions of a number -/

/-- The nearest of the marks `m` and `m + 1/2` that is not above the described number. -/
def lowerMark (em : ExtendedMantissa) : ℚ :=
  em.mantissa + if em.roundBit then 1 / 2 else 0

/-- The mantissa and its two bits describe the number `x`: it lies at the lower mark, or between it
and the next mark if the last bit is set. -/
def Marks (em : ExtendedMantissa) (x : ℚ) : Prop :=
  if em.stickyBit then lowerMark em < x ∧ x < lowerMark em + 1 / 2 else x = lowerMark em

theorem Marks.lowerMark_le {em : ExtendedMantissa} {x : ℚ} (h : Marks em x) :
    lowerMark em ≤ x := by
  rw [Marks] at h
  split at h
  · exact h.1.le
  · exact h.ge

private theorem Marks.lt_lowerMark_add {em : ExtendedMantissa} {x : ℚ} (h : Marks em x) :
    x < lowerMark em + 1 / 2 := by
  rw [Marks] at h
  split at h
  · exact h.2
  · rw [h]
    linarith

theorem Marks.mantissa_le {em : ExtendedMantissa} {x : ℚ} (h : Marks em x) :
    (em.mantissa : ℚ) ≤ x := by
  refine le_trans ?_ h.lowerMark_le
  rw [lowerMark]
  split <;> linarith

theorem Marks.lt_mantissa_add_one {em : ExtendedMantissa} {x : ℚ} (h : Marks em x) :
    x < em.mantissa + 1 := by
  refine lt_of_lt_of_le h.lt_lowerMark_add ?_
  rw [lowerMark]
  split <;> linarith

theorem Marks.mantissa_eq {em : ExtendedMantissa} {x : ℚ} (h : Marks em x) :
    em.mantissa = ⌊x⌋₊ :=
  ((Nat.floor_eq_iff (le_trans (Nat.cast_nonneg _) h.mantissa_le)).mpr
    ⟨h.mantissa_le, h.lt_mantissa_add_one⟩).symm

private theorem Marks.roundBit_iff {em : ExtendedMantissa} {x : ℚ} (h : Marks em x) :
    em.roundBit = true ↔ em.mantissa + 1 / 2 ≤ x := by
  have hlow := h.lowerMark_le
  have hhigh := h.lt_lowerMark_add
  rw [lowerMark] at hlow hhigh
  cases hr : em.roundBit <;> simp only [hr, if_true, Bool.false_eq_true, if_false] at hlow hhigh
  · simp only [Bool.false_eq_true, false_iff, not_le]
    linarith
  · simp only [true_iff]
    exact hlow

theorem Marks.stickyBit_iff {em : ExtendedMantissa} {x : ℚ} (h : Marks em x) :
    em.stickyBit = true ↔ x ≠ lowerMark em := by
  rw [Marks] at h
  split at h
  · rename_i hs
    exact ⟨fun _ ↦ h.1.ne', fun _ ↦ hs⟩
  · rename_i hs
    exact ⟨fun hs' ↦ absurd hs' hs, fun hne ↦ absurd h hne⟩

/-- **Uniqueness.** On a fixed grid a number has one description. -/
theorem Marks.unique {em em' : ExtendedMantissa} {x : ℚ} (h : Marks em x) (h' : Marks em' x) :
    em = em' := by
  have hm : em.mantissa = em'.mantissa := h.mantissa_eq.trans h'.mantissa_eq.symm
  have hr : em.roundBit = em'.roundBit := by
    rw [Bool.eq_iff_iff, h.roundBit_iff, h'.roundBit_iff, hm]
  have hl : lowerMark em = lowerMark em' := by rw [lowerMark, lowerMark, hm, hr]
  have hs : em.stickyBit = em'.stickyBit := by
    rw [Bool.eq_iff_iff, h.stickyBit_iff, h'.stickyBit_iff, hl]
  cases em
  cases em'
  simp_all

private theorem lowerMark_shiftRightOne (em : ExtendedMantissa) :
    lowerMark em.shiftRightOne = em.mantissa / 2 := by
  have hm : (em.mantissa : ℚ) = 2 * (em.mantissa / 2 : ℕ) + (em.mantissa % 2 : ℕ) := by
    exact_mod_cast (Nat.div_add_mod em.mantissa 2).symm
  rw [hm, lowerMark, ExtendedMantissa.shiftRightOne]
  rcases Nat.mod_two_eq_zero_or_one em.mantissa with h | h
  · simp [h]
  · simp [h]
    ring

/-- A grid twice as coarse: the last bit of the mantissa becomes the middle mark. -/
theorem Marks.shiftRightOne {em : ExtendedMantissa} {x : ℚ} (h : Marks em x) :
    Marks em.shiftRightOne (x / 2) := by
  have hlow := h.mantissa_le
  have hhigh := h.lt_mantissa_add_one
  have hmark := h.lowerMark_le
  have hsticky := h.stickyBit_iff
  rw [Marks, lowerMark_shiftRightOne]
  rw [lowerMark] at hmark hsticky
  split
  · rename_i hs
    -- one of the two old bits is set, so the number is above the mantissa
    have hne : (em.mantissa : ℚ) ≠ x := by
      rintro rfl
      rw [ExtendedMantissa.shiftRightOne, Bool.or_eq_true, hsticky] at hs
      split at hmark
      · linarith
      · simp_all
    constructor
    · linarith [lt_of_le_of_ne hlow hne]
    · linarith
  · rename_i hs
    rw [ExtendedMantissa.shiftRightOne, Bool.or_eq_true, hsticky] at hs
    simp_all

theorem Marks.shiftRight {em : ExtendedMantissa} {x : ℚ} (h : Marks em x) (n : ℕ) :
    Marks (em >>> n) (x / 2 ^ n) := by
  change Marks (n.repeat ExtendedMantissa.shiftRightOne em) _
  induction n with
  | zero => simpa [Nat.repeat] using h
  | succ n ih =>
    rw [Nat.repeat, pow_succ, ← div_div]
    exact ih.shiftRightOne

/-! ## Two starting points -/

theorem marks_exact (m : ℕ) : Marks (.ofMantissaAndAccuracy m .exact) m := by
  simp [Marks, lowerMark, ExtendedMantissa.ofMantissaAndAccuracy]

/-- A quotient of natural numbers is described by its whole part and the position of its
remainder. -/
theorem marks_quotient (n : ℕ) {d : ℕ} (hd : 0 < d) :
    Marks (.ofMantissaAndAccuracy (n / d) (accuracyOfFraction (n % d) d)) (n / d) := by
  have hd' : (0 : ℚ) < d := by exact_mod_cast hd
  have hn : (n : ℚ) / d = (n / d : ℕ) + ((n % d : ℕ) : ℚ) / d := by
    have h : (n : ℚ) = d * (n / d : ℕ) + (n % d : ℕ) := by
      exact_mod_cast (Nat.div_add_mod n d).symm
    rw [h, add_div, mul_div_cancel_left₀ _ hd'.ne']
  have hlt : ((n % d : ℕ) : ℚ) / d < 1 := by
    rw [div_lt_one hd']
    exact_mod_cast Nat.mod_lt n hd
  rw [hn, accuracyOfFraction]
  by_cases h0 : n % d = 0
  · simp [h0, Marks, lowerMark, ExtendedMantissa.ofMantissaAndAccuracy]
  · have hpos : (0 : ℚ) < ((n % d : ℕ) : ℚ) / d := by
      have h : (0 : ℚ) < (n % d : ℕ) := by exact_mod_cast Nat.pos_of_ne_zero h0
      positivity
    rw [if_neg h0]
    -- the remainder is compared with one half of the divisor
    rcases lt_trichotomy (2 * (n % d)) d with h | h | h
    · have hhalf : ((n % d : ℕ) : ℚ) / d < 1 / 2 := by
        rw [div_lt_div_iff₀ hd' two_pos]
        exact_mod_cast (by omega : n % d * 2 < 1 * d)
      rw [Nat.compare_eq_lt.mpr h]
      simp only [Marks, lowerMark, ExtendedMantissa.ofMantissaAndAccuracy, if_true,
        Bool.false_eq_true, if_false]
      constructor <;> linarith
    · have hhalf : ((n % d : ℕ) : ℚ) / d = 1 / 2 := by
        rw [div_eq_div_iff hd'.ne' two_ne_zero]
        exact_mod_cast (by omega : n % d * 2 = 1 * d)
      rw [Nat.compare_eq_eq.mpr h, hhalf]
      simp [Marks, lowerMark, ExtendedMantissa.ofMantissaAndAccuracy]
    · have hhalf : 1 / 2 < ((n % d : ℕ) : ℚ) / d := by
        rw [div_lt_div_iff₀ two_pos hd']
        exact_mod_cast (by omega : 1 * d < n % d * 2)
      rw [Nat.compare_eq_gt.mpr h]
      simp only [Marks, lowerMark, ExtendedMantissa.ofMantissaAndAccuracy, if_true]
      constructor <;> linarith

/-! ## The grid of floats -/

/-- The exponent of two of the grid on which the floats around a positive number lie. -/
def gridExponent (v : ℚ) : ℤ :=
  Format.binary64.targetExponent (Int.log 2 v + 1)

theorem targetExponent_eq (e : ℤ) :
    Format.binary64.targetExponent e = max (e - 53) (-1074) := by
  simp [Format.targetExponent, Format.mantissaBits, Format.minExponent]

theorem gridExponent_eq (v : ℚ) : gridExponent v = max (Int.log 2 v - 52) (-1074) := by
  rw [gridExponent, targetExponent_eq]
  omega

@[simp] theorem mantissa_ofMantissaAndAccuracy (m : ℕ) (a : Accuracy) :
    (ExtendedMantissa.ofMantissaAndAccuracy m a).mantissa = m := by
  rcases a with _ | (_ | _ | _) <;> rfl

/-- The leading bit of a mantissa that is not zero is the leading bit of the number. -/
theorem log_eq_of_marks {m : ℕ} {a : Accuracy} {v : ℚ} {e : ℤ} (hm : m ≠ 0)
    (h : Marks (.ofMantissaAndAccuracy m a) (v / 2 ^ e)) : Int.log 2 v = m.log2 + e := by
  have he : (0 : ℚ) < 2 ^ e := zpow_pos two_pos e
  have hlow := h.mantissa_le
  have hhigh := h.lt_mantissa_add_one
  rw [mantissa_ofMantissaAndAccuracy] at hlow hhigh
  rw [le_div_iff₀ he] at hlow
  rw [div_lt_iff₀ he] at hhigh
  have hm2 : ((2 : ℚ) ^ m.log2) ≤ m := by exact_mod_cast Nat.log2_self_le hm
  have hm2' : (m : ℚ) + 1 ≤ 2 ^ (m.log2 + 1) := by exact_mod_cast Nat.lt_log2_self (n := m)
  have hv : 0 < v := by
    have hm0 : (0 : ℚ) < m := by exact_mod_cast Nat.pos_of_ne_zero hm
    exact lt_of_lt_of_le (mul_pos hm0 he) hlow
  apply le_antisymm
  · rw [← Int.lt_add_one_iff, ← Int.lt_zpow_iff_log_lt one_lt_two hv]
    calc v < (m + 1) * 2 ^ e := hhigh
      _ ≤ 2 ^ (m.log2 + 1) * 2 ^ e := mul_le_mul_of_nonneg_right hm2' he.le
      _ = ((2 : ℕ) : ℚ) ^ ((m.log2 : ℤ) + e + 1) := by
        rw [← zpow_natCast, ← zpow_add₀ two_ne_zero]
        push_cast
        congr 1
        ring
  · rw [← Int.zpow_le_iff_le_log one_lt_two hv]
    calc ((2 : ℕ) : ℚ) ^ ((m.log2 : ℤ) + e) = 2 ^ m.log2 * 2 ^ e := by
          rw [← zpow_natCast, ← zpow_add₀ two_ne_zero]
          push_cast
          rfl
      _ ≤ m * 2 ^ e := mul_le_mul_of_nonneg_right hm2 he.le
      _ ≤ v := hlow

/-- From a description that is fine enough, the exponent of the grid is found. -/
theorem targetExponent_of_marks {m : ℕ} {a : Accuracy} {v : ℚ} {e : ℤ} (hv : 0 < v)
    (h : Marks (.ofMantissaAndAccuracy m a) (v / 2 ^ e)) (he : e ≤ gridExponent v) :
    Format.binary64.targetExponent (totalExponent m e) = gridExponent v := by
  rw [gridExponent_eq] at he ⊢
  rw [targetExponent_eq, totalExponent]
  by_cases hm : m = 0
  · -- no leading bit is there to be seen: the number is below the smallest float
    have hlt := h.lt_mantissa_add_one
    rw [mantissa_ofMantissaAndAccuracy, hm, Nat.cast_zero, zero_add,
      div_lt_one (zpow_pos two_pos e)] at hlt
    have hlog : Int.log 2 v < e := (Int.lt_zpow_iff_log_lt one_lt_two hv).mp (by exact_mod_cast hlt)
    rw [hm, Nat.log2_zero]
    omega
  · rw [log_eq_of_marks hm h]
    omega

/-- **The first shift** reaches the grid, and the mantissa and its two bits describe the number
there. -/
theorem marks_shiftToTargetExponent {m : ℕ} {a : Accuracy} {v : ℚ} {e : ℤ} (hv : 0 < v)
    (h : Marks (.ofMantissaAndAccuracy m a) (v / 2 ^ e)) (he : e ≤ gridExponent v) :
    Marks (shiftToTargetExponent Format.binary64 m e a).1 (v / 2 ^ gridExponent v) ∧
      (shiftToTargetExponent Format.binary64 m e a).2 = gridExponent v := by
  have hn : e + ((gridExponent v - e).toNat : ℤ) = gridExponent v := by omega
  rw [shiftToTargetExponent, targetExponent_of_marks hv h he, shiftToExponent]
  refine ⟨?_, hn⟩
  have hshift := h.shiftRight (gridExponent v - e).toNat
  rwa [div_div, ← zpow_natCast, ← zpow_add₀ two_ne_zero, hn] at hshift

/-- **Rounding depends on the value alone.** Two starting points for the same positive number, both
at least as fine as the grid there, are rounded to the same float. -/
theorem roundWithAccuracy_congr {m m' : ℕ} {e e' : ℤ} {a a' : Accuracy} {v : ℚ} (s : Sign)
    (hv : 0 < v) (h : Marks (.ofMantissaAndAccuracy m a) (v / 2 ^ e)) (he : e ≤ gridExponent v)
    (h' : Marks (.ofMantissaAndAccuracy m' a') (v / 2 ^ e')) (he' : e' ≤ gridExponent v) :
    roundWithAccuracy Format.binary64 s m e a = roundWithAccuracy Format.binary64 s m' e' a' := by
  obtain ⟨hmarks, hexp⟩ := marks_shiftToTargetExponent hv h he
  obtain ⟨hmarks', hexp'⟩ := marks_shiftToTargetExponent hv h' he'
  have hfirst : shiftToTargetExponent Format.binary64 m e a
      = shiftToTargetExponent Format.binary64 m' e' a' :=
    Prod.ext (hmarks.unique hmarks') (hexp.trans hexp'.symm)
  rw [roundWithAccuracy, roundWithAccuracy, hfirst]

theorem roundWithAccuracy_of_targetExponent (s : Sign) {m : ℕ} (hm : 0 < m) {e : ℤ}
    (he : Format.binary64.targetExponent (totalExponent m e) = e) :
    roundWithAccuracy Format.binary64 s m e .exact = .finite s m e hm := by
  have hshift : shiftToTargetExponent Format.binary64 m e .exact
      = (.ofMantissaAndAccuracy m .exact, e) := by
    rw [shiftToTargetExponent, he, shiftToExponent]
    simp [HShiftRight.hShiftRight, Nat.repeat]
  have hrounded : (ExtendedMantissa.ofMantissaAndAccuracy m .exact).roundedMantissa = m := rfl
  rw [roundWithAccuracy, hshift]
  simp only [hrounded, hshift, mantissa_ofMantissaAndAccuracy, hm.ne', dite_false]

end MapQuery.Rounding
