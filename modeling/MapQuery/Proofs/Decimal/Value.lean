import MapQuery.Decimal.Basic
import MapQuery.Proofs.Decimal.Rounding

/-!
# Reading a decimal depends on its value alone

The same number has many decimals: `500`, `5 * 10 ^ 2` and `5000 * 10 ^ (-1)`. For a whole power of
ten the float is found by a multiplication, for a negative one by a division, so that equal values
take different ways. `toFloat_eq_of_value_eq` says that they arrive at the same float.

The powers of ten have to be moderate. Beyond `10 ^ 2048` a decimal is taken as infinite, and below
the mirror image of it as zero, without a look at its digits.
-/

namespace MapQuery.Decimal

open Float.Model Float.Model.UnpackedFloat Rounding

/-- The number that a decimal stands for. -/
def value (d : Decimal) : ℚ := d.digits * 10 ^ d.exponent

theorem value_pos {d : Decimal} (h : d.digits ≠ 0) : 0 < d.value := by
  have hd : (0 : ℚ) < d.digits := by exact_mod_cast Nat.pos_of_ne_zero h
  exact mul_pos hd (zpow_pos (by norm_num) _)

/-- Whether the power of ten is one at which the digits count. -/
def IsModerate (d : Decimal) : Prop := -2048 ≤ d.exponent ∧ d.exponent ≤ 2048

/-! ## The two ways of reading -/

/-- `u` comes from rounding the positive number `v`, described at least as finely as floats are. -/
def Rounds (v : ℚ) (u : UnpackedFloat) : Prop :=
  ∃ m e a, Marks (.ofMantissaAndAccuracy m a) (v / 2 ^ e) ∧ e ≤ gridExponent v ∧
    u = roundWithAccuracy Format.binary64 .positive m e a

theorem Rounds.unique {v : ℚ} {u u' : UnpackedFloat} (hv : 0 < v) (h : Rounds v u)
    (h' : Rounds v u') : u = u' := by
  obtain ⟨m, e, a, hmarks, he, rfl⟩ := h
  obtain ⟨m', e', a', hmarks', he', rfl⟩ := h'
  exact roundWithAccuracy_congr .positive hv hmarks he hmarks' he'

/-- The way of a whole power of ten: one exact product of mantissas, the first of them far to the
left of the point. -/
theorem rounds_mul {m d : ℕ} (hm : 0 < m) (hd : 0 < d) (hone : 1 ≤ (m : ℚ) / 2 ^ 53 * d) :
    Rounds (m / 2 ^ 53 * d)
      (UnpackedFloat.mul Format.binary64 (.finite .positive m (-53) hm)
        (.finite .positive d 0 hd)) := by
  have hsign : (Sign.positive * .positive : Sign) = .positive := rfl
  refine ⟨m * d, -53, .exact, ?_, ?_, by rw [UnpackedFloat.mul, add_zero, hsign]⟩
  · have hv : (m / 2 ^ 53 * d : ℚ) / 2 ^ (-53 : ℤ) = ((m * d : ℕ) : ℚ) := by
      rw [zpow_neg, div_inv_eq_mul]
      push_cast
      norm_num
      ring
    rw [hv]
    exact marks_exact _
  · have hlog : 0 ≤ Int.log 2 (m / 2 ^ 53 * d : ℚ) := by
      rw [← Int.zpow_le_iff_le_log one_lt_two (by linarith)]
      simpa using hone
    rw [gridExponent_eq]
    omega

/-- A quotient has its leading bit where the leading bits of its parts tell, or one place below. -/
theorem log_div_ge {n d : ℕ} (hn : n ≠ 0) (hd : d ≠ 0) :
    (n.log2 : ℤ) - d.log2 - 1 ≤ Int.log 2 ((n : ℚ) / d) := by
  have hd0 : (0 : ℚ) < d := by exact_mod_cast Nat.pos_of_ne_zero hd
  have hn0 : (0 : ℚ) < n := by exact_mod_cast Nat.pos_of_ne_zero hn
  have hlow : (2 : ℚ) ^ n.log2 ≤ n := by exact_mod_cast Nat.log2_self_le hn
  have hhigh : (d : ℚ) ≤ 2 ^ (d.log2 + 1) := by exact_mod_cast Nat.lt_log2_self.le
  rw [← Int.zpow_le_iff_le_log one_lt_two (div_pos hn0 hd0), le_div_iff₀ hd0]
  calc ((2 : ℕ) : ℚ) ^ ((n.log2 : ℤ) - d.log2 - 1) * d
      ≤ ((2 : ℕ) : ℚ) ^ ((n.log2 : ℤ) - d.log2 - 1) * 2 ^ (d.log2 + 1) :=
        mul_le_mul_of_nonneg_left hhigh (zpow_nonneg (by norm_num) _)
    _ = 2 ^ n.log2 := by
        push_cast
        rw [← zpow_natCast, ← zpow_add₀ two_ne_zero, ← zpow_natCast]
        congr 1
        push_cast
        ring
    _ ≤ n := hlow

/-- The way of a negative power of ten: a quotient and the position of its remainder. -/
theorem rounds_div {n d : ℕ} (hn : 0 < n) (hd : 0 < d) :
    Rounds (n / d)
      (UnpackedFloat.div Format.binary64 (.finite .positive n 0 hn)
        (.finite .positive d 0 hd)) := by
  have hlog := log_div_ge hn.ne' hd.ne'
  simp only [UnpackedFloat.div, divCore, sub_self, zero_sub, targetExponent_eq, totalExponent]
  set e : ℤ := min 0 (max ((n.log2 : ℤ) + 1 + 0 - (d.log2 + 1 + 0) - 53) (-1074)) with he
  refine ⟨_, e, _, ?_, ?_, rfl⟩
  · have hv : (n : ℚ) / d / 2 ^ e = ((n <<< (-e).toNat : ℕ) : ℚ) / d := by
      rw [Nat.shiftLeft_eq, div_right_comm]
      congr 1
      rw [div_eq_mul_inv, ← zpow_neg]
      push_cast
      rw [← zpow_natCast, Int.toNat_of_nonneg (by omega)]
    rw [hv]
    exact marks_quotient _ hd
  · rw [gridExponent_eq]
    omega

theorem rounds_ofScientific {d : Decimal} (h : d.digits ≠ 0) (hd : d.IsModerate) :
    Rounds d.value (UnpackedFloat.ofScientific Format.binary64 d.digits d.exponent) := by
  obtain ⟨hlow, hhigh⟩ := hd
  have hn : 0 < d.digits := Nat.pos_of_ne_zero h
  have hlimit : (2 : ℤ) ^ Format.binary64.exponentBits = 2048 := by norm_num
  rw [UnpackedFloat.ofScientific, dif_neg h, if_neg (by omega), if_neg (by omega)]
  split
  · rename_i he
    obtain ⟨k, hk⟩ := Int.eq_ofNat_of_zero_le he
    have hv : d.value = ((d.digits <<< 53 : ℕ) : ℚ) / 2 ^ 53 * (10 ^ k : ℕ) := by
      rw [value, hk, Nat.shiftLeft_eq, zpow_natCast, Nat.cast_mul, Nat.cast_pow 2,
        Nat.cast_ofNat, mul_div_cancel_right₀ _ (by norm_num), Nat.cast_pow, Nat.cast_ofNat]
    have hone : (1 : ℚ) ≤ ((d.digits <<< 53 : ℕ) : ℚ) / 2 ^ 53 * (10 ^ k : ℕ) := by
      rw [← hv, value, hk, zpow_natCast]
      exact_mod_cast Nat.mul_pos hn (Nat.pow_pos (by decide))
    rw [hv]
    simp only [hk, Int.toNat_natCast]
    exact rounds_mul _ _ hone
  · rename_i he
    obtain ⟨k, hk⟩ := Int.eq_ofNat_of_zero_le (by omega : 0 ≤ -d.exponent)
    have hk' : d.exponent = -(k : ℤ) := by omega
    have hv : d.value = d.digits / (10 ^ k : ℕ) := by
      rw [value, hk', zpow_neg, zpow_natCast, div_eq_mul_inv]
      push_cast
      rfl
    rw [hv]
    simp only [hk', neg_neg, Int.toNat_natCast]
    exact rounds_div hn _

/-- **Reading depends on the value alone.** -/
theorem toFloat_eq_of_value_eq {a b : Decimal} (ha : a.digits ≠ 0) (hb : b.digits ≠ 0)
    (hma : a.IsModerate) (hmb : b.IsModerate) (h : a.value = b.value) : a.toFloat = b.toFloat := by
  have hra := rounds_ofScientific ha hma
  have hrb := rounds_ofScientific hb hmb
  rw [← h] at hrb
  rw [toFloat, toFloat, Float.Model.ofScientific, Float.Model.ofScientific,
    hra.unique (value_pos ha) hrb]

theorem toFloat_of_digits_eq_zero {d : Decimal} (h : d.digits = 0) :
    d.toFloat = .ofModel (.pack (.zero .positive)) := by
  rw [toFloat, Float.Model.ofScientific, UnpackedFloat.ofScientific, dif_pos h]

end MapQuery.Decimal
