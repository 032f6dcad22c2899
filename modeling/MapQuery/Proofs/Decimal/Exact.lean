import MapQuery.Proofs.Decimal.Fields
import MapQuery.Proofs.Decimal.Value

/-!
# The exact and the shortest decimal of a float read back

Every positive finite float has an exact decimal, and reading it gives the float again
(`toFloat_exact`): its value lies on the grid of floats, and rounding leaves such a value alone.
The search for a shorter decimal tests what it returns and falls back to the exact one, so the
shortest decimal reads back too (`toFloat_shortest`).
-/

namespace MapQuery.Decimal

open Float.Model Float.Model.UnpackedFloat Rounding

/-! ## The exact decimal -/

private theorem value_ofBinary (m : ℕ) (e : ℤ) : (ofBinary m e).value = m * 2 ^ e := by
  rw [ofBinary]
  split
  · rename_i he
    obtain ⟨k, rfl⟩ := Int.eq_ofNat_of_zero_le he
    rw [value, Int.toNat_natCast, Nat.shiftLeft_eq, zpow_zero, mul_one, zpow_natCast]
    push_cast
    rfl
  · rename_i he
    obtain ⟨k, hk⟩ := Int.eq_ofNat_of_zero_le (by omega : 0 ≤ -e)
    have hk' : e = -(k : ℤ) := by omega
    have hpow : (Nat.pow 5 k : ℕ) = 5 ^ k := rfl
    rw [value, hk', neg_neg, Int.toNat_natCast, hpow, zpow_neg, zpow_neg, zpow_natCast,
      zpow_natCast]
    have hten : (10 : ℚ) ^ k = 5 ^ k * 2 ^ k := by
      rw [← mul_pow]
      norm_num
    rw [hten]
    push_cast
    field_simp

private theorem digits_ofBinary_ne_zero {m : ℕ} (hm : m ≠ 0) (e : ℤ) :
    (ofBinary m e).digits ≠ 0 := by
  rw [ofBinary]
  split
  · rw [Nat.shiftLeft_eq]
    exact mul_ne_zero hm (pow_ne_zero _ two_ne_zero)
  · exact mul_ne_zero hm (pow_ne_zero _ (by decide))

private theorem digitCount_le_of_lt {n k : ℕ} (h : n < 10 ^ k) (hk : 0 < k) : digitCount n ≤ k :=
  (Nat.length_toDigits_le_iff (by decide) hk).mpr h

private theorem exponent_ofBinary (m : ℕ) (e : ℤ) : (ofBinary m e).exponent = min 0 e := by
  rw [ofBinary]
  split <;> simp <;> omega

/-- The exact decimal has no more digits than its mantissa and its exponent in bits. -/
theorem digits_ofBinary_lt {m : ℕ} (hm : m < 2 ^ 53) (e : ℤ) :
    (ofBinary m e).digits < 10 ^ (16 + e.natAbs) := by
  have hm' : m < 10 ^ 16 := lt_of_lt_of_le hm (by decide)
  have hbound {b k : ℕ} (hb0 : 0 < b) (hb : b ≤ 10) (hk : k = e.natAbs) :
      m * b ^ k < 10 ^ (16 + e.natAbs) := by
    rw [← hk, pow_add]
    calc m * b ^ k < 10 ^ 16 * b ^ k := Nat.mul_lt_mul_of_pos_right hm' (Nat.pow_pos hb0)
      _ ≤ 10 ^ 16 * 10 ^ k := Nat.mul_le_mul_left _ (Nat.pow_le_pow_left hb k)
  rw [ofBinary]
  split
  · rw [Nat.shiftLeft_eq]
    exact hbound (by decide) (by decide) (by omega)
  · exact hbound (by decide) (by decide) (by omega)

namespace HasFields

variable {x : Float} {s : Sign} {e : BitVec 11} {m : BitVec 52}

/-- A float lies on the grid of floats. -/
theorem targetExponent_eq_binaryExponent (h : HasFields x s e m) (hx : mantissa x ≠ 0) :
    Format.binary64.targetExponent (totalExponent (mantissa x) (binaryExponent x))
      = binaryExponent x := by
  have hlt := (Nat.log2_lt hx).mpr h.mantissa_lt
  have hbound := h.binaryExponent_mem
  rw [targetExponent_eq, totalExponent]
  rcases h.le_mantissa_or with hfull | hleast
  · have hge := (Nat.le_log2 hx).mpr hfull
    omega
  · omega

private theorem rounds_value_exact (h : HasFields x s e m) (hx : mantissa x ≠ 0) :
    Rounds (exact x).value
      (.finite .positive (mantissa x) (binaryExponent x) (Nat.pos_of_ne_zero hx)) := by
  have htarget := h.targetExponent_eq_binaryExponent hx
  have hmarks : Marks (.ofMantissaAndAccuracy (mantissa x) .exact)
      ((exact x).value / 2 ^ binaryExponent x) := by
    rw [exact, value_ofBinary, mul_div_cancel_right₀ _ (zpow_ne_zero _ two_ne_zero)]
    exact marks_exact _
  refine ⟨_, _, .exact, hmarks, ?_, (roundWithAccuracy_of_targetExponent _ _ htarget).symm⟩
  have hlog := log_eq_of_marks hx hmarks
  rw [gridExponent_eq, hlog]
  rw [targetExponent_eq, totalExponent] at htarget
  omega

private theorem isModerate_exact (h : HasFields x s e m) : (exact x).IsModerate := by
  have hbound := h.binaryExponent_mem
  rw [IsModerate, exact, exponent_ofBinary]
  omega

private theorem digitCount_exact_le (h : HasFields x s e m) :
    digitCount (exact x).digits ≤ 16 + (binaryExponent x).natAbs :=
  digitCount_le_of_lt (digits_ofBinary_lt h.mantissa_lt (binaryExponent x)) (by omega)

/-- **The exact decimal reads back.** -/
theorem toFloat_exact (h : HasFields x .positive e m) (hx : mantissa x ≠ 0) :
    (exact x).toFloat = x := by
  have hdigits : (exact x).digits ≠ 0 := digits_ofBinary_ne_zero hx _
  -- Two descriptions of one number: its decimal, and the fields of the float that it is.
  have hread := (rounds_ofScientific hdigits h.isModerate_exact).unique (value_pos hdigits)
    (h.rounds_value_exact hx)
  rw [toFloat, Float.Model.ofScientific, hread, ← h.unpack_eq_finite hx]
  exact ofModel_pack_unpack _

end HasFields

/-! ## The shortest decimal -/

theorem of_cut? {magnitude : Float} {d s : Decimal} {count : ℕ}
    (h : cut? magnitude d count = some s) :
    s.exponent = d.exponent + (digitCount d.digits - count : ℕ) ∧ s.digits ≤ d.digits + 1 := by
  have hbelow : (d.cutBelow count).digits ≤ d.digits := Nat.div_le_self _ _
  have habove : (d.cutAbove count).digits ≤ d.digits + 1 := Nat.succ_le_succ hbelow
  simp only [cut?] at h
  split at h
  · split at h <;> cases h
    · exact ⟨rfl, habove⟩
    · exact ⟨rfl, le_trans hbelow (Nat.le_succ _)⟩
  · split at h <;> cases h
    exact ⟨rfl, habove⟩

private theorem shortest_eq_or (magnitude : Float) :
    shortest magnitude = exact magnitude ∨
      ∃ count, cut? magnitude (exact magnitude) count = some (shortest magnitude) := by
  rw [shortest]
  cases h : (List.range' 1 17).findSome? (cut? magnitude (exact magnitude)) with
  | none => exact Or.inl rfl
  | some s =>
    obtain ⟨count, _, hcut⟩ := List.exists_of_findSome?_eq_some h
    exact Or.inr ⟨count, hcut⟩

namespace HasFields

variable {x : Float} {s : Sign} {e : BitVec 11} {m : BitVec 52}

/-- **The shortest decimal reads back.** -/
theorem toFloat_shortest (h : HasFields x .positive e m) (hx : mantissa x ≠ 0) :
    (shortest x).toFloat = x := by
  rcases shortest_eq_or x with heq | ⟨count, hcut⟩
  · rw [heq]
    exact h.toFloat_exact hx
  · exact toFloat_of_cut? hcut

/-- The shortest decimal is moderate, and so is the place of the point in front of its digits. -/
theorem shortest_bounds (h : HasFields x s e m) :
    -1074 ≤ (shortest x).exponent ∧
      (shortest x).exponent + digitCount (shortest x).digits ≤ 2048 := by
  have hcount := h.digitCount_exact_le
  have hbound := h.binaryExponent_mem
  have hexp : (exact x).exponent = min 0 (binaryExponent x) := exponent_ofBinary _ _
  rcases shortest_eq_or x with heq | ⟨count, hcut⟩
  · rw [heq]
    omega
  · obtain ⟨hcutexp, hle⟩ := of_cut? hcut
    -- A cut upwards may carry into a digit more than the exact decimal has.
    have hlt : (shortest x).digits < 10 ^ (17 + (binaryExponent x).natAbs) := by
      have hexact := digits_ofBinary_lt h.mantissa_lt (binaryExponent x)
      have hten : 10 ^ (17 + (binaryExponent x).natAbs)
          = 10 * 10 ^ (16 + (binaryExponent x).natAbs) := by
        rw [← pow_succ']
        congr 1
        omega
      rw [exact] at hle
      omega
    have hdigits := digitCount_le_of_lt hlt (by omega)
    omega

theorem digits_shortest_ne_zero (h : HasFields x .positive e m) (hx : mantissa x ≠ 0) :
    (shortest x).digits ≠ 0 := by
  intro h0
  -- Otherwise it would be read as zero, which has no mantissa.
  have hread := h.toFloat_shortest hx
  have hzero : HasFields (.ofModel (.pack (.zero .positive))) .positive 0#11 0#52 :=
    ⟨rfl, by decide⟩
  rw [toFloat_of_digits_eq_zero h0] at hread
  rw [hread] at hzero
  apply hx
  rw [hzero.mantissa_eq]
  rfl

end HasFields

end MapQuery.Decimal
