import MapQuery.Decimal.Layout
import MapQuery.Proofs.Decimal.Exact
import MapQuery.Proofs.Decimal.Spelling

/-!
# Floats and integers read back from their written form

The written form of a finite float is the text of a numeral with a point or an exponent, and that
numeral is read as the float (`exists_numeral_of_isFinite`). The layout decides only where the point
stands and how many zeros are added, neither of which changes the value. The written form of an
integer is the text of a numeral without point and exponent (`integerNumeral`).
-/

namespace MapQuery.Decimal

open Numeral

/-! ## Digits -/

theorem digitsValue_eq (digits : List Char) : digitsValue digits = Nat.ofDigitChars 10 digits 0 :=
  rfl

theorem digitsValue_toDigits (n : ℕ) : digitsValue (Nat.toDigits 10 n) = n :=
  Nat.ofDigitChars_ten_toDigits

theorem digitsValue_append (a b : List Char) :
    digitsValue (a ++ b) = 10 ^ b.length * digitsValue a + digitsValue b := by
  rw [digitsValue_eq, Nat.ofDigitChars_append, Nat.ofDigitChars_eq_ofDigitChars_zero]
  rfl

@[simp] theorem digitsValue_replicate_zero (k : ℕ) : digitsValue (List.replicate k '0') = 0 := by
  rw [digitsValue_eq, Nat.ofDigitChars_replicate_zero, Nat.mul_zero]

theorem isDigit_of_mem_toDigits {n : ℕ} {c : Char} (h : c ∈ Nat.toDigits 10 n) :
    Numeral.isDigit c = true := by
  have hc := Nat.isDigit_of_mem_toDigits (by decide) (by decide) h
  simp only [Char.isDigit, Bool.and_eq_true, decide_eq_true_eq] at hc
  simp only [Numeral.isDigit, Bool.and_eq_true, decide_eq_true_eq]
  exact hc

private theorem isDigit_of_mem_replicate {k : ℕ} {c : Char} (h : c ∈ List.replicate k '0') :
    Numeral.isDigit c = true := by
  rw [List.eq_of_mem_replicate h]
  decide

theorem head?_toDigits_ne_zero {n : ℕ} (h : n ≠ 0) : (Nat.toDigits 10 n).head? ≠ some '0' := by
  induction n using Nat.strongRecOn with
  | ind n ih =>
    rw [Nat.toDigits_eq_if (by decide)]
    split
    · rename_i hlt
      interval_cases n <;> first | exact absurd rfl h | decide
    · rename_i hge
      have hne : Nat.toDigits 10 (n / 10) ≠ [] := Nat.toDigits_ne_nil
      rw [List.head?_append_of_ne_nil _ hne]
      exact ih (n / 10) (by omega) (by omega)

/-! ## The significant digits -/

theorem exists_toDigits_eq (d : Decimal) :
    ∃ k, Nat.toDigits 10 d.digits = d.significantDigits ++ List.replicate k '0' := by
  set reversed := (Nat.toDigits 10 d.digits).reverse with hrev
  refine ⟨(reversed.takeWhile (· == '0')).length, ?_⟩
  have hzeros : reversed.takeWhile (· == '0')
      = List.replicate (reversed.takeWhile (· == '0')).length '0' := by
    rw [List.eq_replicate_iff]
    refine ⟨rfl, fun c hc ↦ ?_⟩
    simpa using List.all_eq_true.mp (List.all_takeWhile (p := (· == '0')) (l := reversed)) c hc
  have hsplit := congrArg List.reverse
    (List.takeWhile_append_dropWhile (p := (· == '0')) (l := reversed))
  rw [List.reverse_append, hrev, List.reverse_reverse] at hsplit
  rw [significantDigits, ← hrev, ← hsplit]
  congr 1
  rw [hzeros, List.reverse_replicate, List.length_replicate]

private theorem isDigit_of_mem_significantDigits {d : Decimal} {c : Char}
    (h : c ∈ d.significantDigits) : Numeral.isDigit c = true := by
  obtain ⟨k, hk⟩ := exists_toDigits_eq d
  exact isDigit_of_mem_toDigits (hk ▸ List.mem_append_left _ h)

/-- The significant digits, moved to where the point stands, are the number. -/
theorem value_eq_significantDigits (d : Decimal) :
    d.value = digitsValue d.significantDigits
      * 10 ^ (d.exponent + digitCount d.digits - d.significantDigits.length) := by
  obtain ⟨k, hk⟩ := exists_toDigits_eq d
  have hdigits : d.digits = 10 ^ k * digitsValue d.significantDigits := by
    rw [← digitsValue_toDigits d.digits, hk, digitsValue_append, digitsValue_replicate_zero,
      List.length_replicate, add_zero]
  have hcount : digitCount d.digits = d.significantDigits.length + k := by
    rw [digitCount, hk, List.length_append, List.length_replicate]
  have hexp : d.exponent + (digitCount d.digits : ℤ) - d.significantDigits.length
      = d.exponent + k := by
    rw [hcount]
    push_cast
    ring
  rw [value, hexp, zpow_add₀ (by norm_num), zpow_natCast, hdigits]
  push_cast
  ring

private theorem significantDigits_ne_nil {d : Decimal} (h : d.digits ≠ 0) :
    d.significantDigits ≠ [] := by
  intro hnil
  have hvalue := value_eq_significantDigits d
  rw [hnil, digitsValue_eq, Nat.ofDigitChars_nil, Nat.cast_zero, zero_mul] at hvalue
  exact (value_pos h).ne' hvalue

private theorem head?_significantDigits_ne_zero {d : Decimal} (h : d.digits ≠ 0) :
    d.significantDigits.head? ≠ some '0' := by
  obtain ⟨k, hk⟩ := exists_toDigits_eq d
  have hhead := head?_toDigits_ne_zero h
  rwa [hk, List.head?_append_of_ne_nil _ (significantDigits_ne_nil h)] at hhead

private theorem length_significantDigits_le (d : Decimal) :
    d.significantDigits.length ≤ digitCount d.digits := by
  obtain ⟨k, hk⟩ := exists_toDigits_eq d
  rw [digitCount, hk, List.length_append]
  exact Nat.le_add_right _ _

/-! ## Layouts are numerals -/

private theorem integerDigits_eq (z : ℤ) :
    integerDigits z = signText (decide (z < 0)) ++ Nat.toDigits 10 z.natAbs := by
  cases z with
  | ofNat n => rfl
  | negSucc n =>
    rw [decide_eq_true (Int.negSucc_lt_zero n)]
    rfl

/-- The numeral is written as `written`, and its value is that of `digits` with the point `point`
places after the first of them. Zeros may have been added, but never so many that the exponent
leaves the range of the point. -/
structure Spells (n : Numeral) (written digits : List Char) (point : ℤ) : Prop where
  /-- The parts of the numeral are digits. -/
  wellFormed : n.WellFormed
  /-- There is no minus sign. -/
  isNegative_eq : n.isNegative = false
  /-- The numeral has a point or an exponent. -/
  isInteger_eq : n.isInteger = false
  /-- The text of the numeral. -/
  text_eq : n.text = written
  /-- The zeros that were added lower the exponent. -/
  exists_zeros : ∃ zeros : ℕ, n.magnitude.digits = digitsValue digits * 10 ^ zeros ∧
    n.magnitude.exponent = point - digits.length - zeros ∧
    (zeros = 0 ∨ n.magnitude.exponent = -1)

/-- The digits around a point that stands before, between or after them. -/
def positionalNumeral (digits : List Char) (point : ℤ) : Numeral :=
  if point ≤ 0 then ⟨false, ['0'], some (List.replicate (-point).toNat '0' ++ digits), none⟩
  else if point.toNat < digits.length then
    ⟨false, digits.take point.toNat, some (digits.drop point.toNat), none⟩
  else ⟨false, digits ++ List.replicate (point.toNat - digits.length) '0', some ['0'], none⟩

section Positional

variable {digits : List Char} {point : ℤ}

/-- Zeros between the point and the digits. -/
theorem positionalNumeral_spells_before (hne : digits ≠ [])
    (hdigits : ∀ c ∈ digits, Numeral.isDigit c = true) (hpoint : point ≤ 0) :
    Spells (positionalNumeral digits point) (positional .literal digits point) digits point := by
  have hzero : Numeral.isDigit '0' = true := by decide
  rw [positionalNumeral, positional, if_pos hpoint, if_pos hpoint]
  refine ⟨⟨by simp, by simpa using hzero, ?_, by simp, fun _ ↦ rfl⟩, rfl, rfl, ?_, 0, ?_, ?_,
    Or.inl rfl⟩
  · intro fraction hf
    obtain rfl := Option.some.inj hf
    refine ⟨by simp [hne], fun c hc ↦ ?_⟩
    rcases List.mem_append.mp hc with hc | hc
    · exact isDigit_of_mem_replicate hc
    · exact hdigits c hc
  · simp [Numeral.text, signText, fractionText, exponentText]
  · have hlead : digitsValue ['0'] = 0 := rfl
    simp only [magnitude, Option.getD_some, digitsValue_append, hlead, mul_zero, zero_add,
      digitsValue_replicate_zero, pow_zero, mul_one]
  · simp only [magnitude, Option.getD_some, List.length_append, List.length_replicate]
    omega

/-- The point among the digits. -/
theorem positionalNumeral_spells_among (hdigits : ∀ c ∈ digits, Numeral.isDigit c = true)
    (hhead : digits.head? ≠ some '0') (hpoint : ¬point ≤ 0) (hlt : point.toNat < digits.length) :
    Spells (positionalNumeral digits point) (positional .literal digits point) digits point := by
  rw [positionalNumeral, positional, if_neg hpoint, if_neg hpoint, if_pos hlt, if_pos hlt]
  refine ⟨⟨?_, ?_, ?_, by simp, ?_⟩, rfl, rfl, ?_, 0, ?_, ?_, Or.inl rfl⟩
  · simp only [ne_eq, List.take_eq_nil_iff, not_or]
    exact ⟨by omega, List.ne_nil_of_length_pos (by omega)⟩
  · exact fun c hc ↦ hdigits c (List.mem_of_mem_take hc)
  · intro fraction hf
    obtain rfl := Option.some.inj hf
    exact ⟨by rw [ne_eq, List.drop_eq_nil_iff]; omega,
      fun c hc ↦ hdigits c (List.mem_of_mem_drop hc)⟩
  · intro h
    rw [List.head?_take, if_neg (by omega)] at h
    exact absurd h hhead
  · simp [Numeral.text, signText, fractionText, exponentText]
  · simp only [magnitude, Option.getD_some, List.take_append_drop, pow_zero, mul_one]
  · simp only [magnitude, Option.getD_some, List.length_drop]
    omega

/-- Zeros between the digits and the point. -/
theorem positionalNumeral_spells_behind (hne : digits ≠ [])
    (hdigits : ∀ c ∈ digits, Numeral.isDigit c = true) (hhead : digits.head? ≠ some '0')
    (hpoint : ¬point ≤ 0) (hge : ¬point.toNat < digits.length) :
    Spells (positionalNumeral digits point) (positional .literal digits point) digits point := by
  have hzero : Numeral.isDigit '0' = true := by decide
  rw [positionalNumeral, positional, if_neg hpoint, if_neg hpoint, if_neg hge, if_neg hge]
  refine ⟨⟨by simp [hne], ?_, ?_, by simp, ?_⟩, rfl, rfl, ?_,
    point.toNat - digits.length + 1, ?_, ?_, Or.inr rfl⟩
  · intro c hc
    rcases List.mem_append.mp hc with hc | hc
    · exact hdigits c hc
    · exact isDigit_of_mem_replicate hc
  · intro fraction hf
    obtain rfl := Option.some.inj hf
    simpa using hzero
  · intro h
    rw [List.head?_append_of_ne_nil _ hne] at h
    exact absurd h hhead
  · simp [Numeral.text, signText, fractionText, exponentText, Layout.literal]
  · have htail : digitsValue ['0'] = 0 := rfl
    simp only [magnitude, Option.getD_some, digitsValue_append, htail,
      digitsValue_replicate_zero, List.length_replicate, List.length_singleton, add_zero,
      pow_succ, pow_zero]
    ring
  · simp only [magnitude, Option.getD_some, List.length_singleton]
    omega

private theorem positionalNumeral_spells (hne : digits ≠ [])
    (hdigits : ∀ c ∈ digits, Numeral.isDigit c = true) (hhead : digits.head? ≠ some '0')
    (point : ℤ) :
    Spells (positionalNumeral digits point) (positional .literal digits point) digits point := by
  by_cases hpoint : point ≤ 0
  · exact positionalNumeral_spells_before hne hdigits hpoint
  · by_cases hlt : point.toNat < digits.length
    · exact positionalNumeral_spells_among hdigits hhead hpoint hlt
    · exact positionalNumeral_spells_behind hne hdigits hhead hpoint hlt

end Positional

/-- The digits with the point after the first one, and an exponent. -/
def scientificNumeral (digits : List Char) (point : ℤ) : Numeral :=
  ⟨false, digits.take 1, if digits.length ≤ 1 then none else some (digits.drop 1),
    some (decide (point - 1 < 0), Nat.toDigits 10 (point - 1).natAbs)⟩

private theorem scientificNumeral_spells {digits : List Char} (hne : digits ≠ [])
    (hdigits : ∀ c ∈ digits, Numeral.isDigit c = true) (hhead : digits.head? ≠ some '0')
    (point : ℤ) :
    Spells (scientificNumeral digits point) (scientific digits point) digits point := by
  have hlen : 0 < digits.length := List.length_pos_iff.mpr hne
  have hfraction : (if digits.length ≤ 1 then none else some (digits.drop 1)).getD []
      = digits.drop 1 := by
    split
    · rename_i h
      rw [Option.getD_none, List.drop_of_length_le h]
    · rfl
  refine ⟨⟨?_, ?_, ?_, ?_, ?_⟩, rfl, ?_, ?_, 0, ?_, ?_, Or.inl rfl⟩
  · simp only [scientificNumeral, ne_eq, List.take_eq_nil_iff, not_or]
    exact ⟨by decide, hne⟩
  · exact fun c hc ↦ hdigits c (List.mem_of_mem_take hc)
  · intro fraction hf
    simp only [scientificNumeral, Option.mem_def] at hf
    split at hf
    · cases hf
    · rename_i hlong
      cases hf
      exact ⟨by rw [ne_eq, List.drop_eq_nil_iff]; exact hlong,
        fun c hc ↦ hdigits c (List.mem_of_mem_drop hc)⟩
  · intro e he
    obtain rfl := Option.some.inj he
    exact ⟨Nat.toDigits_ne_nil, fun c hc ↦ isDigit_of_mem_toDigits hc⟩
  · intro h
    rw [scientificNumeral, List.head?_take, if_neg (by decide)] at h
    exact absurd h hhead
  · simp [scientificNumeral, Numeral.isInteger]
  · rw [scientific, integerDigits_eq]
    by_cases h : digits.length ≤ 1 <;>
      simp [scientificNumeral, Numeral.text, signText, exponentText, fractionText, h]
  · simp only [magnitude, scientificNumeral, hfraction, List.take_append_drop, pow_zero, mul_one]
  · simp only [magnitude, scientificNumeral, hfraction, List.length_drop]
    rcases lt_or_ge (point - 1) 0 with hneg | hpos
    · simp only [decide_eq_true hneg, digitsValue_toDigits]
      omega
    · simp only [decide_eq_false (not_lt.mpr hpos), digitsValue_toDigits]
      omega

/-! ## Floats -/

theorem Spells.toFloat_eq {n : Numeral} {d : Decimal} {written : List Char}
    (h : Spells n written d.significantDigits (d.exponent + digitCount d.digits))
    (hd : d.digits ≠ 0) (hexp : -1074 ≤ d.exponent)
    (hpoint : d.exponent + digitCount d.digits ≤ 2048) : n.toFloat = d.toFloat := by
  obtain ⟨zeros, hdigits, hn, hzeros⟩ := h.exists_zeros
  have hlen := length_significantDigits_le d
  have hvalue : n.magnitude.value = d.value := by
    -- The added zeros cancel against the exponent.
    rw [value_eq_significantDigits d, value, hdigits, hn,
      zpow_sub₀ (by norm_num) _ (zeros : ℤ), zpow_natCast]
    push_cast
    field_simp
  have hne : n.magnitude.digits ≠ 0 := by
    intro h0
    have hpos := value_pos hd
    rw [← hvalue, value, h0, Nat.cast_zero, zero_mul] at hpos
    exact lt_irrefl 0 hpos
  have hmoderate : n.magnitude.IsModerate := by
    unfold IsModerate
    omega
  have hmoderate' : d.IsModerate := by
    unfold IsModerate
    omega
  rw [Numeral.toFloat, h.isNegative_eq, if_neg Bool.false_ne_true]
  exact toFloat_eq_of_value_eq hne hd hmoderate hmoderate' hvalue

private theorem exists_spells {d : Decimal} (hd : d.digits ≠ 0) :
    ∃ n, Spells n (writtenDecimal .literal d) d.significantDigits
      (d.exponent + digitCount d.digits) := by
  have hne := significantDigits_ne_nil hd
  have hdigits : ∀ c ∈ d.significantDigits, Numeral.isDigit c = true :=
    fun c hc ↦ isDigit_of_mem_significantDigits hc
  have hhead := head?_significantDigits_ne_zero hd
  simp only [writtenDecimal]
  split
  · exact ⟨_, scientificNumeral_spells hne hdigits hhead _⟩
  · exact ⟨_, positionalNumeral_spells hne hdigits hhead _⟩

/-- `0.0`, or `-0.0`. -/
def zeroNumeral (isNegative : Bool) : Numeral := ⟨isNegative, ['0'], some ['0'], none⟩

private theorem zeroNumeral_wellFormed (isNegative : Bool) : (zeroNumeral isNegative).WellFormed :=
  ⟨by simp [zeroNumeral], by simp [zeroNumeral, Numeral.isDigit],
    by simp [zeroNumeral, Numeral.isDigit], by simp [zeroNumeral], fun _ ↦ rfl⟩

theorem exists_numeral_of_magnitude {x : Float} {e : BitVec 11} {m : BitVec 52}
    (h : HasFields x .positive e m) :
    ∃ n : Numeral, n.WellFormed ∧ n.isNegative = false ∧ n.isInteger = false ∧
      n.text = writtenMagnitude .literal x ∧ n.magnitude.toFloat = x := by
  rw [writtenMagnitude, h.isInf_eq, if_neg Bool.false_ne_true]
  by_cases hx : mantissa x = 0
  · refine ⟨zeroNumeral false, zeroNumeral_wellFormed false, rfl, rfl, ?_, ?_⟩
    · rw [if_pos hx]
      rfl
    · rw [toFloat_of_digits_eq_zero rfl, ← h.unpack_eq_zero hx]
      exact ofModel_pack_unpack _
  · obtain ⟨n, hn⟩ := exists_spells (h.digits_shortest_ne_zero hx)
    obtain ⟨hexp, hpoint⟩ := h.shortest_bounds
    have hread := hn.toFloat_eq (h.digits_shortest_ne_zero hx) hexp hpoint
    rw [Numeral.toFloat, hn.isNegative_eq, if_neg Bool.false_ne_true] at hread
    refine ⟨n, hn.wellFormed, hn.isNegative_eq, hn.isInteger_eq, ?_, ?_⟩
    · rw [if_neg hx, hn.text_eq]
    · rw [hread, h.toFloat_shortest hx]

/-- **The written form of a finite float reads back**: it is the text of a numeral with a point or
an exponent, whose value is the float. -/
theorem exists_numeral_of_isFinite {x : Float} (hx : x.isFinite = true) :
    ∃ n : Numeral, n.WellFormed ∧ n.isInteger = false ∧ n.text = written .literal x ∧
      n.toFloat = x := by
  obtain ⟨s, e, m, h⟩ := isFinite_iff_exists_hasFields.mp hx
  rw [written, h.isNaN_eq, if_neg Bool.false_ne_true, h.isNegative_eq]
  cases s with
  | positive =>
    obtain ⟨n, hwf, hsign, hint, htext, hread⟩ := exists_numeral_of_magnitude h
    exact ⟨n, hwf, hint, htext, by
      rw [Numeral.toFloat, hsign, if_neg Bool.false_ne_true, hread]⟩
  | negative =>
    obtain ⟨n, hwf, hsign, hint, htext, hread⟩ := exists_numeral_of_magnitude h.neg
    -- The digits are those of the float without its sign.
    refine ⟨{ n with isNegative := true }, ⟨hwf.1, hwf.2, hwf.3, hwf.4, hwf.5⟩, hint, ?_, ?_⟩
    · rw [if_pos (by decide), ← htext, Numeral.text, Numeral.text, hsign]
      rfl
    · change -n.magnitude.toFloat = x
      rw [hread]
      exact h.neg.neg.eq h

/-! ## Infinities, and what is not a number -/

theorem isInf_of_isFinite_eq_false {x : Float} (hx : x.isFinite = false) (hnan : x.isNaN = false) :
    x.isInf = true ∧ (-x).isInf = true := by
  obtain ⟨s, hs⟩ : ∃ s, x.toModel.unpack = .infinity s := by
    have hfinite : x.toModel.unpack.isFinite = false := hx
    have hnumber : x.toModel.unpack.isNaN = false := hnan
    cases hu : x.toModel.unpack with
    | infinity s => exact ⟨s, rfl⟩
    | notANumber => exact absurd (hu ▸ hnumber) (by decide)
    | zero s => exact absurd (hu ▸ hfinite) Bool.noConfusion
    | finite s m e hm => exact absurd (hu ▸ hfinite) Bool.noConfusion
  have hself : x.isInf = x.toModel.unpack.isInf := rfl
  have hneg : (-x).isInf = (Float.Model.UnpackedFloat.unpack .binary64
      (Float.Model.UnpackedFloat.pack .binary64 x.toModel.unpack.neg)).isInf := rfl
  rw [hself, hneg, hs]
  cases s <;> exact ⟨rfl, rfl⟩

theorem written_of_isFinite_eq_false {x : Float} (hx : x.isFinite = false) :
    written .literal x = "NaN".toList ∨ written .literal x = "inf".toList ∨
      written .literal x = "-inf".toList := by
  rw [written]
  by_cases hnan : x.isNaN = true
  · rw [if_pos hnan]
    exact Or.inl rfl
  · obtain ⟨hinf, hneg⟩ := isInf_of_isFinite_eq_false hx (Bool.eq_false_iff.mpr hnan)
    rw [if_neg hnan]
    split
    · rw [writtenMagnitude, if_pos hneg]
      exact Or.inr (Or.inr rfl)
    · rw [writtenMagnitude, if_pos hinf]
      exact Or.inr (Or.inl rfl)

/-! ## Integers -/

/-- The digits of an integer. -/
def integerNumeral (z : ℤ) : Numeral :=
  ⟨decide (z < 0), Nat.toDigits 10 z.natAbs, none, none⟩

theorem integerNumeral_wellFormed (z : ℤ) : (integerNumeral z).WellFormed := by
  refine ⟨Nat.toDigits_ne_nil, fun _ hc ↦ isDigit_of_mem_toDigits hc, by simp [integerNumeral],
    by simp [integerNumeral], fun h ↦ ?_⟩
  rw [integerNumeral] at h ⊢
  by_cases hz : z.natAbs = 0
  · rw [hz]
    rfl
  · exact absurd h (head?_toDigits_ne_zero hz)

@[simp] theorem text_integerNumeral (z : ℤ) : (integerNumeral z).text = integerDigits z := by
  rw [integerDigits_eq]
  simp [integerNumeral, Numeral.text, fractionText, exponentText]

@[simp] theorem isInteger_integerNumeral (z : ℤ) : (integerNumeral z).isInteger = true := rfl

@[simp] theorem toInt_integerNumeral (z : ℤ) : (integerNumeral z).toInt = z := by
  simp only [integerNumeral, toInt, digitsValue_toDigits, decide_eq_true_eq]
  split <;> omega

theorem toInt64?_integerNumeral (value : Int64) :
    (integerNumeral value.toInt).toInt64? = some value := by
  have hmin := Int64.minValue_le_toInt value
  have hmax := Int64.toInt_le value
  rw [toInt64?, toInt_integerNumeral, if_pos, Int64.ofInt_toInt]
  exact ⟨hmin, hmax⟩

end MapQuery.Decimal
