import MapQuery.Decimal.Numeral

/-!
# Numerals are scanned from their texts

A numeral whose parts are digits is scanned from the front of its text, whatever follows, as long as
that does not go on with a digit, a point or the mark of an exponent (`scan_text`).

Digits are read as the longest stretch of them at the front of a text, and names are read in the
same way. When a stretch is followed by a character of another kind, or by nothing, exactly the
stretch is taken and exactly the rest is left (`Text.takeWhile_append`).
-/

namespace MapQuery.Text

/-! ## Stretches of characters of one kind -/

/-- Whether a text does not begin with a character of the kind. -/
def Stops (kind : Char → Bool) (rest : List Char) : Prop := ∀ c ∈ rest.head?, kind c = false

@[simp] theorem stops_nil (kind : Char → Bool) : Stops kind [] := by
  simp [Stops]

@[simp] theorem stops_cons (kind : Char → Bool) (c : Char) (rest : List Char) :
    Stops kind (c :: rest) ↔ kind c = false := by
  simp [Stops]

theorem takeWhile_append {kind : Char → Bool} {stretch rest : List Char}
    (h : ∀ c ∈ stretch, kind c = true) (hrest : Stops kind rest) :
    (stretch ++ rest).takeWhile kind = stretch := by
  rw [List.takeWhile_append_of_pos h]
  cases rest with
  | nil => simp
  | cons c rest =>
    rw [List.takeWhile_cons_of_neg, List.append_nil]
    simpa using hrest

theorem dropWhile_append {kind : Char → Bool} {stretch rest : List Char}
    (h : ∀ c ∈ stretch, kind c = true) (hrest : Stops kind rest) :
    (stretch ++ rest).dropWhile kind = rest := by
  rw [List.dropWhile_append_of_pos h]
  cases rest with
  | nil => rfl
  | cons c rest =>
    rw [List.dropWhile_cons_of_neg]
    simpa using hrest

end MapQuery.Text

namespace MapQuery.Numeral

/-! ## Numerals -/

open Text

/-- The parts of the numeral are digits, with at least one on each side of the point and in the
exponent, and no other digits follow a leading zero. -/
structure WellFormed (n : Numeral) : Prop where
  whole_ne_nil : n.whole ≠ []
  whole_digits : ∀ c ∈ n.whole, isDigit c = true
  fraction_digits : ∀ digits ∈ n.fraction, digits ≠ [] ∧ ∀ c ∈ digits, isDigit c = true
  exponent_digits : ∀ e ∈ n.exponent, e.2 ≠ [] ∧ ∀ c ∈ e.2, isDigit c = true
  zero_first : n.whole.head? = some '0' → n.whole = ['0']

theorem WellFormed.exists_cons {n : Numeral} (h : n.WellFormed) :
    ∃ c tail, n.text = c :: tail ∧ (isDigit c = true ∨ c = '-') := by
  obtain ⟨c, tail, hwhole⟩ := List.exists_cons_of_ne_nil h.whole_ne_nil
  rw [text, hwhole]
  cases n.isNegative with
  | true => exact ⟨_, _, rfl, Or.inr rfl⟩
  | false => exact ⟨_, _, rfl, Or.inl (h.whole_digits c (hwhole ▸ List.mem_cons_self))⟩

/-- Whether the character may go on a numeral. -/
def continues (c : Char) : Bool := isDigit c || c == '.' || c == 'e' || c == 'E'

theorem stops_isDigit {rest : List Char} (h : Stops continues rest) : Stops isDigit rest := by
  intro c hc
  have hc' := h c hc
  simp only [continues, Bool.or_eq_false_iff] at hc'
  exact hc'.1.1.1

/-! ## Scanning -/

theorem scanDigits_append {digits rest : List Char} (h : ∀ c ∈ digits, isDigit c = true)
    (hrest : Stops isDigit rest) : scanDigits (digits ++ rest) = (digits, rest) := by
  rw [scanDigits, takeWhile_append h hrest, dropWhile_append h hrest]

private theorem scanSign_signText (isNegative : Bool) {digits : List Char} (hne : digits ≠ [])
    (h : ∀ c ∈ digits, isDigit c = true) (rest : List Char) :
    scanSign (signText isNegative ++ (digits ++ rest)) = (isNegative, digits ++ rest) := by
  obtain ⟨c, tail, rfl⟩ := List.exists_cons_of_ne_nil hne
  have hc : isDigit c = true := h c List.mem_cons_self
  cases isNegative
  · rw [signText, if_neg Bool.false_ne_true, List.nil_append, List.cons_append]
    unfold scanSign
    split
    · rename_i heq
      rw [(List.cons.inj heq).1] at hc
      exact absurd hc (by decide)
    · rename_i heq
      rw [(List.cons.inj heq).1] at hc
      exact absurd hc (by decide)
    · rfl
  · rfl

theorem scanExponent_exponentText {e : Option (Bool × List Char)}
    (h : ∀ p ∈ e, p.2 ≠ [] ∧ ∀ c ∈ p.2, isDigit c = true) {rest : List Char}
    (hrest : Stops continues rest) : scanExponent (exponentText e ++ rest) = (e, rest) := by
  cases e with
  | none =>
    cases rest with
    | nil => rfl
    | cons c rest =>
      have hc : continues c = false := by simpa using hrest
      simp only [continues, Bool.or_eq_false_iff] at hc
      simp [exponentText, scanExponent, hc.1.2, hc.2]
  | some p =>
    obtain ⟨isNegative, digits⟩ := p
    obtain ⟨hne, hdigits⟩ := h (isNegative, digits) rfl
    obtain ⟨c, tail, rfl⟩ := List.exists_cons_of_ne_nil hne
    rw [exponentText, List.cons_append, List.append_assoc, scanExponent]
    simp only [beq_self_eq_true, Bool.true_or, if_true,
      scanSign_signText isNegative hne hdigits rest,
      scanDigits_append hdigits (stops_isDigit hrest)]

private theorem stops_exponentText (e : Option (Bool × List Char)) {rest : List Char}
    (hrest : Stops continues rest) : Stops isDigit (exponentText e ++ rest) := by
  cases e with
  | none => exact stops_isDigit hrest
  | some p =>
    rw [exponentText, List.cons_append, stops_cons]
    decide

theorem scanMantissa_append {whole : List Char} (hne : whole ≠ [])
    (hwhole : ∀ c ∈ whole, isDigit c = true) {fraction : Option (List Char)}
    (hfraction : ∀ digits ∈ fraction, ∀ c ∈ digits, isDigit c = true) {rest : List Char}
    (hrest : Stops isDigit rest) (hpoint : fraction = none → Stops (· == '.') rest) :
    scanMantissa (whole ++ (fractionText fraction ++ rest)) = .ok (whole, fraction, rest) := by
  obtain ⟨c, tail, rfl⟩ := List.exists_cons_of_ne_nil hne
  cases fraction with
  | none =>
    rw [fractionText, List.nil_append, scanMantissa, scanDigits_append hwhole hrest]
    split
    · simp_all
    · simp_all
    · rename_i heq
      simp only [Prod.mk.injEq] at heq
      have hdot := hpoint rfl
      rw [heq.2] at hdot
      simp at hdot
    · rename_i heq
      simp only [Prod.mk.injEq] at heq
      rw [heq.1, heq.2]
  | some digits =>
    have hstop : Stops isDigit ('.' :: (digits ++ rest)) := by
      rw [stops_cons]
      decide
    change scanMantissa ((c :: tail) ++ '.' :: (digits ++ rest)) = _
    rw [scanMantissa, scanDigits_append hwhole hstop]
    simp only [scanDigits_append (hfraction digits rfl) hrest]

/-- **Scanning takes the whole numeral** and leaves what follows it. -/
theorem scan_text {n : Numeral} (h : n.WellFormed) {rest : List Char}
    (hrest : Stops continues rest) : scan (n.text ++ rest) = .ok (n, rest) := by
  have hdigits := stops_exponentText n.exponent hrest
  have hpoint : n.fraction = none → Stops (· == '.') (exponentText n.exponent ++ rest) := by
    intro _
    cases n.exponent with
    | none =>
      intro c hc
      have hc' := hrest c hc
      simp only [continues, Bool.or_eq_false_iff] at hc'
      exact hc'.1.1.2
    | some p => simp [exponentText]
  rw [text, scan]
  simp only [List.append_assoc, scanSign_signText n.isNegative h.whole_ne_nil h.whole_digits,
    scanMantissa_append h.whole_ne_nil h.whole_digits
      (fun digits hd ↦ (h.fraction_digits digits hd).2) hdigits hpoint, scanExponent_exponentText h.exponent_digits hrest]

end MapQuery.Numeral
