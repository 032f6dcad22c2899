import MapQuery.Proofs.Language.Grammar

/-!
# Words of the grammar and how they are scanned

Whatever is scanned at the front of a text is a gap, a quotation or a numeral in the sense of the
grammar. The other way round, scanning takes as much as it can, and so finds a gap only up to a
character that is not filler, and a numeral only in front of a character that does not go on with
it; a quotation is found whatever follows.
-/

namespace MapQuery.Language

open Text

/-! ## Gaps -/

section Filler

variable {isSpace : Char → Bool} {text rest : List Char}

/-- Whether filler may begin with the character. -/
def startsFiller (isSpace : Char → Bool) (c : Char) : Bool := isSpace c || c == '#'

private theorem stops_skipFiller (isSpace : Char → Bool) (inComment : Bool) (text : List Char) :
    Stops (startsFiller isSpace) (skipFiller isSpace inComment text) := by
  induction text generalizing inComment with
  | nil => exact stops_nil _
  | cons c rest ih =>
    rw [skipFiller]
    split
    · exact ih _
    split
    · exact ih _
    split
    · exact ih _
    · rename_i hspace hnumber
      rw [stops_cons, startsFiller, Bool.or_eq_false_iff]
      exact ⟨Bool.eq_false_iff.mpr hspace, Bool.eq_false_iff.mpr hnumber⟩

/-- What is skipped is filler; in a comment, what is skipped first is the rest of the comment. -/
theorem filler_skipFiller (hline : isSpace '\n' = true) (text : List Char) :
    Filler isSpace text (skipFiller isSpace false text) ∧
      ∃ body after, text = body ++ after ∧ '\n' ∉ body ∧ AtLineEnd after ∧
        Filler isSpace after (skipFiller isSpace true text) := by
  induction text with
  | nil => exact ⟨.nothing [], [], [], rfl, List.not_mem_nil, Or.inl rfl, .nothing []⟩
  | cons c rest ih =>
    obtain ⟨hoff, body, after, hbody⟩ := ih
    obtain ⟨rfl, hnone, hend, hfiller⟩ := hbody
    constructor
    · rw [skipFiller, if_neg Bool.false_ne_true]
      split
      · rename_i hspace
        exact .space hspace hoff
      split
      · rename_i hnumber
        rw [beq_iff_eq.mp hnumber]
        exact .comment hnone hend hfiller
      · exact .nothing _
    · rw [skipFiller, if_pos rfl]
      by_cases hc : c = '\n'
      · subst hc
        exact ⟨[], '\n' :: (body ++ after), rfl, List.not_mem_nil, Or.inr ⟨_, rfl⟩,
          .space hline hoff⟩
      · rw [bne_iff_ne.mpr hc]
        refine ⟨c :: body, after, rfl, ?_, hend, hfiller⟩
        rw [List.mem_cons, not_or]
        exact ⟨Ne.symm hc, hnone⟩

private theorem skipFiller_comment (hline : isSpace '\n' = true) {body : List Char}
    (hbody : '\n' ∉ body) (hend : AtLineEnd text) :
    skipFiller isSpace true (body ++ text) = skipFiller isSpace false text := by
  induction body with
  | nil =>
    obtain rfl | ⟨next, rfl⟩ := hend
    · rfl
    · rw [List.nil_append, skipFiller, if_pos rfl, skipFiller, if_neg Bool.false_ne_true,
        if_pos hline]
      rfl
  | cons c body ih =>
    rw [List.mem_cons, not_or] at hbody
    rw [List.cons_append, skipFiller, if_pos rfl, bne_iff_ne.mpr (Ne.symm hbody.1)]
    exact ih hbody.2

theorem Filler.skipFiller_eq (hline : isSpace '\n' = true) (hnumber : isSpace '#' = false)
    (h : Filler isSpace text rest) (hrest : Stops (startsFiller isSpace) rest) :
    skipFiller isSpace false text = rest := by
  induction h with
  | nothing rest =>
    rcases rest with _ | ⟨c, rest⟩
    · rfl
    · rw [stops_cons, startsFiller, Bool.or_eq_false_iff] at hrest
      simp [skipFiller, hrest.1, hrest.2]
  | space hc _ ih =>
    rw [skipFiller, if_neg Bool.false_ne_true, if_pos hc]
    exact ih hrest
  | comment hbody hend _ ih =>
    rw [skipFiller, if_neg Bool.false_ne_true, hnumber, if_neg Bool.false_ne_true,
      if_pos (beq_self_eq_true '#'), skipFiller_comment hline hbody hend]
    exact ih hrest

theorem Filler.suffix (h : Filler isSpace text rest) : rest <:+ text := by
  induction h with
  | nothing => exact List.suffix_rfl
  | space _ _ ih => exact ih.trans (List.suffix_cons _ _)
  | comment _ _ _ ih => exact (ih.trans (List.suffix_append _ _)).trans (List.suffix_cons _ _)

theorem Filler.stops {kind : Char → Bool} (h : Filler isSpace text rest)
    (hfiller : ∀ c, startsFiller isSpace c = true → kind c = false) (hrest : Stops kind rest) :
    Stops kind text := by
  cases h with
  | nothing => exact hrest
  | space hc _ =>
    rw [stops_cons]
    exact hfiller _ (by rw [startsFiller, hc, Bool.true_or])
  | comment =>
    rw [stops_cons]
    exact hfiller _ (by rw [startsFiller, beq_self_eq_true, Bool.or_true])

/-- A text is skipped up to the rest exactly if there is a gap up to it that nothing prolongs. -/
theorem skipGap_eq_iff : skipGap text = rest ↔ Gap text rest ∧ Stops startsGap rest := by
  constructor
  · rintro rfl
    exact ⟨(filler_skipFiller (by decide) text).1, stops_skipFiller _ _ _⟩
  · rintro ⟨h, hrest⟩
    exact h.skipFiller_eq (by decide) (by decide) hrest

theorem Gap.skipGap_cons {c : Char} {tail : List Char} (h : Gap text (c :: tail))
    (hc : startsGap c = false) : skipGap text = c :: tail :=
  skipGap_eq_iff.mpr ⟨h, by rwa [stops_cons]⟩

theorem skipSeparators_eq_iff :
    skipSeparators text = rest ↔ Separators text rest ∧ Stops (startsFiller isSeparator) rest := by
  constructor
  · rintro rfl
    exact ⟨(filler_skipFiller (by decide) text).1, stops_skipFiller _ _ _⟩
  · rintro ⟨h, hrest⟩
    exact h.skipFiller_eq (by decide) (by decide) hrest

end Filler

/-! ## Quotations -/

private theorem escape_iff {c : Char} {meaning : List Char} :
    Escape c meaning ↔ meaning = unescaped c := by
  constructor
  · intro h
    cases h with
    | newline => rfl
    | tab => rfl
    | carriageReturn => rfl
    | zero => rfl
    | same h =>
      simp only [List.mem_cons, List.not_mem_nil, or_false] at h
      obtain rfl | rfl | rfl := h <;> rfl
    | other h => simp_all [unescaped]
  · rintro rfl
    rw [unescaped]
    split
    · rename_i h
      rw [beq_iff_eq.mp h]
      exact .newline
    split
    · rename_i h
      rw [beq_iff_eq.mp h]
      exact .tab
    split
    · rename_i h
      rw [beq_iff_eq.mp h]
      exact .carriageReturn
    split
    · rename_i h
      rw [beq_iff_eq.mp h]
      exact .zero
    split
    · rename_i h
      exact .same (by simpa [or_assoc] using h)
    · rename_i hn ht hr hz hsame
      refine .other ?_
      simp_all

theorem quoted_of_scanQuoted {quote : Char} {text value rest : List Char}
    (h : scanQuoted quote text = some (value, rest)) : Quoted quote text value rest := by
  induction text using scanQuoted.induct quote generalizing value with
  | case1 => cases h
  | case2 => cases h
  | case3 c tail ih =>
    simp only [scanQuoted, Option.bind_eq_bind, Option.bind_eq_some_iff] at h
    obtain ⟨⟨inner, rest'⟩, hinner, heq⟩ := h
    simp only [Option.pure_def, Option.some.injEq, Prod.mk.injEq] at heq
    obtain ⟨rfl, rfl⟩ := heq
    exact .escape (escape_iff.mpr rfl) (ih hinner)
  | case4 c tail hnil hcons hline =>
    rw [scanQuoted, if_pos hline] at h
    · cases h
    · exact hnil
    · exact hcons
  | case5 c tail hnil hcons hline hquote =>
    rw [scanQuoted, if_neg hline, if_pos hquote] at h
    · obtain ⟨rfl, rfl⟩ := Prod.mk.inj (Option.some.inj h)
      rw [beq_iff_eq.mp hquote]
      exact .close _
    · exact hnil
    · exact hcons
  | case6 c tail hnil hcons hline hquote ih =>
    rw [scanQuoted, if_neg hline, if_neg hquote] at h
    · simp only [Option.bind_eq_bind, Option.bind_eq_some_iff] at h
      obtain ⟨⟨inner, rest'⟩, hinner, heq⟩ := h
      simp only [Option.pure_def, Option.some.injEq, Prod.mk.injEq] at heq
      obtain ⟨rfl, rfl⟩ := heq
      exact .char (by simpa using hline) (ne_backslash hnil hcons) (by simpa using hquote)
        (ih hinner)
    · exact hnil
    · exact hcons

theorem Quoted.scanQuoted_eq {quote : Char} (hquote : quote = '\'' ∨ quote = '"')
    {text value rest : List Char} (h : Quoted quote text value rest) :
    scanQuoted quote text = some (value, rest) := by
  induction h with
  | close rest => obtain rfl | rfl := hquote <;> rfl
  | escape hc _ ih =>
    rw [escape_iff.mp hc, scanQuoted, ih]
    rfl
  | char hline hback hne _ ih => exact scanQuoted_cons hback hline hne ih

theorem isQuote_iff {c : Char} : isQuote c = true ↔ c = '\'' ∨ c = '"' := by
  simp [isQuote]

/-! ## Numerals -/

section Numeral

open Numeral

variable {text rest : List Char}

theorem scanDigits_append_rest (text : List Char) :
    text = (scanDigits text).1 ++ (scanDigits text).2 := by
  rw [scanDigits, List.takeWhile_append_dropWhile]

private theorem isDigit_of_mem_scanDigits {c : Char} (h : c ∈ (scanDigits text).1) :
    isDigit c = true :=
  List.mem_takeWhile_imp h

theorem digits_of_scanDigits {digits : List Char} (h : scanDigits text = (digits, rest))
    (hne : digits ≠ []) : Digits digits ∧ text = digits ++ rest := by
  have hsplit := scanDigits_append_rest text
  rw [h] at hsplit
  exact ⟨⟨hne, fun c hc ↦ isDigit_of_mem_scanDigits (by rwa [h])⟩, hsplit⟩

theorem exists_signText (text : List Char) :
    ∃ sign, SignText (scanSign text).1 sign ∧ text = sign ++ (scanSign text).2 := by
  unfold scanSign
  split
  · exact ⟨['-'], .minus, rfl⟩
  · exact ⟨['+'], .plus, rfl⟩
  · exact ⟨[], .nothing, rfl⟩

theorem SignText.scanSign_append {isNegative : Bool} {sign : List Char}
    (h : SignText isNegative sign) (hrest : Stops (fun c ↦ c == '+' || c == '-') rest) :
    scanSign (sign ++ rest) = (isNegative, rest) := by
  cases h with
  | plus => rfl
  | minus => rfl
  | nothing =>
    rw [List.nil_append]
    unfold scanSign
    split
    · rw [stops_cons] at hrest
      cases hrest
    · rw [stops_cons] at hrest
      cases hrest
    · rfl

theorem exists_exponentText (text : List Char) :
    ∃ exponent, ExponentText (scanExponent text).1 exponent ∧
      text = exponent ++ (scanExponent text).2 := by
  rw [scanExponent.eq_def]
  split
  · exact ⟨[], .nothing, rfl⟩
  · rename_i mark rest
    split
    · rename_i hmark
      obtain ⟨sign, hsign, hrest⟩ := exists_signText rest
      dsimp only
      split
      · exact ⟨[], .nothing, rfl⟩
      · rename_i digits after hne hscan
        obtain ⟨hdigits, hsplit⟩ := digits_of_scanDigits hscan hne
        refine ⟨mark :: (sign ++ digits), .exponent (by simpa using hmark) hsign hdigits, ?_⟩
        rw [List.cons_append, List.append_assoc, ← hsplit, ← hrest]
    · exact ⟨[], .nothing, rfl⟩

theorem exists_mantissaText {whole : List Char} {fraction : Option (List Char)}
    (h : scanMantissa text = .ok (whole, fraction, rest)) :
    ∃ mantissa, MantissaText whole fraction mantissa ∧ text = mantissa ++ rest := by
  rw [scanMantissa.eq_def] at h
  split at h
  · rename_i after hscan
    split at h
    · cases h
    · rename_i digits after' hne hscan'
      obtain ⟨rfl, rfl, rfl⟩ : [] = whole ∧ some digits = fraction ∧ after' = rest := by
        simpa using h
      have hempty := scanDigits_append_rest text
      rw [hscan, List.nil_append] at hempty
      obtain ⟨hdigits, hsplit⟩ := digits_of_scanDigits hscan' hne
      exact ⟨'.' :: digits, .fraction hdigits, by rw [List.cons_append, ← hsplit, hempty]⟩
  · cases h
  · rename_i digits after hne hscan
    obtain ⟨rfl, rfl, rfl⟩ : digits = whole ∧ some (scanDigits after).1 = fraction ∧
        (scanDigits after).2 = rest := by
      simpa using h
    obtain ⟨hdigits, hsplit⟩ := digits_of_scanDigits hscan hne
    refine ⟨digits ++ '.' :: (scanDigits after).1,
      .point hdigits fun _ ↦ isDigit_of_mem_scanDigits, ?_⟩
    rw [List.append_assoc, List.cons_append, ← scanDigits_append_rest, ← hsplit]
  · rename_i digits after _ hne _ hscan
    obtain ⟨rfl, rfl, rfl⟩ : digits = whole ∧ none = fraction ∧ after = rest := by simpa using h
    obtain ⟨hdigits, hsplit⟩ := digits_of_scanDigits hscan hne
    exact ⟨digits, .whole hdigits, hsplit⟩

/-- **What is scanned as a numeral is one.** -/
theorem exists_numeralText {n : Numeral} (h : scan text = .ok (n, rest)) :
    ∃ spelling, NumeralText n spelling ∧ text = spelling ++ rest := by
  rw [scan] at h
  dsimp only at h
  split at h
  · cases h
  · rename_i whole fraction after hscan
    obtain ⟨rfl, rfl⟩ := Prod.mk.inj (Except.ok.inj h)
    obtain ⟨sign, hsign, hafter⟩ := exists_signText text
    obtain ⟨mantissa, hmantissa, hrest⟩ := exists_mantissaText hscan
    obtain ⟨exponent, hexponent, hend⟩ := exists_exponentText after
    refine ⟨sign ++ (mantissa ++ exponent), .spelled hsign hmantissa hexponent, ?_⟩
    rw [List.append_assoc, List.append_assoc, ← hend, ← hrest, ← hafter]

theorem Digits.exists_cons {digits : List Char} (h : Digits digits) :
    ∃ c tail, digits = c :: tail ∧ isDigit c = true := by
  obtain ⟨c, tail, rfl⟩ := List.exists_cons_of_ne_nil h.1
  exact ⟨c, tail, rfl, h.2 c List.mem_cons_self⟩

theorem Digits.stops {digits : List Char} (h : Digits digits) {kind : Char → Bool}
    (hkind : ∀ c, isDigit c = true → kind c = false) (rest : List Char) :
    Stops kind (digits ++ rest) := by
  obtain ⟨c, tail, rfl, hc⟩ := h.exists_cons
  rw [List.cons_append, stops_cons]
  exact hkind c hc

theorem MantissaText.stops {whole mantissa : List Char} {fraction : Option (List Char)}
    (h : MantissaText whole fraction mantissa) {kind : Char → Bool}
    (hkind : ∀ c, isDigit c = true → kind c = false) (hpoint : kind '.' = false)
    (rest : List Char) : Stops kind (mantissa ++ rest) := by
  cases h with
  | whole h => exact h.stops hkind rest
  | point h =>
    rw [List.append_assoc]
    exact h.stops hkind _
  | fraction => rwa [List.cons_append, stops_cons]

private theorem isSign_of_isDigit {c : Char} (h : isDigit c = true) :
    (c == '+' || c == '-') = false := by
  obtain ⟨hlow, -⟩ := toNat_of_isDigit h
  rw [Bool.or_eq_false_iff, beq_eq_false_iff_ne, beq_eq_false_iff_ne]
  constructor
  · rintro rfl
    exact absurd hlow (by decide)
  · rintro rfl
    exact absurd hlow (by decide)

theorem MantissaText.scanMantissa_eq {whole mantissa : List Char} {fraction : Option (List Char)}
    (h : MantissaText whole fraction mantissa) (hrest : Stops isDigit rest)
    (hpoint : fraction = none → Stops (· == '.') rest) :
    scanMantissa (mantissa ++ rest) = .ok (whole, fraction, rest) := by
  cases h with
  | whole h => exact scanMantissa_append h.1 h.2 (by simp) hrest hpoint
  | @point _ digits h hfraction =>
    rw [List.append_assoc]
    refine scanMantissa_append h.1 h.2 (fun digits' hd ↦ ?_) hrest hpoint
    obtain rfl : digits = digits' := Option.some.inj hd
    exact hfraction
  | fraction h =>
    obtain ⟨c, tail, rfl, -⟩ := h.exists_cons
    have hnone : scanDigits ('.' :: (c :: tail ++ rest)) = ([], '.' :: (c :: tail ++ rest)) := rfl
    rw [List.cons_append, scanMantissa, hnone]
    simp only [scanDigits_append h.2 hrest]

theorem ExponentText.scanExponent_eq {e : Option (Bool × List Char)} {exponent : List Char}
    (h : ExponentText e exponent) (hrest : Stops continues rest) :
    scanExponent (exponent ++ rest) = (e, rest) := by
  cases h with
  | nothing => exact scanExponent_exponentText (e := none) (by simp) hrest
  | exponent hmark hsign h =>
    have hstops := h.stops (fun _ ↦ isSign_of_isDigit) rest
    obtain ⟨c, tail, rfl, -⟩ := h.exists_cons
    rw [List.cons_append, List.append_assoc, scanExponent]
    simp only [hmark, hsign.scanSign_append hstops, scanDigits_append h.2 (stops_isDigit hrest),
      Bool.or_eq_true, beq_iff_eq, if_true]

theorem ExponentText.stops {e : Option (Bool × List Char)} {exponent : List Char}
    (h : ExponentText e exponent) {kind : Char → Bool} (hlower : kind 'e' = false)
    (hupper : kind 'E' = false) (hrest : Stops kind rest) : Stops kind (exponent ++ rest) := by
  cases h with
  | nothing => exact hrest
  | exponent hmark =>
    rw [List.cons_append, stops_cons]
    obtain rfl | rfl := hmark
    · exact hlower
    · exact hupper

/-- **A numeral is scanned** up to a character that does not go on with it. -/
theorem NumeralText.scan_eq {n : Numeral} {spelling : List Char} (h : NumeralText n spelling)
    (hrest : Stops continues rest) : scan (spelling ++ rest) = .ok (n, rest) := by
  cases h with
  | @spelled sign mantissa exponent hsign hmantissa hexponent =>
    have hsigns := hmantissa.stops (fun _ ↦ isSign_of_isDigit) (by decide) (exponent ++ rest)
    have hdigits := hexponent.stops (by decide) (by decide) (stops_isDigit hrest)
    have hpoint : Stops (· == '.') (exponent ++ rest) := by
      refine hexponent.stops (by decide) (by decide) fun c hc ↦ ?_
      have hcontinues := hrest c hc
      simp only [continues, Bool.or_eq_false_iff] at hcontinues
      exact hcontinues.1.1.2
    rw [scan]
    simp only [List.append_assoc, hsign.scanSign_append hsigns,
      hmantissa.scanMantissa_eq hdigits fun _ ↦ hpoint, hexponent.scanExponent_eq hrest]

private theorem toInt64?_eq_some_iff {n : Numeral} {value : Int64} :
    n.toInt64? = some value ↔ value.toInt = n.toInt := by
  rw [toInt64?]
  constructor
  · intro h
    split at h
    · rename_i hfits
      rw [Int64.toInt_minValue, Int64.toInt_maxValue] at hfits
      rw [← Option.some.inj h, Int64.toInt_ofInt_of_le hfits.1 (by omega)]
    · cases h
  · intro h
    have hmin := Int64.minValue_le_toInt value
    have hmax := Int64.toInt_le value
    rw [← h, if_pos ⟨hmin, hmax⟩, Int64.ofInt_toInt]

theorem isInteger_iff {n : Numeral} :
    n.isInteger = true ↔ n.fraction = none ∧ n.exponent = none := by
  rw [isInteger, Bool.and_eq_true, Option.isNone_iff_eq_none, Option.isNone_iff_eq_none]

/-- **A number is read** exactly if it is one, given that nothing goes on with it. -/
theorem readNumber_of_numeralText {n : Numeral} {spelling : List Char} {value : Literal}
    (h : NumeralText n spelling) (htree : NumberTree n value) (hrest : Stops continues rest) :
    readNumber (spelling ++ rest) = .read (.literal value) rest := by
  rw [readNumber, h.scan_eq hrest]
  dsimp only
  cases htree with
  | integer hinteger hvalue =>
    rw [if_pos (isInteger_iff.mpr hinteger), toInt64?_eq_some_iff.mpr hvalue]
  | float hfloat => rw [if_neg fun hinteger ↦ hfloat (isInteger_iff.mp hinteger)]

theorem exists_numeralText_of_readNumber {e : Expression} (h : readNumber text = .read e rest) :
    ∃ n spelling value, NumeralText n spelling ∧ NumberTree n value ∧ text = spelling ++ rest ∧
      e = .literal value := by
  rw [readNumber] at h
  split at h
  · cases h
  · rename_i n after hscan
    obtain ⟨spelling, hspelling, rfl⟩ := exists_numeralText hscan
    split at h
    · rename_i hinteger
      split at h
      · rename_i value hvalue
        cases h
        exact ⟨n, spelling, _, hspelling,
          .integer (isInteger_iff.mp hinteger) (toInt64?_eq_some_iff.mp hvalue), rfl, rfl⟩
      · cases h
    · rename_i hfloat
      cases h
      exact ⟨n, spelling, _, hspelling, .float fun h ↦ hfloat (isInteger_iff.mpr h), rfl, rfl⟩

end Numeral

/-! ## Names -/

theorem nameTree_iff {word : String} {place : ℕ} {e : Expression} :
    NameTree word place e ↔ e = bareName word place := by
  constructor
  · intro h
    cases h with
    | true h => rw [bareName, if_pos h]
    | false h =>
      rw [bareName, if_neg, if_pos h]
      obtain rfl | rfl := h <;> decide
    | none h =>
      subst h
      rfl
    | name h => simp_all [bareName]
  · rintro rfl
    rw [bareName]
    split
    · rename_i h
      exact .true h
    split
    · rename_i h
      exact .false h
    split
    · rename_i h
      exact .none h
    · exact .name (by simp_all)

private theorem isNamePart_of_isNameStart {c : Char} (h : isNameStart c = true) :
    isNamePart c = true := by
  rw [isNameStart, Bool.or_eq_true] at h
  rw [isNamePart, Bool.or_eq_true, Char.isAlphanum, Bool.or_eq_true]
  exact h.imp_left Or.inl

theorem exists_isName_of_scanName {c : Char} (hc : isNameStart c = true) (tail : List Char) :
    ∃ word, IsName word ∧ c :: tail = word ++ (scanName (c :: tail)).2 ∧
      (scanName (c :: tail)).1 = String.ofList word := by
  refine ⟨(c :: tail).takeWhile isNamePart, ⟨?_, fun _ ↦ List.mem_takeWhile_imp⟩,
    (List.takeWhile_append_dropWhile).symm, rfl⟩
  rw [List.takeWhile_cons_of_pos (isNamePart_of_isNameStart hc)]
  exact hc

end MapQuery.Language
