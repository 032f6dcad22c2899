import MapQuery.Proofs.Language.Soundness

/-!
# What is derived is read

The readers take as much as they can, and the rules of the grammar do not, so that a reader finds
the same only where nothing prolongs what was derived. Behind an argument that is a gap up to a
comma or a closing parenthesis, and behind a statement its end; neither prolongs a name or a numeral
(`Delimited`). With this, every derivation is followed by the readers, by induction on their bound;
a bound is enough if it exceeds the length of the text.
-/

namespace MapQuery.Language

open Text

variable {text rest : List Char}

/-! ## What may follow -/

/-- Whether the character ends every name and every numeral. -/
def isDelimiter (c : Char) : Bool := startsGap c || endsArgument c || c == ';'

/-- The text does not go on with a name or a numeral. -/
def Delimited (rest : List Char) : Prop := ∀ c ∈ rest.head?, isDelimiter c = true

/-- An argument ends here: behind a gap there is a comma or a closing parenthesis. -/
def EndsArgument (rest : List Char) : Prop :=
  ∃ c tail, Gap rest (c :: tail) ∧ endsArgument c = true

theorem endsArgument_iff {c : Char} : endsArgument c = true ↔ c = ',' ∨ c = ')' := by
  simp [endsArgument]

private theorem startsGap_of_endsArgument {c : Char} (h : endsArgument c = true) :
    startsGap c = false := by
  obtain rfl | rfl := endsArgument_iff.mp h <;> decide

private theorem isDelimiter_eq_false {c : Char} (hlow : 0x2C < c.toNat) (hhigh : c.toNat < 0x7F)
    (hne : c ≠ ';') : isDelimiter c = false := by
  rw [isDelimiter, startsGap_eq_false (by omega) hhigh, endsArgument_eq_false hlow,
    beq_eq_false_iff_ne.mpr hne]
  rfl

private theorem isDelimiter_of_isDigit {c : Char} (h : Numeral.isDigit c = true) :
    isDelimiter c = false := by
  obtain ⟨hlow, hhigh⟩ := toNat_of_isDigit h
  refine isDelimiter_eq_false (by omega) (by omega) ?_
  rintro rfl
  exact absurd hhigh (by decide)

theorem isDelimiter_of_isNamePart {c : Char} (h : isNamePart c = true) : isDelimiter c = false := by
  rw [isNamePart, Char.isAlphanum, Bool.or_eq_true, Bool.or_eq_true] at h
  obtain (halpha | hdigit) | hunderscore := h
  · have hstart : isNameStart c = true := by rw [isNameStart, halpha, Bool.true_or]
    obtain ⟨hlow, hhigh⟩ := toNat_of_isNameStart hstart
    refine isDelimiter_eq_false (by omega) (by omega) ?_
    rintro rfl
    exact absurd hlow (by decide)
  · refine isDelimiter_of_isDigit ?_
    simpa [Numeral.isDigit, Char.isDigit, Char.le_def] using hdigit
  · rw [beq_iff_eq.mp hunderscore]
    decide

private theorem isDelimiter_of_continues {c : Char} (h : Numeral.continues c = true) :
    isDelimiter c = false := by
  simp only [Numeral.continues, Bool.or_eq_true, beq_iff_eq] at h
  obtain ((hdigit | rfl) | rfl) | rfl := h
  · exact isDelimiter_of_isDigit hdigit
  · decide
  · decide
  · decide

theorem Delimited.stops (h : Delimited rest) {kind : Char → Bool}
    (hkind : ∀ c, kind c = true → isDelimiter c = false) : Stops kind rest := by
  intro c hc
  refine Bool.eq_false_iff.mpr fun hkindc ↦ ?_
  have hdelimiter := hkind c hkindc
  rw [h c hc] at hdelimiter
  cases hdelimiter

theorem Delimited.stops_isNamePart (h : Delimited rest) : Stops isNamePart rest :=
  h.stops fun _ ↦ isDelimiter_of_isNamePart

theorem EndsArgument.delimited (h : EndsArgument rest) : Delimited rest := by
  obtain ⟨c, tail, hgap, hc⟩ := h
  have hstops : Stops (fun c ↦ !isDelimiter c) rest := by
    refine hgap.stops (fun d hd ↦ ?_) ?_
    · have hgapd : startsGap d = true := hd
      rw [isDelimiter, hgapd]
      rfl
    · rw [stops_cons, isDelimiter, hc, Bool.or_true]
      rfl
  intro c hc
  simpa using hstops c hc

theorem DerivesMoreArguments.endsArgument {arguments : List Argument}
    (h : DerivesMoreArguments text arguments rest) : EndsArgument text := by
  cases h with
  | none hclose =>
    cases hclose with
    | parenthesis h => exact ⟨')', _, h, rfl⟩
    | comma h => exact ⟨',', _, h, rfl⟩
  | some hcomma => exact ⟨',', _, hcomma, rfl⟩

theorem AtLineEnd.delimited (h : AtLineEnd rest) : Delimited rest := by
  obtain rfl | ⟨next, rfl⟩ := h
  · exact nofun
  · intro c hc
    obtain rfl : '\n' = c := Option.some.inj hc
    decide

theorem EndsStatement.delimited (h : EndsStatement text rest) : Delimited text := by
  have hspace : ∀ {spaces after : List Char}, (∀ c ∈ spaces, c ∈ [' ', '\t', '\r']) →
      Delimited after → Delimited (spaces ++ after) := by
    intro spaces after hspaces hafter
    rcases spaces with _ | ⟨d, spaces⟩
    · exact hafter
    · intro c hc
      obtain rfl : d = c := Option.some.inj hc
      have hd := hspaces d List.mem_cons_self
      simp only [List.mem_cons, List.not_mem_nil, or_false] at hd
      obtain rfl | rfl | rfl := hd <;> decide
  cases h with
  | plain hspaces hend =>
    refine hspace hspaces ?_
    obtain hend | ⟨next, rfl⟩ := hend
    · exact hend.delimited
    · intro c hc
      obtain rfl : ';' = c := Option.some.inj hc
      decide
  | comment hspaces =>
    refine hspace hspaces fun c hc ↦ ?_
    obtain rfl : '#' = c := Option.some.inj hc
    decide

theorem Filler.length_le {isSpace : Char → Bool} (h : Filler isSpace text rest) :
    rest.length ≤ text.length :=
  h.suffix.length_le

/-! ## First characters -/

theorem IsName.stops_append {word : List Char} (hword : IsName word) (after : List Char) :
    Stops startsGap (word ++ after) := by
  obtain ⟨c, tail, rfl, hc⟩ := hword.exists_cons
  rw [List.cons_append, stops_cons]
  exact startsGap_of_isNameStart hc

theorem IsName.skipGap_eq {word after : List Char} (hword : IsName word)
    (h : Gap text (word ++ after)) : skipGap text = word ++ after :=
  skipGap_eq_iff.mpr ⟨h, hword.stops_append after⟩

theorem NumeralText.exists_cons_start {n : Numeral} {spelling : List Char}
    (h : NumeralText n spelling) :
    ∃ c tail, spelling = c :: tail ∧ startsGap c = false ∧ isNameStart c = false ∧
      isQuote c = false ∧ c ≠ '=' := by
  have hdigit : ∀ c, Numeral.isDigit c = true →
      startsGap c = false ∧ isNameStart c = false ∧ isQuote c = false ∧ c ≠ '=' := by
    intro c hc
    obtain ⟨hlow, hhigh⟩ := toNat_of_isDigit hc
    refine ⟨startsGap_eq_false (by omega) (by omega), Bool.eq_false_iff.mpr fun hname ↦ ?_,
      Bool.eq_false_iff.mpr fun hquote ↦ ?_, ?_⟩
    · have hletter := toNat_of_isNameStart hname
      omega
    · obtain rfl | rfl := isQuote_iff.mp hquote <;> exact absurd hlow (by decide)
    · rintro rfl
      exact absurd hhigh (by decide)
  obtain @⟨sign, mantissa, exponent, hsign, hmantissa, -⟩ := h
  generalize n.isNegative = isNegative at hsign
  generalize n.whole = whole, n.fraction = fraction at hmantissa
  cases hsign with
  | plus => exact ⟨'+', _, rfl, by decide⟩
  | minus => exact ⟨'-', _, rfl, by decide⟩
  | nothing =>
    cases hmantissa with
    | fraction => exact ⟨'.', _, rfl, by decide⟩
    | whole h =>
      obtain ⟨c, tail, hcons, hc⟩ := h.exists_cons
      exact ⟨c, _, by rw [hcons]; rfl, hdigit c hc⟩
    | point h =>
      obtain ⟨c, tail, hcons, hc⟩ := h.exists_cons
      exact ⟨c, _, by rw [hcons]; rfl, hdigit c hc⟩

theorem DerivesExpression.stops_equals {e : Expression} (h : DerivesExpression text e rest) :
    Stops (· == '=') text := by
  have hfiller : ∀ c, startsFiller isBlank c = true → (c == '=') = false := by
    intro c hc
    refine beq_eq_false_iff_ne.mpr ?_
    rintro rfl
    exact absurd hc (by decide)
  have hname : ∀ {word : List Char}, IsName word → ∀ after, Stops (· == '=') (word ++ after) := by
    intro word hword after
    obtain ⟨c, tail, rfl, hc⟩ := hword.exists_cons
    rw [List.cons_append, stops_cons, beq_eq_false_iff_ne]
    rintro rfl
    exact absurd hc (by decide)
  cases h with
  | call hgap hword => exact hgap.stops hfiller (hname hword _)
  | name hgap hword => exact hgap.stops hfiller (hname hword _)
  | quotation hgap hquote =>
    refine hgap.stops hfiller ?_
    rw [stops_cons]
    obtain rfl | rfl := hquote <;> decide
  | number hgap hspelling =>
    obtain ⟨c, tail, rfl, -, -, -, hc⟩ := hspelling.exists_cons_start
    refine hgap.stops hfiller ?_
    rw [List.cons_append, stops_cons]
    exact beq_eq_false_iff_ne.mpr hc

theorem stops_isNamePart_of_gap {c : Char} {tail : List Char} (h : Gap text (c :: tail))
    (hc : isNamePart c = false) : Stops isNamePart text := by
  refine h.stops (fun d hd ↦ Bool.eq_false_iff.mpr fun hpart ↦ ?_) (by rwa [stops_cons])
  have hdelimiter := isDelimiter_of_isNamePart hpart
  have hgap : startsGap d = true := hd
  rw [isDelimiter, hgap] at hdelimiter
  cases hdelimiter

/-! ## Arguments -/

theorem keyword?_eq_none {word after : List Char} (hword : IsName word)
    (hafter : Stops isNamePart after) (hequals : Stops (· == '=') (skipGap after)) :
    keyword? (word ++ after) = none := by
  obtain ⟨d, word, rfl, hd⟩ := hword.exists_cons
  rw [List.cons_append, keyword?, ← List.cons_append, scanName_append hword hafter]
  simp only [hd, if_true]
  split
  · rfl
  · rename_i heq
    rw [heq, stops_cons] at hequals
    cases hequals
  · rfl

theorem DerivesExpression.keyword?_eq_none {e : Expression} (h : DerivesExpression text e rest)
    (hends : EndsArgument rest) : keyword? (skipGap text) = none := by
  cases h with
  | call hgap hword hopen =>
    rw [hword.skipGap_eq hgap]
    refine Language.keyword?_eq_none hword (stops_isNamePart_of_gap hopen (by decide)) ?_
    rw [hopen.skipGap_cons (by decide), stops_cons]
    decide
  | name hgap hword =>
    -- What ends the argument is behind the gap, where an equals sign would be.
    rw [hword.skipGap_eq hgap]
    refine Language.keyword?_eq_none hword hends.delimited.stops_isNamePart ?_
    obtain ⟨c, tail, hgap, hc⟩ := hends
    rw [hgap.skipGap_cons (startsGap_of_endsArgument hc), stops_cons]
    obtain rfl | rfl := endsArgument_iff.mp hc <;> decide
  | quotation hgap hquote =>
    obtain rfl | rfl := hquote
    · rw [hgap.skipGap_cons (by decide)]
      exact keyword?_of_stops (by rw [stops_cons]; decide)
    · rw [hgap.skipGap_cons (by decide)]
      exact keyword?_of_stops (by rw [stops_cons]; decide)
  | number hgap hspelling =>
    obtain ⟨c, tail, rfl, hc, hname, -⟩ := hspelling.exists_cons_start
    rw [List.cons_append] at hgap
    rw [hgap.skipGap_cons hc]
    exact keyword?_of_stops (by rwa [stops_cons])

theorem keyword?_eq_some {word after value : List Char} (hword : IsName word)
    (hequals : Gap after ('=' :: value)) (hvalue : Stops (· == '=') value) :
    keyword? (word ++ after) = some (String.ofList word, value) := by
  have hafter := stops_isNamePart_of_gap hequals (by decide)
  obtain ⟨d, word, rfl, hd⟩ := hword.exists_cons
  rw [List.cons_append, keyword?, ← List.cons_append, scanName_append hword hafter]
  simp only [hd, if_true, hequals.skipGap_cons (by decide)]
  rcases value with _ | ⟨c, value⟩
  · rfl
  · rw [stops_cons, beq_eq_false_iff_ne] at hvalue
    split
    · rename_i heq
      exact absurd (List.cons.inj (List.cons.inj heq).2).1 hvalue
    · rename_i heq
      rw [(List.cons.inj heq).2]
    · simp_all

theorem readArgument_absent {c : Char} {tail : List Char} (h : skipGap text = c :: tail)
    (hc : endsArgument c = true) (bound : ℕ) :
    ∃ place, readArgument (readExpression bound) text = .absent place := by
  have hkeyword : keyword? (skipGap text) = none := by
    rw [h]
    refine keyword?_of_stops ?_
    rw [stops_cons]
    obtain rfl | rfl := endsArgument_iff.mp hc <;> decide
  rw [readArgument, hkeyword]
  rcases bound with _ | bound
  · exact ⟨text, rfl⟩
  · refine ⟨c :: tail, ?_⟩
    rw [readExpression, h]
    obtain rfl | rfl := endsArgument_iff.mp hc <;> rfl

theorem DerivesArgument.readArgument_eq {argument : Argument} {bound : ℕ}
    (hvalue : ∀ text e rest, text.length < bound → DerivesExpression text e rest →
      Delimited rest → readExpression bound text = .read e rest)
    (h : DerivesArgument text argument rest) (hlength : text.length < bound)
    (hends : EndsArgument rest) :
    readArgument (readExpression bound) text = .read argument rest := by
  cases h with
  | positional h =>
    rw [readArgument, h.keyword?_eq_none hends]
    dsimp only
    rw [hvalue _ _ _ hlength h hends.delimited]
    rfl
  | @keyword _ word after value _ e hgap hword hequals h =>
    have hshorter : value.length < bound := by
      have hfirst := hgap.length_le
      have hsecond := hequals.length_le
      rw [List.length_append] at hfirst
      rw [List.length_cons] at hsecond
      omega
    rw [readArgument, hword.skipGap_eq hgap, keyword?_eq_some hword hequals h.stops_equals]
    dsimp only
    rw [hvalue _ _ _ hshorter h hends.delimited]
    rfl

/-! ## Expressions -/

theorem readExpression_of_gap {start : List Char} (h : Gap text start)
    (hstart : Stops startsGap start) (bound : ℕ) :
    readExpression (bound + 1) text = readExpression (bound + 1) start := by
  rw [readExpression, readExpression, skipGap_eq_iff.mpr ⟨h, hstart⟩, skipGap_of_stops hstart]

/-- One step of the reader of expressions, given that arguments are read. -/
theorem DerivesExpression.readExpression_succ_eq {bound : ℕ}
    (harguments : ∀ text arguments rest, text.length + 1 < bound →
      DerivesArguments text arguments rest →
      ∃ after, readArguments bound text = .read arguments after ∧ ClosesCall after rest)
    {e : Expression} (h : DerivesExpression text e rest) (hlength : text.length < bound + 1)
    (hrest : Delimited rest) : readExpression (bound + 1) text = .read e rest := by
  cases h with
  | @call _ word after inside _ arguments hgap hword hopen h =>
    have hpart := stops_isNamePart_of_gap hopen (by decide)
    have hshorter : inside.length + 1 < bound := by
      have hfirst := hgap.length_le
      have hsecond := hopen.length_le
      have hword := List.length_pos_of_ne_nil (show word ≠ [] by
        obtain ⟨c, tail, rfl, -⟩ := hword.exists_cons
        exact List.cons_ne_nil c tail)
      rw [List.length_append] at hfirst
      rw [List.length_cons] at hsecond
      omega
    obtain ⟨after', hread, hclose⟩ := harguments _ _ _ hshorter h
    rw [readExpression_of_gap hgap (hword.stops_append after)]
    obtain ⟨c, tail, rfl, hc⟩ := hword.exists_cons
    rw [List.cons_append, readExpression_succ (startsGap_of_isNameStart hc), if_pos hc,
      ← List.cons_append, scanName_append hword hpart, hopen.skipGap_cons (by decide)]
    simp only [hread, closeCall?_eq_some_iff.mpr hclose]
  | @name _ word _ _ hgap hword hnot htree =>
    have hpart := hrest.stops_isNamePart
    rw [readExpression_of_gap hgap (hword.stops_append rest), nameTree_iff.mp htree]
    obtain ⟨c, tail, rfl, hc⟩ := hword.exists_cons
    rw [List.cons_append, readExpression_succ (startsGap_of_isNameStart hc), if_pos hc,
      ← List.cons_append, scanName_append hword hpart]
    split
    · rename_i inside heq
      exact absurd (skipGap_eq_iff.mp heq).1 (hnot inside)
    · rfl
  | quotation hgap hquote hquoted =>
    obtain rfl | rfl := hquote
    · rw [readExpression_of_gap hgap (by rw [stops_cons]; decide),
        readExpression_succ (by decide), if_neg (by decide), if_pos (by decide), readQuotation,
        hquoted.scanQuoted_eq (Or.inl rfl)]
    · rw [readExpression_of_gap hgap (by rw [stops_cons]; decide),
        readExpression_succ (by decide), if_neg (by decide), if_pos (by decide), readQuotation,
        hquoted.scanQuoted_eq (Or.inr rfl)]
  | number hgap hspelling htree =>
    have hread := readNumber_of_numeralText hspelling htree
      (hrest.stops fun _ ↦ isDelimiter_of_continues)
    obtain ⟨c, tail, rfl, hc, hname, hquote, -⟩ := hspelling.exists_cons_start
    rw [List.cons_append] at hgap hread
    rw [readExpression_of_gap hgap (by rwa [stops_cons]), readExpression_succ hc,
      if_neg (Bool.eq_false_iff.mp hname), if_neg (Bool.eq_false_iff.mp hquote), hread]

theorem DerivesArguments.readArguments_succ_eq {bound : ℕ}
    (hexpression : ∀ text e rest, text.length < bound → DerivesExpression text e rest →
      Delimited rest → readExpression bound text = .read e rest)
    (hmore : ∀ text arguments rest, text.length < bound →
      DerivesMoreArguments text arguments rest →
      ∃ after, readMoreArguments bound text = .read arguments after ∧ ClosesCall after rest)
    {arguments : List Argument} (h : DerivesArguments text arguments rest)
    (hlength : text.length < bound) :
    ∃ after, readArguments (bound + 1) text = .read arguments after ∧ ClosesCall after rest := by
  cases h with
  | none hclose =>
    -- The end of a call begins like the end of an argument, so no argument is found in front of it.
    have hends : EndsArgument text := (DerivesMoreArguments.none hclose).endsArgument
    obtain ⟨c, tail, hgap, hc⟩ := hends
    have hstart := hgap.skipGap_cons (startsGap_of_endsArgument hc)
    obtain ⟨place, habsent⟩ := readArgument_absent hstart hc bound
    refine ⟨text, ?_, hclose⟩
    rw [readArguments, habsent]
  | some hfirst hothers =>
    have hread := hfirst.readArgument_eq hexpression hlength hothers.endsArgument
    have hle := (covers_of_readArgument (covers_of_read bound).1 hread).length_le
    obtain ⟨after, hmore, hclose⟩ := hmore _ _ _ (by omega) hothers
    refine ⟨after, ?_, hclose⟩
    rw [readArguments, hread]
    dsimp only
    rw [hmore]
    rfl

theorem DerivesMoreArguments.readMoreArguments_succ_eq {bound : ℕ}
    (hexpression : ∀ text e rest, text.length < bound → DerivesExpression text e rest →
      Delimited rest → readExpression bound text = .read e rest)
    (hmore : ∀ text arguments rest, text.length < bound →
      DerivesMoreArguments text arguments rest →
      ∃ after, readMoreArguments bound text = .read arguments after ∧ ClosesCall after rest)
    {arguments : List Argument} (h : DerivesMoreArguments text arguments rest)
    (hlength : text.length < bound + 1) :
    ∃ after, readMoreArguments (bound + 1) text = .read arguments after ∧
      ClosesCall after rest := by
  cases h with
  | none hclose =>
    refine ⟨text, ?_, hclose⟩
    cases hclose with
    | parenthesis h =>
      rw [readMoreArguments, h.skipGap_cons (by decide)]
      rfl
    | comma hcomma h =>
      obtain ⟨place, habsent⟩ := readArgument_absent (h.skipGap_cons (by decide)) (by decide) bound
      simp only [readMoreArguments, hcomma.skipGap_cons (by decide), habsent]
  | some hcomma hfirst hothers =>
    have hnext := hcomma.length_le
    rw [List.length_cons] at hnext
    have hread := hfirst.readArgument_eq hexpression (by omega) hothers.endsArgument
    have hle := (covers_of_readArgument (covers_of_read bound).1 hread).length_le
    obtain ⟨after, hmore, hclose⟩ := hmore _ _ _ (by omega) hothers
    refine ⟨after, ?_, hclose⟩
    simp only [readMoreArguments, hcomma.skipGap_cons (by decide), hread, hmore]
    rfl

/-- **What is derived is read**, if the bound of the readers exceeds the length of the text. -/
theorem read_of_derives (bound : ℕ) :
    (∀ text e rest, text.length < bound → DerivesExpression text e rest → Delimited rest →
      readExpression bound text = .read e rest) ∧
    (∀ text arguments rest, text.length + 1 < bound → DerivesArguments text arguments rest →
      ∃ after, readArguments bound text = .read arguments after ∧ ClosesCall after rest) ∧
    (∀ text arguments rest, text.length < bound → DerivesMoreArguments text arguments rest →
      ∃ after, readMoreArguments bound text = .read arguments after ∧ ClosesCall after rest) := by
  induction bound with
  | zero =>
    exact ⟨fun _ _ _ hlength ↦ absurd hlength (Nat.not_lt_zero _),
      fun _ _ _ hlength ↦ absurd hlength (Nat.not_lt_zero _),
      fun _ _ _ hlength ↦ absurd hlength (Nat.not_lt_zero _)⟩
  | succ bound ih =>
    -- Every reader calls the others with a smaller bound, on a shorter text.
    obtain ⟨hexpression, harguments, hmore⟩ := ih
    exact ⟨fun _ _ _ hlength h ↦ h.readExpression_succ_eq harguments hlength,
      fun _ _ _ hlength h ↦
        h.readArguments_succ_eq hexpression hmore (Nat.lt_of_succ_lt_succ hlength),
      fun _ _ _ hlength h ↦ h.readMoreArguments_succ_eq hexpression hmore hlength⟩

/-! ## Statements -/

private theorem BeginsWithReturn.skipReturn_eq {after : List Char}
    (h : BeginsWithReturn text after) : skipReturn text = after := by
  obtain hskip | ⟨hnone, -⟩ := skipReturn_cases text
  · exact List.append_cancel_left (hskip.1.symm.trans h.1)
  · exact absurd h (hnone after)

theorem DerivesStatement.readStatement_eq {s : Statement} (h : DerivesStatement text s rest)
    (hrest : Delimited rest) : readStatement text = .read s rest := by
  obtain ⟨e, hexpression, rfl⟩ :
      ∃ e, DerivesExpression (skipReturn text) e rest ∧ s = ⟨e, text.length⟩ := by
    cases h with
    | returned hreturn h =>
      rw [hreturn.skipReturn_eq]
      exact ⟨_, h, rfl⟩
    | plain hreturn h =>
      obtain hbegins | ⟨-, hsame⟩ := skipReturn_cases text
      · exact absurd hbegins (hreturn _)
      · rw [hsame]
        exact ⟨_, h, rfl⟩
  have hlength : (skipReturn text).length < text.length + 1 :=
    Nat.lt_succ_of_le (covers_skipReturn text).length_le
  rw [readStatement, (read_of_derives _).1 _ _ _ hlength hexpression hrest]
  rfl

theorem EndsStatement.exists_cons_of_ne_nil (h : EndsStatement text rest) (hne : rest ≠ []) :
    ∃ e next, rest = e :: next ∧ (e = '\n' ∨ e = ';') := by
  have hline : AtLineEnd rest → ∃ e next, rest = e :: next ∧ (e = '\n' ∨ e = ';') := by
    rintro (rfl | ⟨next, rfl⟩)
    · exact absurd rfl hne
    · exact ⟨'\n', next, rfl, Or.inl rfl⟩
  cases h with
  | plain _ hend =>
    obtain hend | ⟨next, rfl⟩ := hend
    · exact hline hend
    · exact ⟨';', next, rfl, Or.inr rfl⟩
  | comment _ _ hend => exact hline hend

theorem EndsStatement.skipToStatementEnd_eq (h : EndsStatement text rest) :
    skipToStatementEnd text = rest := by
  have hinline : ∀ {spaces : List Char}, (∀ c ∈ spaces, c ∈ [' ', '\t', '\r']) →
      ∀ c ∈ spaces, isInlineSpace c = true := by
    intro spaces hspaces c hc
    have hmem := hspaces c hc
    simpa [isInlineSpace, or_assoc] using hmem
  cases h with
  | plain hspaces hend =>
    obtain (rfl | ⟨next, rfl⟩) | ⟨next, rfl⟩ := hend
    · rw [skipToStatementEnd, dropWhile_append (hinline hspaces) (stops_nil _)]
    · rw [skipToStatementEnd, dropWhile_append (hinline hspaces) (by rw [stops_cons]; rfl)]
      rfl
    · rw [skipToStatementEnd, dropWhile_append (hinline hspaces) (by rw [stops_cons]; rfl)]
      rfl
  | @comment _ body _ hspaces hbody hend =>
    rw [skipToStatementEnd, dropWhile_append (hinline hspaces) (by rw [stops_cons]; rfl)]
    refine dropWhile_append (fun c hc ↦ ?_) ?_
    · rw [bne_iff_ne]
      rintro rfl
      exact hbody hc
    · obtain rfl | ⟨next, rfl⟩ := hend
      · exact stops_nil _
      · rw [stops_cons]
        rfl

/-! ## Programs -/

theorem Separators.skipSeparators_eq {start : List Char} (h : Separators text start)
    (hstart : ∀ c ∈ start.head?, isSeparator c = false ∧ c ≠ '#') :
    skipSeparators text = start := by
  refine skipSeparators_eq_iff.mpr ⟨h, ?_⟩
  intro c hc
  simpa [startsFiller] using hstart c hc

/-- **Statements that are derived are read**, if their bound is large enough. -/
theorem DerivesProgram.readStatements_eq {bound : ℕ} {statements : List Statement}
    (h : DerivesProgram text statements) (hbound : (skipSeparators text).length < bound) :
    readStatements bound text = .ok statements := by
  induction h generalizing bound with
  | empty h =>
    rcases bound with _ | bound
    · omega
    · rw [readStatements, skipSeparators_eq_iff.mpr ⟨h, stops_nil _⟩]
  | @statement text start after rest s statements hseparators hstart hstatement hend _ ih =>
    have hskip := Separators.skipSeparators_eq hseparators hstart
    have hread := hstatement.readStatement_eq hend.delimited
    have hends := hend.skipToStatementEnd_eq
    rcases bound with _ | bound
    · omega
    rcases start with _ | ⟨c, tail⟩
    · cases hread
    rw [readStatements, hskip]
    simp only [hread, hends]
    rcases rest with _ | ⟨e, next⟩
    · -- Nothing is left for other statements.
      obtain rfl := Except.ok.inj (@ih 1 Nat.zero_lt_one)
      rfl
    · obtain ⟨_, _, heq, hseparator⟩ := hend.exists_cons_of_ne_nil (List.cons_ne_nil e next)
      obtain ⟨rfl, rfl⟩ := List.cons.inj heq
      have hshorter := length_skipSeparators_lt hread hends hseparator
      rw [hskip] at hbound
      have hothers := @ih bound (by omega)
      simp only [hothers]
      obtain rfl | rfl := hseparator <;> rfl

/-- **The texts that are read are those of the grammar**, and the statements that are read are the
ones that the grammar derives. -/
theorem readProgram_eq_ok_iff (text : List Char) (statements : List Statement) :
    readProgram text = .ok statements ↔ DerivesProgram text statements := by
  have hbound : (skipSeparators text).length < text.length + 1 :=
    Nat.lt_succ_of_le (covers_skipSeparators text).length_le
  exact ⟨derivesProgram_of_readStatements hbound, fun h ↦ h.readStatements_eq hbound⟩

end MapQuery.Language
