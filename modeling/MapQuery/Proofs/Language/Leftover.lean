import MapQuery.Proofs.Language.Soundness

/-!
# What a reader leaves of its text

Readers only take characters away from the front of a text. What is left behind something derived is
the end of the text (`DerivesExpression.suffix` and the lemmas around it), and so is the place at
which a reader gives up, whether another reading may still succeed or not (`suffix_of_failsAt`). All
faults of a text are therefore about an end of it, the one that was found by counting parentheses
included (`suffix_of_checkNesting`, `suffix_of_readProgram`).
-/

namespace MapQuery.Language

open Text

variable {text rest : List Char}

/-! ## Behind what is derived -/

theorem Gap.suffix_of_cons {c : Char} (h : Gap text (c :: rest)) : rest <:+ text :=
  (List.suffix_cons c rest).trans h.suffix

theorem Gap.suffix_of_append {word : List Char} (h : Gap text (word ++ rest)) : rest <:+ text :=
  (List.suffix_append word rest).trans h.suffix

theorem Quoted.suffix {quote : Char} {value : List Char} (h : Quoted quote text value rest) :
    rest <:+ text := by
  induction h with
  | close => exact List.suffix_cons _ _
  | escape _ _ ih => exact (ih.trans (List.suffix_cons _ _)).trans (List.suffix_cons _ _)
  | char _ _ _ _ ih => exact ih.trans (List.suffix_cons _ _)

theorem ClosesCall.suffix (h : ClosesCall text rest) : rest <:+ text := by
  cases h with
  | parenthesis h => exact Gap.suffix_of_cons h
  | comma h h' => exact (Gap.suffix_of_cons h').trans (Gap.suffix_of_cons h)

mutual

theorem DerivesExpression.suffix {text rest : List Char} {e : Expression} :
    DerivesExpression text e rest → rest <:+ text
  | .call hgap _ hopen harguments =>
    (DerivesArguments.suffix harguments).trans
      ((Gap.suffix_of_cons hopen).trans (Gap.suffix_of_append hgap))
  | .name hgap _ _ _ => Gap.suffix_of_append hgap
  | .quotation hgap _ hquoted => hquoted.suffix.trans (Gap.suffix_of_cons hgap)
  | .number hgap _ _ => Gap.suffix_of_append hgap

theorem DerivesArgument.suffix {text rest : List Char} {argument : Argument} :
    DerivesArgument text argument rest → rest <:+ text
  | .positional h => DerivesExpression.suffix h
  | .keyword hgap _ hequals h =>
    (DerivesExpression.suffix h).trans
      ((Gap.suffix_of_cons hequals).trans (Gap.suffix_of_append hgap))

theorem DerivesArguments.suffix {text rest : List Char} {arguments : List Argument} :
    DerivesArguments text arguments rest → rest <:+ text
  | .none hclose => hclose.suffix
  | .some hfirst hothers => (DerivesMoreArguments.suffix hothers).trans hfirst.suffix

theorem DerivesMoreArguments.suffix {text rest : List Char} {arguments : List Argument} :
    DerivesMoreArguments text arguments rest → rest <:+ text
  | .none hclose => hclose.suffix
  | .some hcomma hfirst hothers =>
    (DerivesMoreArguments.suffix hothers).trans (hfirst.suffix.trans (Gap.suffix_of_cons hcomma))

end

theorem DerivesStatement.suffix {s : Statement} (h : DerivesStatement text s rest) :
    rest <:+ text := by
  cases h with
  | returned hreturn h =>
    rw [hreturn.1]
    exact h.suffix.trans (List.suffix_append _ _)
  | plain _ h => exact h.suffix

theorem skipToStatementEnd_suffix (text : List Char) : skipToStatementEnd text <:+ text := by
  have hspaces := List.dropWhile_suffix isInlineSpace (l := text)
  rw [skipToStatementEnd]
  split
  · rename_i comment heq
    rw [heq] at hspaces
    exact (List.dropWhile_suffix _).trans ((List.suffix_cons _ _).trans hspaces)
  · exact hspaces

/-! ## Where readers give up -/

/-- A reader ends without a value, and points at this rest of its text. -/
inductive Outcome.FailsAt {α : Type} : Outcome α → List Char → Prop
  | absent (place : List Char) : FailsAt (.absent place) place
  | broken (place : List Char) : FailsAt (.broken place) place

theorem Outcome.FailsAt.of_map {α β : Type} {f : α → β} {o : Outcome α} {place : List Char}
    (h : (o.map f).FailsAt place) : o.FailsAt place := by
  cases o with
  | read => cases h
  | absent =>
    cases h
    exact .absent _
  | broken =>
    cases h
    exact .broken _

variable {place : List Char}

private theorem scanMantissa_suffix (h : Numeral.scanMantissa text = .error place) :
    place <:+ text := by
  rw [Numeral.scanMantissa.eq_def] at h
  split at h
  · rename_i after hscan
    split at h
    · obtain rfl := Except.error.inj h
      have hsplit := scanDigits_append_rest text
      rw [hscan] at hsplit
      rw [hsplit]
      exact List.suffix_cons _ _
    · cases h
  · obtain rfl := Except.error.inj h
    exact List.suffix_rfl
  · cases h
  · cases h

private theorem scan_suffix (h : Numeral.scan text = .error place) : place <:+ text := by
  obtain ⟨sign, -, hsplit⟩ := exists_signText text
  rw [Numeral.scan] at h
  dsimp only at h
  split at h
  · rename_i hscan
    obtain rfl := Except.error.inj h
    rw [hsplit]
    exact (scanMantissa_suffix hscan).trans (List.suffix_append _ _)
  · cases h

private theorem readNumber_suffix (h : (readNumber text).FailsAt place) : place <:+ text := by
  rw [readNumber] at h
  split at h
  · rename_i hscan
    cases h
    exact scan_suffix hscan
  · split at h
    · split at h
      · cases h
      · cases h
        exact List.suffix_rfl
    · cases h

private theorem readQuotation_suffix (h : (readQuotation text).FailsAt place) : place <:+ text := by
  rw [readQuotation.eq_def] at h
  split at h
  · cases h
    exact List.suffix_rfl
  · split at h
    · cases h
    · cases h
      exact List.suffix_rfl

private theorem keyword?_suffix {keyword : String} (h : keyword? text = some (keyword, rest)) :
    rest <:+ text := by
  obtain ⟨word, after, -, rfl, -, hequals⟩ := exists_isName_of_keyword? h
  exact (Gap.suffix_of_cons hequals).trans (List.suffix_append _ _)

theorem skipGap_suffix (text : List Char) : skipGap text <:+ text :=
  (skipGap_eq_iff.mp rfl).1.suffix

private theorem readArgument_suffix {readValue : List Char → Outcome Expression}
    (hvalue : ∀ text place, (readValue text).FailsAt place → place <:+ text)
    (h : (readArgument readValue text).FailsAt place) : place <:+ text := by
  rw [readArgument] at h
  split at h
  · rename_i hkeyword
    exact (hvalue _ _ h.of_map).trans ((keyword?_suffix hkeyword).trans (skipGap_suffix text))
  · exact hvalue _ _ h.of_map

theorem readExpression_succ_suffix {bound : ℕ}
    (harguments : ∀ text place, (readArguments bound text).FailsAt place → place <:+ text)
    (h : (readExpression (bound + 1) text).FailsAt place) : place <:+ text := by
  rw [readExpression] at h
  have hgap := skipGap_suffix text
  generalize skipGap text = start at h hgap
  refine List.IsSuffix.trans ?_ hgap
  split at h
  · cases h
    exact List.suffix_rfl
  · rename_i c tail
    split at h
    · have hname : (scanName (c :: tail)).2 <:+ c :: tail := List.dropWhile_suffix _
      have hafter := skipGap_suffix (scanName (c :: tail)).2
      dsimp only at h
      split at h
      · rename_i inside hopen
        rw [hopen] at hafter
        split at h
        · cases h
          exact List.suffix_rfl
        · -- What is broken in an argument is reported where it is, not where the call begins.
          rename_i hbroken
          cases h
          exact (harguments inside _ (hbroken ▸ .broken _)).trans
            ((List.suffix_cons _ _).trans (hafter.trans hname))
        · split at h
          · cases h
          · cases h
            exact List.suffix_rfl
      · cases h
    · split at h
      · exact readQuotation_suffix h
      · exact readNumber_suffix h

theorem readArguments_succ_suffix {bound : ℕ}
    (hexpression : ∀ text place, (readExpression bound text).FailsAt place → place <:+ text)
    (hmore : ∀ text place, (readMoreArguments bound text).FailsAt place → place <:+ text)
    (h : (readArguments (bound + 1) text).FailsAt place) : place <:+ text := by
  rw [readArguments] at h
  split at h
  · cases h
  · rename_i hbroken
    cases h
    exact readArgument_suffix hexpression (hbroken ▸ .broken _)
  · rename_i hread
    exact (hmore _ _ h.of_map).trans
      (derivesArgument_of_readArgument (derives_of_read bound).1 hread).suffix

theorem readMoreArguments_succ_suffix {bound : ℕ}
    (hexpression : ∀ text place, (readExpression bound text).FailsAt place → place <:+ text)
    (hmore : ∀ text place, (readMoreArguments bound text).FailsAt place → place <:+ text)
    (h : (readMoreArguments (bound + 1) text).FailsAt place) : place <:+ text := by
  rw [readMoreArguments] at h
  split at h
  · rename_i next hcomma
    have hnext : next <:+ text := Gap.suffix_of_cons (skipGap_eq_iff.mp hcomma).1
    split at h
    · cases h
    · rename_i hbroken
      cases h
      exact (readArgument_suffix hexpression (hbroken ▸ .broken _)).trans hnext
    · rename_i hread
      have hrest := (derivesArgument_of_readArgument (derives_of_read bound).1 hread).suffix
      exact (hmore _ _ h.of_map).trans (hrest.trans hnext)
  · cases h

/-- **A reader that gives up points at an end of its text.** -/
theorem suffix_of_failsAt (bound : ℕ) :
    (∀ text place, (readExpression bound text).FailsAt place → place <:+ text) ∧
    (∀ text place, (readArguments bound text).FailsAt place → place <:+ text) ∧
    (∀ text place, (readMoreArguments bound text).FailsAt place → place <:+ text) := by
  induction bound with
  | zero =>
    refine ⟨fun text place h ↦ ?_, fun text place h ↦ ?_, fun text place h ↦ ?_⟩
    · rw [readExpression] at h
      cases h
      exact List.suffix_rfl
    · rw [readArguments] at h
      cases h
    · rw [readMoreArguments] at h
      cases h
  | succ bound ih =>
    obtain ⟨hexpression, harguments, hmore⟩ := ih
    exact ⟨fun _ _ h ↦ readExpression_succ_suffix harguments h,
      fun _ _ h ↦ readArguments_succ_suffix hexpression hmore h,
      fun _ _ h ↦ readMoreArguments_succ_suffix hexpression hmore h⟩

/-! ## Faults -/

private theorem readStatement_suffix (h : (readStatement text).FailsAt place) : place <:+ text := by
  have hstart : skipReturn text <:+ text := by
    obtain hreturn | ⟨-, hsame⟩ := skipReturn_cases text
    · exact ⟨_, hreturn.1.symm⟩
    · rw [hsame]
  rw [readStatement] at h
  exact ((suffix_of_failsAt _).1 _ _ h.of_map).trans hstart

theorem suffix_of_readStatements {bound : ℕ} {fault : SyntaxFault}
    (h : readStatements bound text = .error fault) : fault.2 <:+ text := by
  induction bound generalizing text with
  | zero => cases h
  | succ bound ih =>
    rw [readStatements] at h
    have hseparators : skipSeparators text <:+ text := (separators_skipSeparators text).1.suffix
    generalize skipSeparators text = start at h hseparators
    refine List.IsSuffix.trans ?_ hseparators
    split at h
    · cases h
    · rename_i c tail
      split at h
      · rename_i place habsent
        cases h
        exact readStatement_suffix (habsent ▸ .absent place)
      · rename_i place hbroken
        cases h
        exact readStatement_suffix (hbroken ▸ .broken place)
      · rename_i statement rest hread
        have hrest := (derivesStatement_of_readStatement hread).suffix
        have hend := skipToStatementEnd_suffix rest
        split at h
        · cases h
        · rename_i e next hnext
          rw [hnext] at hend
          split at h
          · rcases hothers : readStatements bound (e :: next) with fault' | others
            · rw [hothers] at h
              cases h
              exact (ih hothers).trans (hend.trans hrest)
            · rw [hothers] at h
              cases h
          · cases h
            exact hend.trans hrest

theorem suffix_of_readProgram {fault : SyntaxFault} (h : readProgram text = .error fault) :
    fault.2 <:+ text :=
  suffix_of_readStatements h

private theorem suffix_of_findTooDeep? {state : QuoteState} {depth : ℕ}
    (h : findTooDeep? state depth text = some place) : place <:+ text := by
  induction text generalizing state depth with
  | nil => cases h
  | cons c rest ih =>
    rw [findTooDeep?] at h
    split at h
    · split at h
      · obtain rfl := Option.some.inj h
        exact List.suffix_rfl
      · exact (ih h).trans (List.suffix_cons _ _)
    split at h
    · exact (ih h).trans (List.suffix_cons _ _)
    · exact (ih h).trans (List.suffix_cons _ _)

theorem suffix_of_checkNesting {fault : SyntaxFault} (h : checkNesting text = .error fault) :
    fault.2 <:+ text := by
  rw [checkNesting] at h
  split at h
  · rename_i hfind
    cases h
    exact suffix_of_findTooDeep? hfind
  · cases h

end MapQuery.Language
