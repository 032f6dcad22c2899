import MapQuery.Proofs.Language.Guard
import MapQuery.Proofs.Language.Lexemes

/-!
# What is read is derived

Each reader is followed with the rule of the grammar for what it has read, by induction on the
bound of the readers. The readers of arguments stop where they find no further argument, wherever
that is; they have read the arguments of a call if the call is closed there.
-/

namespace MapQuery.Language

open Text

variable {text rest : List Char}

/-! ## Parts of calls -/

theorem closeCall?_eq_some_iff : closeCall? text = some rest ↔ ClosesCall text rest := by
  constructor
  · intro h
    rw [closeCall?] at h
    split at h
    · rename_i heq
      cases h
      exact .parenthesis (skipGap_eq_iff.mp heq).1
    · rename_i after heq
      split at h
      · rename_i heq'
        cases h
        exact .comma (skipGap_eq_iff.mp heq).1 (skipGap_eq_iff.mp heq').1
      · cases h
    · cases h
  · intro h
    cases h with
    | parenthesis h => simp only [closeCall?, h.skipGap_cons (by decide)]
    | comma hcomma hclose =>
      simp only [closeCall?, hcomma.skipGap_cons (by decide), hclose.skipGap_cons (by decide)]

theorem exists_isName_of_keyword? {keyword : String} (h : keyword? text = some (keyword, rest)) :
    ∃ word after, IsName word ∧ text = word ++ after ∧ keyword = String.ofList word ∧
      Gap after ('=' :: rest) := by
  rw [keyword?.eq_def] at h
  split at h
  · cases h
  · rename_i c tail
    split at h
    · rename_i hc
      obtain ⟨word, hword, htext, hname⟩ := exists_isName_of_scanName hc tail
      dsimp only at h
      split at h
      · cases h
      · rename_i hequals
        cases h
        exact ⟨word, _, hword, htext, hname, (skipGap_eq_iff.mp hequals).1⟩
      · cases h
    · cases h

theorem derivesArgument_of_readArgument {readValue : List Char → Outcome Expression}
    (hvalue : ∀ text e rest, readValue text = .read e rest → DerivesExpression text e rest)
    {argument : Argument} (h : readArgument readValue text = .read argument rest) :
    DerivesArgument text argument rest := by
  rw [readArgument] at h
  split at h
  · rename_i keyword after hkeyword
    obtain ⟨e, he, rfl⟩ := Outcome.exists_of_map h
    obtain ⟨word, after', hword, hgap, rfl, hequals⟩ := exists_isName_of_keyword? hkeyword
    exact .keyword (skipGap_eq_iff.mp hgap).1 hword hequals (hvalue _ _ _ he)
  · obtain ⟨e, he, rfl⟩ := Outcome.exists_of_map h
    exact .positional (hvalue _ _ _ he)

/-! ## Expressions and arguments -/

theorem derivesExpression_of_readExpression_succ {bound : ℕ}
    (harguments : ∀ text arguments after rest, readArguments bound text = .read arguments after →
      ClosesCall after rest → DerivesArguments text arguments rest)
    {e : Expression} (h : readExpression (bound + 1) text = .read e rest) :
    DerivesExpression text e rest := by
  rw [readExpression] at h
  have hgap : Gap text (skipGap text) := (skipGap_eq_iff.mp rfl).1
  generalize skipGap text = start at h hgap
  split at h
  · cases h
  · rename_i c tail
    split at h
    · rename_i hc
      obtain ⟨word, hword, hsplit, hname⟩ := exists_isName_of_scanName hc tail
      dsimp only at h
      rw [hname] at h
      generalize (scanName (c :: tail)).2 = after at h hsplit
      rw [hsplit] at h hgap
      split at h
      · rename_i inside hopen
        split at h
        · cases h
        · cases h
        · rename_i arguments after' hread
          split at h
          · rename_i rest hclose
            cases h
            exact .call hgap hword (skipGap_eq_iff.mp hopen).1
              (harguments _ _ _ _ hread (closeCall?_eq_some_iff.mp hclose))
          · cases h
      · rename_i hopen
        cases h
        refine .name hgap hword (fun inside hinside ↦ ?_) (nameTree_iff.mpr rfl)
        exact hopen inside (hinside.skipGap_cons (by decide))
    · split at h
      · rename_i hquote
        rw [readQuotation] at h
        split at h
        · rename_i value after hscan
          cases h
          exact .quotation hgap (isQuote_iff.mp hquote) (quoted_of_scanQuoted hscan)
        · cases h
      · obtain ⟨n, spelling, value, hspelling, htree, hsplit, rfl⟩ :=
          exists_numeralText_of_readNumber h
        rw [hsplit] at hgap
        exact .number hgap hspelling htree

theorem derivesMoreArguments_of_readMoreArguments_succ {bound : ℕ}
    (hexpression : ∀ text e rest, readExpression bound text = .read e rest →
      DerivesExpression text e rest)
    (hmore : ∀ text arguments after rest, readMoreArguments bound text = .read arguments after →
      ClosesCall after rest → DerivesMoreArguments text arguments rest)
    {arguments : List Argument} {after : List Char}
    (h : readMoreArguments (bound + 1) text = .read arguments after)
    (hclose : ClosesCall after rest) : DerivesMoreArguments text arguments rest := by
  rw [readMoreArguments] at h
  split at h
  · rename_i next hcomma
    split at h
    · cases h
      exact .none hclose
    · cases h
    · rename_i argument after' hread
      obtain ⟨arguments', hrest, rfl⟩ := Outcome.exists_of_map h
      exact .some (skipGap_eq_iff.mp hcomma).1 (derivesArgument_of_readArgument hexpression hread)
        (hmore _ _ _ _ hrest hclose)
  · cases h
    exact .none hclose

theorem derivesArguments_of_readArguments_succ {bound : ℕ}
    (hexpression : ∀ text e rest, readExpression bound text = .read e rest →
      DerivesExpression text e rest)
    (hmore : ∀ text arguments after rest, readMoreArguments bound text = .read arguments after →
      ClosesCall after rest → DerivesMoreArguments text arguments rest)
    {arguments : List Argument} {after : List Char}
    (h : readArguments (bound + 1) text = .read arguments after)
    (hclose : ClosesCall after rest) : DerivesArguments text arguments rest := by
  rw [readArguments] at h
  split at h
  · cases h
    exact .none hclose
  · cases h
  · rename_i argument after' hread
    obtain ⟨arguments', hrest, rfl⟩ := Outcome.exists_of_map h
    exact .some (derivesArgument_of_readArgument hexpression hread) (hmore _ _ _ _ hrest hclose)

/-- **What is read is derived.** -/
theorem derives_of_read (bound : ℕ) :
    (∀ text e rest, readExpression bound text = .read e rest → DerivesExpression text e rest) ∧
    (∀ text arguments after rest, readArguments bound text = .read arguments after →
      ClosesCall after rest → DerivesArguments text arguments rest) ∧
    (∀ text arguments after rest, readMoreArguments bound text = .read arguments after →
      ClosesCall after rest → DerivesMoreArguments text arguments rest) := by
  induction bound with
  | zero =>
    refine ⟨fun text e rest h ↦ ?_, fun text arguments after rest h hclose ↦ ?_,
      fun text arguments after rest h hclose ↦ ?_⟩
    · rw [readExpression] at h
      cases h
    · rw [readArguments] at h
      cases h
      exact .none hclose
    · rw [readMoreArguments] at h
      cases h
      exact .none hclose
  | succ bound ih =>
    -- Every reader calls the others with a smaller bound.
    obtain ⟨hexpression, harguments, hmore⟩ := ih
    exact ⟨fun _ _ _ h ↦ derivesExpression_of_readExpression_succ harguments h,
      fun _ _ _ _ h ↦ derivesArguments_of_readArguments_succ hexpression hmore h,
      fun _ _ _ _ h ↦ derivesMoreArguments_of_readMoreArguments_succ hexpression hmore h⟩

/-! ## Statements -/

theorem skipReturn_cases (text : List Char) :
    BeginsWithReturn text (skipReturn text) ∨
      (∀ after, ¬BeginsWithReturn text after) ∧ skipReturn text = text := by
  rw [skipReturn]
  split
  · rename_i hprefix
    obtain ⟨after, rfl⟩ := List.isPrefixOf_iff_prefix.mp hprefix
    rw [List.drop_left]
    dsimp only
    split
    · refine Or.inl ⟨rfl, fun c hc ↦ ?_⟩
      cases hc
    · rename_i c tail
      split
      · rename_i hpart
        refine Or.inr ⟨fun after hreturn ↦ ?_, rfl⟩
        obtain rfl := List.append_cancel_left hreturn.1
        rw [hreturn.2 c rfl] at hpart
        cases hpart
      · rename_i hpart
        refine Or.inl ⟨rfl, fun d hd ↦ ?_⟩
        obtain rfl : c = d := Option.some.inj hd
        exact Bool.eq_false_iff.mpr hpart
  · rename_i hprefix
    refine Or.inr ⟨fun after hreturn ↦ hprefix ?_, rfl⟩
    exact List.isPrefixOf_iff_prefix.mpr ⟨after, hreturn.1.symm⟩

theorem derivesStatement_of_readStatement {s : Statement} (h : readStatement text = .read s rest) :
    DerivesStatement text s rest := by
  rw [readStatement] at h
  obtain ⟨e, he, rfl⟩ := Outcome.exists_of_map h
  have hexpression := (derives_of_read _).1 _ _ _ he
  obtain hreturn | ⟨hreturn, hsame⟩ := skipReturn_cases text
  · exact .returned hreturn hexpression
  · rw [hsame] at hexpression
    exact .plain hreturn hexpression

private theorem atLineEnd_dropWhile (text : List Char) :
    AtLineEnd (text.dropWhile (· != '\n')) := by
  induction text with
  | nil => exact Or.inl rfl
  | cons c rest ih =>
    by_cases hc : c = '\n'
    · subst hc
      exact Or.inr ⟨rest, rfl⟩
    · rwa [List.dropWhile_cons, if_pos (bne_iff_ne.mpr hc)]

theorem endsStatement_of_skipToStatementEnd
    (h : AtLineEnd (skipToStatementEnd text) ∨ ∃ next, skipToStatementEnd text = ';' :: next) :
    EndsStatement text (skipToStatementEnd text) := by
  have hspaces : ∀ c ∈ text.takeWhile isInlineSpace, c ∈ [' ', '\t', '\r'] := by
    intro c hc
    have hspace := List.mem_takeWhile_imp hc
    simpa [isInlineSpace, or_assoc] using hspace
  have hsplit : text.takeWhile isInlineSpace ++ text.dropWhile isInlineSpace = text :=
    List.takeWhile_append_dropWhile
  rw [skipToStatementEnd] at h ⊢
  generalize text.takeWhile isInlineSpace = spaces at hspaces hsplit
  generalize text.dropWhile isInlineSpace = after at h hsplit ⊢
  subst hsplit
  split
  · rename_i comment
    have hcomment : comment.takeWhile (· != '\n') ++ comment.dropWhile (· != '\n') = comment :=
      List.takeWhile_append_dropWhile
    have hbody : '\n' ∉ comment.takeWhile (· != '\n') := fun hmem ↦
      absurd (List.mem_takeWhile_imp hmem) (by decide)
    have hends := EndsStatement.comment hspaces hbody (atLineEnd_dropWhile comment)
    rwa [hcomment] at hends
  · refine .plain hspaces ?_
    simp_all

/-! ## Programs -/

theorem separators_skipSeparators (text : List Char) :
    Separators text (skipSeparators text) ∧
      ∀ c ∈ (skipSeparators text).head?, isSeparator c = false ∧ c ≠ '#' := by
  obtain ⟨h, hstops⟩ := skipSeparators_eq_iff.mp (rfl : skipSeparators text = _)
  refine ⟨h, fun c hc ↦ ?_⟩
  simpa [startsFiller] using hstops c hc

/-- A separator in front of the other statements is skipped, so less is left for them. -/
theorem length_skipSeparators_lt {s : Statement} {after next : List Char} {e : Char}
    (hread : readStatement text = .read s after) (hend : skipToStatementEnd after = e :: next)
    (he : e = '\n' ∨ e = ';') : (skipSeparators (e :: next)).length < text.length := by
  have hskip : skipSeparators (e :: next) = skipSeparators next := by
    obtain rfl | rfl := he <;> rfl
  have hstatement := (covers_of_readStatement hread).length_le
  have hrest := (covers_skipToStatementEnd after).length_le
  have hlength := (covers_skipSeparators next).length_le
  rw [hend, List.length_cons] at hrest
  rw [hskip]
  omega

/-- **Statements that are read are derived**, if their bound is large enough. -/
theorem derivesProgram_of_readStatements {bound : ℕ} {statements : List Statement}
    (hbound : (skipSeparators text).length < bound)
    (h : readStatements bound text = .ok statements) : DerivesProgram text statements := by
  induction bound generalizing text statements with
  | zero => omega
  | succ bound ih =>
    obtain ⟨hseparators, hstart⟩ := separators_skipSeparators text
    obtain ⟨hempty, rfl⟩ | ⟨statement, rest, hread, hothers⟩ := exists_of_readStatements h
    · rw [hempty] at hseparators
      exact .empty hseparators
    · have hstatement := derivesStatement_of_readStatement hread
      obtain ⟨hlast, rfl⟩ | ⟨e, next, others, hnext, hseparator, hothers, rfl⟩ := hothers
      · have hend := endsStatement_of_skipToStatementEnd (Or.inl (Or.inl hlast))
        rw [hlast] at hend
        exact .statement hseparators hstart hstatement hend (.empty (.nothing []))
      · have hends : AtLineEnd (skipToStatementEnd rest) ∨
            ∃ next, skipToStatementEnd rest = ';' :: next := by
          rw [hnext]
          obtain rfl | rfl := hseparator
          · exact Or.inl (Or.inr ⟨next, rfl⟩)
          · exact Or.inr ⟨next, rfl⟩
        have hend := endsStatement_of_skipToStatementEnd hends
        rw [hnext] at hend
        have hshorter := length_skipSeparators_lt hread hnext hseparator
        exact .statement hseparators hstart hstatement hend (ih (by omega) hothers)

end MapQuery.Language
