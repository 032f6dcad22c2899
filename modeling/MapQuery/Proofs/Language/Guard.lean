import MapQuery.Language.Reader
import MapQuery.Proofs.Language.Comments

/-!
# The count of parentheses and the readers

What a reader takes from a text nests as many levels as the expression that it returns is deep,
comments aside (`covers_of_readExpression`, by induction on the bound of the readers). So for a
program without its comments the limit on parentheses is a limit on the depth of its calls
(`checkNesting_withoutComments_iff`). A comment can mislead the count in both directions
(`checkNesting_misled`).
-/

namespace MapQuery.Language

/-! ## Names and numbers -/

private theorem covers_scanName (text : List Char) : Covers text (scanName text).2 0 :=
  covers_dropWhile (fun _ ↦ isInert_of_kind isNamePart (by decide)) text

theorem covers_scanDigits (text : List Char) : Covers text (Numeral.scanDigits text).2 0 :=
  covers_dropWhile (fun _ ↦ isInert_of_kind Numeral.isDigit (by decide)) text

private theorem covers_scanSign (text : List Char) : Covers text (Numeral.scanSign text).2 0 := by
  unfold Numeral.scanSign
  split
  · exact covers_cons (by decide) _
  · exact covers_cons (by decide) _
  · exact Covers.refl _

private theorem covers_scanExponent (text : List Char) :
    Covers text (Numeral.scanExponent text).2 0 := by
  rw [Numeral.scanExponent.eq_def]
  split
  · exact Covers.refl _
  · rename_i mark rest
    split
    · rename_i hmark
      have hinert : isInert mark = true :=
        isInert_of_kind (fun c ↦ c == 'e' || c == 'E') (by decide) hmark
      have hcovers := (covers_cons hinert rest).trans_left ((covers_scanSign rest).trans_left
        (covers_scanDigits _))
      dsimp only
      split
      · exact Covers.refl _
      · rename_i heq
        rwa [heq] at hcovers
    · exact Covers.refl _

private theorem covers_scanMantissa {text rest whole : List Char} {fraction : Option (List Char)}
    (h : Numeral.scanMantissa text = .ok (whole, fraction, rest)) : Covers text rest 0 := by
  have hdigits := covers_scanDigits text
  have hpoint : ∀ after, Covers ('.' :: after) (Numeral.scanDigits after).2 0 :=
    fun after ↦ (covers_cons (by decide) after).trans_left (covers_scanDigits after)
  rw [Numeral.scanMantissa.eq_def] at h
  split at h
  · rename_i after heq
    rw [heq] at hdigits
    split at h
    · cases h
    · rename_i heq'
      cases h
      exact hdigits.trans_left (by simpa [heq'] using hpoint after)
  · cases h
  · rename_i after _ heq
    cases h
    rw [heq] at hdigits
    exact hdigits.trans_left (hpoint after)
  · rename_i heq
    cases h
    rwa [heq] at hdigits

theorem covers_scan {text rest : List Char} {n : Numeral} (h : Numeral.scan text = .ok (n, rest)) :
    Covers text rest 0 := by
  rw [Numeral.scan] at h
  dsimp only at h
  split at h
  · cases h
  · rename_i heq
    cases h
    exact (covers_scanSign text).trans_left
      ((covers_scanMantissa heq).trans_left (covers_scanExponent _))

/-! ## Expressions -/

theorem Outcome.exists_of_map {α β : Type} {f : α → β} {o : Outcome α} {value : β}
    {rest : List Char} (h : o.map f = .read value rest) : ∃ u, o = .read u rest ∧ f u = value := by
  cases o with
  | read u rest' =>
    cases h
    exact ⟨u, rfl, rfl⟩
  | absent place => cases h
  | broken place => cases h

private theorem depth_bareName (name : String) (place : ℕ) : (bareName name place).depth = 0 := by
  unfold bareName
  split_ifs <;> rfl

theorem covers_of_keyword? {text rest : List Char} {keyword : String}
    (h : keyword? (skipGap text) = some (keyword, rest)) : Covers text rest 0 := by
  refine (covers_skipGap text).trans_left ?_
  generalize skipGap text = start at h ⊢
  rw [keyword?.eq_def] at h
  split at h
  · cases h
  · rename_i c tail
    split at h
    · have hname := covers_scanName (c :: tail)
      dsimp only at h
      split at h
      · cases h
      · rename_i after _ heq
        cases h
        have hgap := covers_skipGap (scanName (c :: tail)).2
        rw [heq] at hgap
        exact hname.trans_left (hgap.trans_left (covers_cons (by decide) _))
      · cases h
    · cases h

theorem covers_of_readArgument {readValue : List Char → Outcome Expression}
    (hvalue : ∀ text e rest, readValue text = .read e rest → Covers text rest e.depth)
    {text rest : List Char} {argument : Argument}
    (h : readArgument readValue text = .read argument rest) :
    Covers text rest argument.2.depth := by
  rw [readArgument] at h
  split at h
  · rename_i keyword after hkeyword
    obtain ⟨e, he, rfl⟩ := Outcome.exists_of_map h
    exact (covers_of_keyword? hkeyword).trans_left (hvalue _ _ _ he)
  · obtain ⟨e, he, rfl⟩ := Outcome.exists_of_map h
    exact hvalue _ _ _ he

private theorem covers_of_readQuotation {quote : Char} {text rest : List Char} {e : Expression}
    (hquote : isQuote quote = true) (h : readQuotation (quote :: text) = .read e rest) :
    Covers (quote :: text) rest e.depth := by
  rw [readQuotation] at h
  split at h
  · rename_i value after hscan
    cases h
    exact covers_quotation hquote hscan
  · cases h

private theorem covers_of_readNumber {text rest : List Char} {e : Expression}
    (h : readNumber text = .read e rest) : Covers text rest e.depth := by
  rw [readNumber] at h
  split at h
  · cases h
  · rename_i n after hscan
    split at h
    · split at h
      · cases h
        exact covers_scan hscan
      · cases h
    · cases h
      exact covers_scan hscan

theorem covers_of_closeCall? {text rest : List Char} (h : closeCall? text = some rest) :
    Covers text (')' :: rest) 0 := by
  have hgap := covers_skipGap text
  rw [closeCall?] at h
  split at h
  · rename_i heq
    cases h
    rwa [heq] at hgap
  · rename_i after heq
    have hgap' := covers_skipGap after
    rw [heq] at hgap
    split at h
    · rename_i heq'
      cases h
      rw [heq'] at hgap'
      exact hgap.trans_left ((covers_cons (by decide) after).trans_left hgap')
    · cases h
  · cases h

/-- One step of the reader of expressions, given what the reader of arguments covers. -/
theorem covers_of_readExpression_succ {bound : ℕ}
    (harguments : ∀ text arguments rest, readArguments bound text = .read arguments rest →
      Covers text rest (Expression.argumentsDepth arguments))
    {text rest : List Char} {e : Expression} (h : readExpression (bound + 1) text = .read e rest) :
    Covers text rest e.depth := by
  rw [readExpression] at h
  refine (covers_skipGap text).trans_left ?_
  generalize skipGap text = start at h ⊢
  split at h
  · cases h
  · rename_i c tail
    split at h
    · have hname := covers_scanName (c :: tail)
      dsimp only at h
      split at h
      · rename_i inside heq
        have hgap := covers_skipGap (scanName (c :: tail)).2
        rw [heq] at hgap
        split at h
        · cases h
        · cases h
        · rename_i arguments after hread
          split at h
          · rename_i after' hclose
            cases h
            have hinside := (harguments _ _ _ hread).trans_right (covers_of_closeCall? hclose)
            exact hname.trans_left (hgap.trans_left (covers_parenthesized hinside))
          · cases h
      · cases h
        rwa [depth_bareName]
    · split at h
      · rename_i hquote
        exact covers_of_readQuotation hquote h
      · exact covers_of_readNumber h

theorem covers_of_readMoreArguments_succ {bound : ℕ}
    (hexpression : ∀ text e rest, readExpression bound text = .read e rest →
      Covers text rest e.depth)
    (hmore : ∀ text arguments rest, readMoreArguments bound text = .read arguments rest →
      Covers text rest (Expression.argumentsDepth arguments))
    {text rest : List Char} {arguments : List Argument}
    (h : readMoreArguments (bound + 1) text = .read arguments rest) :
    Covers text rest (Expression.argumentsDepth arguments) := by
  rw [readMoreArguments] at h
  split at h
  · rename_i after heq
    have hgap := covers_skipGap text
    rw [heq] at hgap
    split at h
    · cases h
      exact Covers.refl _
    · cases h
    · rename_i argument after' hread
      obtain ⟨arguments', hrest, rfl⟩ := Outcome.exists_of_map h
      have hargument := covers_of_readArgument hexpression hread
      exact hgap.trans_left ((covers_cons (by decide) after).trans_left
        (hargument.trans (hmore _ _ _ hrest)))
  · cases h
    exact Covers.refl _

private theorem covers_of_readArguments_succ {bound : ℕ}
    (hexpression : ∀ text e rest, readExpression bound text = .read e rest →
      Covers text rest e.depth)
    (hmore : ∀ text arguments rest, readMoreArguments bound text = .read arguments rest →
      Covers text rest (Expression.argumentsDepth arguments))
    {text rest : List Char} {arguments : List Argument}
    (h : readArguments (bound + 1) text = .read arguments rest) :
    Covers text rest (Expression.argumentsDepth arguments) := by
  rw [readArguments] at h
  split at h
  · cases h
    exact Covers.refl _
  · cases h
  · rename_i argument after hread
    obtain ⟨arguments', hrest, rfl⟩ := Outcome.exists_of_map h
    exact (covers_of_readArgument hexpression hread).trans (hmore _ _ _ hrest)

/-- **What a reader takes nests as many levels as what it returns is deep.** -/
theorem covers_of_read (bound : ℕ) :
    (∀ text e rest, readExpression bound text = .read e rest → Covers text rest e.depth) ∧
    (∀ text arguments rest, readArguments bound text = .read arguments rest →
      Covers text rest (Expression.argumentsDepth arguments)) ∧
    (∀ text arguments rest, readMoreArguments bound text = .read arguments rest →
      Covers text rest (Expression.argumentsDepth arguments)) := by
  induction bound with
  | zero =>
    refine ⟨fun text e rest h ↦ ?_, fun text arguments rest h ↦ ?_, fun text arguments rest h ↦ ?_⟩
    · rw [readExpression] at h
      cases h
    · rw [readArguments] at h
      cases h
      exact Covers.refl _
    · rw [readMoreArguments] at h
      cases h
      exact Covers.refl _
  | succ bound ih =>
    -- Every reader calls the others with a smaller bound.
    obtain ⟨hexpression, harguments, hmore⟩ := ih
    exact ⟨fun _ _ _ h ↦ covers_of_readExpression_succ harguments h,
      fun _ _ _ h ↦ covers_of_readArguments_succ hexpression hmore h,
      fun _ _ _ h ↦ covers_of_readMoreArguments_succ hexpression hmore h⟩

/-! ## Programs -/

/-- The depth of the deepest of some statements. -/
def programDepth (statements : List Statement) : ℕ :=
  (statements.map (·.expression.depth)).foldr max 0

private theorem programDepth_le_iff {statements : List Statement} {limit : ℕ} :
    programDepth statements ≤ limit ↔ ∀ s ∈ statements, s.expression.depth ≤ limit := by
  induction statements with
  | nil => simp [programDepth]
  | cons s statements ih =>
    rw [List.forall_mem_cons, ← ih]
    exact Nat.max_le

theorem covers_skipReturn (text : List Char) : Covers text (skipReturn text) 0 := by
  rw [skipReturn]
  split
  · rename_i hprefix
    obtain ⟨rest, rfl⟩ := List.isPrefixOf_iff_prefix.mp hprefix
    have hcovers : Covers ("return".toList ++ rest) rest 0 :=
      covers_append (List.all_eq_true.mp (by decide)) rest
    rw [List.drop_left]
    dsimp only
    split
    · exact hcovers
    · split
      · exact Covers.refl _
      · exact hcovers
  · exact Covers.refl _

theorem covers_of_readStatement {text rest : List Char} {statement : Statement}
    (h : readStatement text = .read statement rest) :
    Covers text rest statement.expression.depth := by
  rw [readStatement] at h
  obtain ⟨e, he, rfl⟩ := Outcome.exists_of_map h
  exact (covers_skipReturn text).trans_left ((covers_of_read _).1 _ _ _ he)

/-- What is left where statements were read: nothing, the last statement, or a statement and what
separates it from others. -/
theorem exists_of_readStatements {bound : ℕ} {text : List Char} {statements : List Statement}
    (h : readStatements (bound + 1) text = .ok statements) :
    (skipSeparators text = [] ∧ statements = []) ∨
    ∃ statement rest, readStatement (skipSeparators text) = .read statement rest ∧
      ((skipToStatementEnd rest = [] ∧ statements = [statement]) ∨
        ∃ e next others, skipToStatementEnd rest = e :: next ∧ (e = '\n' ∨ e = ';') ∧
          readStatements bound (e :: next) = .ok others ∧ statements = statement :: others) := by
  rw [readStatements] at h
  generalize skipSeparators text = start at h ⊢
  split at h
  · obtain rfl := Except.ok.inj h
    exact Or.inl ⟨rfl, rfl⟩
  · split at h
    · cases h
    · cases h
    · rename_i statement rest hread
      refine Or.inr ⟨statement, rest, hread, ?_⟩
      split at h
      · rename_i hend
        obtain rfl := Except.ok.inj h
        exact Or.inl ⟨hend, rfl⟩
      · rename_i e next hend
        split at h
        · rename_i hseparator
          rw [Bool.or_eq_true, beq_iff_eq, beq_iff_eq] at hseparator
          rcases hothers : readStatements bound (e :: next) with fault | others
          · rw [hothers] at h
            cases h
          · rw [hothers] at h
            obtain rfl := Except.ok.inj h
            exact Or.inr ⟨e, next, others, hend, hseparator, hothers, rfl⟩
        · cases h

/-- Statements that were read take the whole text, if their bound is large enough: each but the
first one begins behind the end of another, which is skipped with what separates them. -/
theorem covers_of_readStatements {bound : ℕ} {text : List Char} {statements : List Statement}
    (hbound : (skipSeparators text).length < bound)
    (h : readStatements bound text = .ok statements) :
    Covers text [] (programDepth statements) := by
  induction bound generalizing text statements with
  | zero => omega
  | succ bound ih =>
    refine (covers_skipSeparators text).trans_left ?_
    obtain ⟨hempty, rfl⟩ | ⟨statement, rest, hread, hothers⟩ := exists_of_readStatements h
    · rw [hempty]
      exact Covers.refl _
    · have hstatement := covers_of_readStatement hread
      have hend := covers_skipToStatementEnd rest
      obtain ⟨hlast, rfl⟩ | ⟨e, next, others, hnext, hseparator, hothers, rfl⟩ := hothers
      · rw [hlast] at hend
        exact hstatement.trans hend
      · rw [hnext] at hend
        have hcovers := hstatement.trans_right hend
        -- The bound is a bound on what is left behind the separators, of which one is skipped here.
        have hskip : skipSeparators (e :: next) = skipSeparators next := by
          rcases hseparator with rfl | rfl <;> rfl
        have hlength := (covers_skipSeparators next).length_le
        have hle := hcovers.length_le
        rw [List.length_cons] at hle
        exact hcovers.trans (ih (by rw [hskip]; omega) hothers)

/-- **Without its comments**, a program is within the limit on parentheses exactly when all its
calls are. -/
theorem checkNesting_withoutComments_iff {source : List Char} {statements : List Statement}
    (h : readProgram source = .ok statements) :
    checkNesting (withoutComments source) = .ok () ↔
      ∀ s ∈ statements, s.expression.depth ≤ maxNesting := by
  have hbound : (skipSeparators source).length < source.length + 1 :=
    Nat.lt_succ_of_le (covers_skipSeparators source).length_le
  obtain ⟨-, stretch, hstretch, hnests⟩ := covers_of_readStatements hbound h
  rw [withoutComments_nil, List.append_nil] at hstretch
  rw [hstretch, hnests.checkNesting_eq_ok_iff, programDepth_le_iff]

/-- **When the limit on parentheses is a limit on calls.** For a program that can be read, the two
agree exactly when the comments do not change the verdict of the count; and they do agree when no
quote and no parenthesis stands in a comment. -/
theorem checkNesting_iff_depth_le {source : List Char} {statements : List Statement}
    (h : readProgram source = .ok statements) :
    ((checkNesting source = .ok () ↔ ∀ s ∈ statements, s.expression.depth ≤ maxNesting) ↔
      (checkNesting source = .ok () ↔ checkNesting (withoutComments source) = .ok ())) ∧
    ((∀ c ∈ commentText source, isPlain c = true) →
      (checkNesting source = .ok () ↔ ∀ s ∈ statements, s.expression.depth ≤ maxNesting)) := by
  rw [checkNesting_withoutComments_iff h]
  refine ⟨Iff.rfl, fun hplain ↦ ?_⟩
  rw [← checkNesting_withoutComments hplain]
  exact checkNesting_withoutComments_iff h

/-- A program with a harmless comment in it. -/
theorem checkNesting_iff_depth_le_count :
    checkNesting "count(get_layer('#')) # done".toList = .ok () ∧
      ∃ statements, readProgram "count(get_layer('#')) # done".toList = .ok statements ∧
        ∀ s ∈ statements, s.expression.depth ≤ maxNesting := by
  have hcheck : checkNesting "count(get_layer('#')) # done".toList = .ok () := by
    rw [checkNesting_eq_ok]
    decide +kernel
  have hok : (readProgram "count(get_layer('#')) # done".toList).isOk = true := by
    decide +kernel
  cases hread : readProgram "count(get_layer('#')) # done".toList with
  | error fault =>
    rw [hread] at hok
    cases hok
  | ok statements =>
    have hplain : (commentText "count(get_layer('#')) # done".toList).all isPlain = true := by
      decide +kernel
    exact ⟨hcheck, statements, rfl,
      ((checkNesting_iff_depth_le hread).2 (List.all_eq_true.mp hplain)).mp hcheck⟩

/-- Calls that are 65 levels deep. Behind each opening parenthesis stands a comment with a closing
one. -/
def maskedCalls : List Char :=
  (List.replicate 65 "union(#)\n".toList).flatten ++ List.replicate 65 ')'

/-- Parentheses in a comment are counted, so that a text without any call is refused for its
nesting, and calls that are too deep are let through. -/
theorem checkNesting_misled :
    (checkNesting ('#' :: List.replicate 65 '(') ≠ .ok () ∧
      readProgram ('#' :: List.replicate 65 '(') = .ok []) ∧
    (checkNesting maskedCalls = .ok () ∧
      (readProgram maskedCalls).toOption.map (·.map (·.expression.depth)) = some [65]) := by
  refine ⟨⟨?_, rfl⟩, ?_, by decide +kernel⟩
  · rw [ne_eq, checkNesting_eq_ok]
    decide +kernel
  · rw [checkNesting_eq_ok]
    decide +kernel

end MapQuery.Language
