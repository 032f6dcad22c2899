import MapQuery.Proofs.Language.Completeness

/-!
# Texts with more text behind

A derivation depends on the text that it covers and on little else: more text may be put behind if
that begins a new line (`NewLine`). A comment that went on to the end of the text then ends at the
line end, and the statement in front of it ends there as well. Two rules look further than that. A
name on its own stands in front of no parenthesis, whatever gap is between the two, so no
parenthesis may come first in the text behind; and the word `return` ends where no name goes on.

Places count the characters that remain, so that each of them grows by the length of what is put
behind (`Expression.shift`). The main statement is that two programs make one when a line end is put
between them (`DerivesProgram.append`).
-/

namespace MapQuery

/-! ## Moved places -/

mutual

/-- The expression with so many more characters behind each of its places. -/
def Expression.shift (n : ℕ) : Expression → Expression
  | .literal value => .literal value
  | .none => .none
  | .name word place => .name word (place + n)
  | .call callee arguments place => .call callee (Expression.shiftArguments n arguments) (place + n)

def Expression.shiftArguments (n : ℕ) :
    List (Option String × Expression) → List (Option String × Expression)
  | [] => []
  | (keyword, value) :: rest => (keyword, value.shift n) :: Expression.shiftArguments n rest

end

def Statement.shift (n : ℕ) (statement : Statement) : Statement :=
  ⟨statement.expression.shift n, statement.place + n⟩

namespace Language

open Text

variable {text rest more : List Char}

/-! ## Gaps -/

section Filler

variable {isSpace isSpace' : Char → Bool} {a b c : List Char}

theorem Filler.trans (hab : Filler isSpace a b) (hbc : Filler isSpace b c) :
    Filler isSpace a c := by
  induction hab with
  | nothing => exact hbc
  | space hc _ ih => exact .space hc (ih hbc)
  | comment hbody hend _ ih => exact .comment hbody hend (ih hbc)

theorem Filler.mono (hspace : ∀ c, isSpace c = true → isSpace' c = true)
    (h : Filler isSpace a b) : Filler isSpace' a b := by
  induction h with
  | nothing => exact .nothing _
  | space hc _ ih => exact .space (hspace _ hc) ih
  | comment hbody hend _ ih => exact .comment hbody hend ih

theorem AtLineEnd.append (h : AtLineEnd text) (hmore : AtLineEnd more) :
    AtLineEnd (text ++ more) := by
  obtain rfl | ⟨next, rfl⟩ := h
  · exact hmore
  · exact Or.inr ⟨next ++ more, rfl⟩

/-- A comment at the end of the text ends where a new line begins. -/
theorem Filler.append (h : Filler isSpace a b) (hmore : AtLineEnd more) :
    Filler isSpace (a ++ more) (b ++ more) := by
  induction h with
  | nothing => exact .nothing _
  | space hc _ ih => exact .space hc ih
  | comment hbody hend _ ih =>
    rw [List.cons_append, List.append_assoc]
    exact .comment hbody (hend.append hmore) ih

end Filler

/-- The text begins a new line, and behind its first gap there is no parenthesis. -/
structure NewLine (more : List Char) : Prop where
  atLineEnd : AtLineEnd more
  not_opens : ∀ inside, ¬Gap more ('(' :: inside)

theorem Gap.skipGap_eq (h : Gap text rest) : skipGap text = skipGap rest := by
  obtain ⟨hgap, hstops⟩ := skipGap_eq_iff.mp (rfl : skipGap rest = _)
  exact skipGap_eq_iff.mpr ⟨Filler.trans h hgap, hstops⟩

/-- No parenthesis comes first behind a gap either, if none does without the text behind. -/
theorem NewLine.not_opens_append (hmore : NewLine more) (h : ∀ inside, ¬Gap rest ('(' :: inside)) :
    ∀ inside, ¬Gap (rest ++ more) ('(' :: inside) := by
  intro inside hopen
  obtain ⟨hgap, hstops⟩ := skipGap_eq_iff.mp (rfl : skipGap rest = _)
  have hskip := hopen.skipGap_cons (by decide)
  have happend := Filler.append hgap hmore.atLineEnd
  rw [Gap.skipGap_eq happend] at hskip
  rcases hrest : skipGap rest with _ | ⟨c, tail⟩
  · -- The text in front is one gap, so the parenthesis is in the text behind.
    rw [hrest] at hskip
    exact hmore.not_opens inside (skipGap_eq_iff.mp hskip).1
  · rw [hrest] at hskip hstops hgap
    rw [stops_cons] at hstops
    rw [List.cons_append, skipGap_of_stops (by rwa [stops_cons])] at hskip
    obtain ⟨rfl, -⟩ := List.cons.inj hskip
    exact h tail hgap

/-! ## Expressions -/

theorem Quoted.append {quote : Char} {value : List Char} (h : Quoted quote text value rest)
    (more : List Char) : Quoted quote (text ++ more) value (rest ++ more) := by
  induction h with
  | close => exact .close _
  | escape hc _ ih => exact .escape hc ih
  | char hline hback hquote _ ih => exact .char hline hback hquote ih

theorem ClosesCall.append (h : ClosesCall text rest) (hmore : AtLineEnd more) :
    ClosesCall (text ++ more) (rest ++ more) := by
  cases h with
  | parenthesis h => exact .parenthesis (Filler.append h hmore)
  | comma h h' => exact .comma (Filler.append h hmore) (Filler.append h' hmore)

theorem NameTree.shift {word : String} {place : ℕ} {e : Expression} (h : NameTree word place e)
    (n : ℕ) : NameTree word (place + n) (e.shift n) := by
  cases h with
  | true h => exact .true h
  | false h => exact .false h
  | none h => exact .none h
  | name h => exact .name h

private theorem length_append_append (word after more : List Char) :
    (word ++ (after ++ more)).length = (word ++ after).length + more.length := by
  rw [← List.append_assoc, List.length_append]

theorem Gap.append_word {word after : List Char} (h : Gap text (word ++ after))
    (hmore : AtLineEnd more) : Gap (text ++ more) (word ++ (after ++ more)) := by
  rw [← List.append_assoc]
  exact Filler.append h hmore

mutual

/-- **A derived expression stays derived** when a new line is put behind, with its places moved. -/
theorem DerivesExpression.append {text rest : List Char} {e : Expression} (hmore : NewLine more) :
    DerivesExpression text e rest →
      DerivesExpression (text ++ more) (e.shift more.length) (rest ++ more)
  | .call hgap hword hopen harguments => by
    have hcall := DerivesExpression.call (Gap.append_word hgap hmore.atLineEnd) hword
      (Filler.append hopen hmore.atLineEnd) (DerivesArguments.append hmore harguments)
    rwa [length_append_append] at hcall
  | .name hgap hword hnot htree => by
    refine .name (Gap.append_word hgap hmore.atLineEnd) hword (hmore.not_opens_append hnot) ?_
    rw [length_append_append]
    exact htree.shift more.length
  | .quotation hgap hquote hquoted =>
    .quotation (Filler.append hgap hmore.atLineEnd) hquote (hquoted.append more)
  | .number hgap hspelling htree =>
    .number (Gap.append_word hgap hmore.atLineEnd) hspelling htree

theorem DerivesArgument.append {text rest : List Char} {argument : Argument}
    (hmore : NewLine more) : DerivesArgument text argument rest →
      DerivesArgument (text ++ more) (argument.1, argument.2.shift more.length) (rest ++ more)
  | .positional h => .positional (DerivesExpression.append hmore h)
  | .keyword hgap hword hequals h =>
    .keyword (Gap.append_word hgap hmore.atLineEnd) hword (Filler.append hequals hmore.atLineEnd)
      (DerivesExpression.append hmore h)

theorem DerivesArguments.append {text rest : List Char} {arguments : List Argument}
    (hmore : NewLine more) : DerivesArguments text arguments rest →
      DerivesArguments (text ++ more) (Expression.shiftArguments more.length arguments)
        (rest ++ more)
  | .none hclose => .none (hclose.append hmore.atLineEnd)
  | .some hfirst hothers =>
    .some (DerivesArgument.append hmore hfirst) (DerivesMoreArguments.append hmore hothers)

theorem DerivesMoreArguments.append {text rest : List Char} {arguments : List Argument}
    (hmore : NewLine more) : DerivesMoreArguments text arguments rest →
      DerivesMoreArguments (text ++ more) (Expression.shiftArguments more.length arguments)
        (rest ++ more)
  | .none hclose => .none (hclose.append hmore.atLineEnd)
  | .some hcomma hfirst hothers =>
    .some (Filler.append hcomma hmore.atLineEnd) (DerivesArgument.append hmore hfirst)
      (DerivesMoreArguments.append hmore hothers)

end

/-! ## Statements -/

/-- The word `return` ends at the end of a line, and does not go on over one. -/
theorem BeginsWithReturn.append {after : List Char} (h : BeginsWithReturn text after)
    (hmore : AtLineEnd more) : BeginsWithReturn (text ++ more) (after ++ more) := by
  obtain ⟨rfl, hafter⟩ := h
  refine ⟨List.append_assoc _ _ _, ?_⟩
  rcases after with _ | ⟨c, after⟩
  · intro c hc
    obtain rfl | ⟨next, rfl⟩ := hmore
    · cases hc
    · obtain rfl : '\n' = c := Option.some.inj hc
      decide
  · exact hafter

private theorem not_beginsWithReturn_append (h : ∀ after, ¬BeginsWithReturn text after)
    (hmore : AtLineEnd more) : ∀ after, ¬BeginsWithReturn (text ++ more) after := by
  rintro after ⟨hsplit, hafter⟩
  rcases List.append_eq_append_iff.mp hsplit with ⟨word, hword, hrest⟩ | ⟨tail, rfl, rfl⟩
  · rcases word with _ | ⟨c, word⟩
    · exact h [] ⟨by rw [List.append_nil, hword, List.append_nil], nofun⟩
    · -- The line end would be a letter of the word.
      obtain rfl | ⟨next, rfl⟩ := hmore
      · cases hrest
      · obtain ⟨rfl, -⟩ := List.cons.inj hrest
        have hmem : '\n' ∈ "return".toList := by
          rw [hword]
          exact List.mem_append_right _ List.mem_cons_self
        exact absurd hmem (by decide)
  · refine h tail ⟨rfl, ?_⟩
    rcases tail with _ | ⟨c, tail⟩
    · exact nofun
    · exact hafter

theorem DerivesStatement.append {s : Statement} (h : DerivesStatement text s rest)
    (hmore : NewLine more) :
    DerivesStatement (text ++ more) (s.shift more.length) (rest ++ more) := by
  cases h with
  | returned hreturn h =>
    have hstatement := DerivesStatement.returned (hreturn.append hmore.atLineEnd) (h.append hmore)
    rwa [List.length_append] at hstatement
  | plain hreturn h =>
    have hstatement := DerivesStatement.plain
      (not_beginsWithReturn_append hreturn hmore.atLineEnd) (h.append hmore)
    rwa [List.length_append] at hstatement

theorem EndsStatement.append (h : EndsStatement text rest) (hmore : AtLineEnd more) :
    EndsStatement (text ++ more) (rest ++ more) := by
  cases h with
  | plain hspaces hend =>
    rw [List.append_assoc]
    refine .plain hspaces (hend.imp (·.append hmore) ?_)
    rintro ⟨next, rfl⟩
    exact ⟨next ++ more, rfl⟩
  | comment hspaces hbody hend =>
    rw [List.append_assoc, List.cons_append, List.append_assoc]
    exact .comment hspaces hbody (hend.append hmore)

/-! ## Programs -/

theorem DerivesProgram.of_separators {statements : List Statement} (h : Separators text rest)
    (hrest : DerivesProgram rest statements) : DerivesProgram text statements := by
  cases hrest with
  | empty h' => exact .empty (h.trans h')
  | statement h' hstart hstatement hend hothers =>
    exact .statement (h.trans h') hstart hstatement hend hothers

theorem DerivesStatement.exists_cons {after : List Char} {s : Statement}
    (h : DerivesStatement text s after) (hend : EndsStatement after rest) :
    ∃ c tail, text = c :: tail ∧ c ≠ '(' := by
  have hread := h.readStatement_eq hend.delimited
  rcases text with _ | ⟨c, tail⟩
  · cases hread
  · refine ⟨c, tail, rfl, ?_⟩
    rintro rfl
    cases hread

theorem DerivesProgram.newLine {statements : List Statement} (h : DerivesProgram more statements)
    (hend : AtLineEnd more) : NewLine more := by
  refine ⟨hend, ?_⟩
  intro inside hopen
  have hseparator : ∀ c, isBlank c = true → isSeparator c = true := by
    intro c hc
    rw [isSeparator, hc, Bool.true_or]
  have hskip : skipSeparators more = '(' :: inside :=
    skipSeparators_eq_iff.mpr ⟨Filler.mono hseparator hopen, by rw [stops_cons]; decide⟩
  cases h with
  | empty h =>
    rw [skipSeparators_eq_iff.mpr ⟨h, stops_nil _⟩] at hskip
    cases hskip
  | statement h hstart hstatement hend =>
    obtain ⟨c, tail, rfl, hc⟩ := hstatement.exists_cons hend
    rw [Separators.skipSeparators_eq h hstart] at hskip
    exact hc (List.cons.inj hskip).1

/-- **Two programs make one** when the second one begins on a new line: the statements of the first
one, with their places moved, and then those of the second one. -/
theorem DerivesProgram.append {statements others : List Statement}
    (h : DerivesProgram text statements) (hmore : NewLine more)
    (hothers : DerivesProgram more others) :
    DerivesProgram (text ++ more) (statements.map (·.shift more.length) ++ others) := by
  induction h with
  | empty h => exact hothers.of_separators (h.append hmore.atLineEnd)
  | statement hseparators hstart hstatement hend _ ih =>
    obtain ⟨c, tail, rfl, -⟩ := hstatement.exists_cons hend
    exact .statement (hseparators.append hmore.atLineEnd) hstart (hstatement.append hmore)
      (hend.append hmore.atLineEnd) ih

end Language

end MapQuery
