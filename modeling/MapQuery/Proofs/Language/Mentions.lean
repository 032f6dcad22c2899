import MapQuery.Proofs.Language.Blame
import MapQuery.Proofs.Language.Concatenation
import MapQuery.Proofs.Language.Leftover

/-!
# Where the words of a program stand

Each word that a program mentions stands in its text as a whole word, at the place that was
remembered for it, and in front of a parenthesis exactly if it is called (`Mention.StandsIn`). That
nothing goes on with the word behind it is what the grammar asks for. That no word goes on into it
is carried along the derivation: wherever an expression may begin, there is a character in front
that is no part of a name, or what comes next is none (`BeginsIn`). Gaps keep this
(`Filler.beginsIn`), and so do the characters that introduce an expression.
-/

namespace MapQuery

open MapQuery.Language MapQuery.Text

/-- The text holds the word between the two parts, and it is a whole word there. -/
structure IsWordBetween (source before : List Char) (word : String) (after : List Char) : Prop where
  split : source = before ++ (word.toList ++ after)
  isName : IsName word.toList
  /-- No word goes on into it. -/
  front : ∀ c ∈ before.getLast?, isNamePart c = false
  /-- It does not go on. -/
  behind : ∀ c ∈ after.head?, isNamePart c = false

/-- The word stands in the text as a whole word, at its place, and a parenthesis follows it behind a
gap exactly if it is called. -/
def Mention.StandsIn (m : Mention) (source : List Char) : Prop :=
  ∃ before after, IsWordBetween source before m.word after ∧
    m.place = (m.word.toList ++ after).length ∧
    (m.isCalled = true ↔ ∃ inside, Gap after ('(' :: inside))

namespace Language

variable {source text rest : List Char}

/-! ## Where a word may begin -/

/-- No word goes on from the text in front into the rest. -/
def Separated (front rest : List Char) : Prop :=
  (∀ c ∈ front.getLast?, isNamePart c = false) ∨ Stops isNamePart rest

/-- The rest is an end of the text, and no word goes on into it. -/
def BeginsIn (source rest : List Char) : Prop :=
  ∃ front, source = front ++ rest ∧ Separated front rest

theorem BeginsIn.suffix (h : BeginsIn source rest) : rest <:+ source := by
  obtain ⟨front, rfl, -⟩ := h
  exact List.suffix_append front rest

theorem beginsIn_self (source : List Char) : BeginsIn source source :=
  ⟨[], rfl, Or.inl nofun⟩

theorem beginsIn_of_stops (h : rest <:+ source) (hstops : Stops isNamePart rest) :
    BeginsIn source rest := by
  obtain ⟨front, rfl⟩ := h
  exact ⟨front, rfl, Or.inr hstops⟩

theorem beginsIn_of_cons {c : Char} (h : c :: rest <:+ source) (hc : isNamePart c = false) :
    BeginsIn source rest := by
  obtain ⟨front, rfl⟩ := h
  refine ⟨front ++ [c], by rw [List.append_assoc, List.singleton_append], Or.inl ?_⟩
  simpa using hc

/-- Filler keeps words apart: spaces are no part of a name, and a comment goes on to the end of its
line. -/
theorem Filler.beginsIn {isSpace : Char → Bool} (h : Filler isSpace text rest)
    (hspace : ∀ c, isSpace c = true → isNamePart c = false) (htext : BeginsIn source text) :
    BeginsIn source rest := by
  induction h with
  | nothing => exact htext
  | space hc _ ih =>
    exact ih (beginsIn_of_cons htext.suffix (hspace _ hc))
  | @comment body text rest _ hend _ ih =>
    refine ih (beginsIn_of_stops ?_ hend.delimited.stops_isNamePart)
    exact (List.suffix_append body text).trans ((List.suffix_cons _ _).trans htext.suffix)

private theorem isNamePart_of_isSeparator {c : Char} (h : isSeparator c = true) :
    isNamePart c = false := by
  refine Bool.eq_false_iff.mpr fun hpart ↦ ?_
  have hdelimiter := isDelimiter_of_isNamePart hpart
  rw [isDelimiter, startsGap, Bool.or_eq_false_iff, Bool.or_eq_false_iff, Bool.or_eq_false_iff]
    at hdelimiter
  rw [isSeparator, hdelimiter.1.1.1, hdelimiter.2] at h
  cases h

private theorem isNamePart_of_isBlank {c : Char} (h : isBlank c = true) : isNamePart c = false :=
  isNamePart_of_isSeparator (by rw [isSeparator, h, Bool.true_or])

theorem Gap.beginsIn (h : Gap text rest) (htext : BeginsIn source text) : BeginsIn source rest :=
  Filler.beginsIn h (fun _ ↦ isNamePart_of_isBlank) htext

theorem BeginsIn.standsIn {word after : List Char} (h : BeginsIn source (word ++ after))
    (hword : IsName word) (hafter : Stops isNamePart after) {isCalled : Bool}
    (hcalled : isCalled = true ↔ ∃ inside, Gap after ('(' :: inside)) :
    Mention.StandsIn ⟨String.ofList word, (word ++ after).length, isCalled⟩ source := by
  obtain ⟨before, rfl, hseparated⟩ := h
  have hbefore : ∀ c ∈ before.getLast?, isNamePart c = false := by
    refine hseparated.resolve_right fun hstops ↦ ?_
    obtain ⟨c, tail, rfl, -⟩ := hword.exists_cons
    rw [List.cons_append, stops_cons, hword.part c List.mem_cons_self] at hstops
    cases hstops
  refine ⟨before, after, ?_, ?_, hcalled⟩
  · rw [← String.toList_ofList (l := word)] at hword
    exact ⟨by rw [String.toList_ofList], hword, hbefore, hafter⟩
  · rw [String.toList_ofList]

/-! ## The words of a derivation -/

mutual

/-- **The words of an expression** stand where it was derived. -/
theorem DerivesExpression.standsIn {text rest : List Char} {e : Expression}
    (htext : BeginsIn source text) (hrest : Stops isNamePart rest) :
    DerivesExpression text e rest → ∀ m ∈ e.mentions, m.StandsIn source
  | .call hgap hword hopen harguments, m, hm => by
    have hstart := hgap.beginsIn htext
    rw [Expression.mentions, List.mem_cons] at hm
    obtain rfl | hm := hm
    · exact hstart.standsIn hword (stops_isNamePart_of_gap hopen (by decide))
        (iff_of_true rfl ⟨_, hopen⟩)
    · have hinside := hopen.suffix.trans ((List.suffix_append _ _).trans hstart.suffix)
      exact DerivesArguments.standsIn (beginsIn_of_cons hinside (by decide)) harguments m hm
  | .name hgap hword hnot htree, m, hm => by
    cases htree with
    | true => cases hm
    | false => cases hm
    | none => cases hm
    | name =>
      obtain rfl := List.mem_singleton.mp hm
      exact (hgap.beginsIn htext).standsIn hword hrest
        (iff_of_false Bool.false_ne_true fun ⟨inside, hinside⟩ ↦ hnot inside hinside)
  | .quotation _ _ _, _, hm => by cases hm
  | .number _ _ _, _, hm => by cases hm

theorem DerivesArgument.standsIn {text rest : List Char} {argument : Argument}
    (htext : BeginsIn source text) (hrest : Stops isNamePart rest) :
    DerivesArgument text argument rest → ∀ m ∈ argument.2.mentions, m.StandsIn source
  | .positional h => DerivesExpression.standsIn htext hrest h
  | .keyword hgap _ hequals h => by
    have hvalue := hequals.suffix.trans ((Gap.suffix_of_append hgap).trans htext.suffix)
    exact DerivesExpression.standsIn (beginsIn_of_cons hvalue (by decide)) hrest h

theorem DerivesArguments.standsIn {text rest : List Char} {arguments : List Argument}
    (htext : BeginsIn source text) :
    DerivesArguments text arguments rest →
      ∀ m ∈ Expression.argumentMentions arguments, m.StandsIn source
  | .none _, _, hm => by cases hm
  | .some hfirst hothers, m, hm => by
    have hafter := hothers.endsArgument.delimited.stops_isNamePart
    rw [Expression.argumentMentions, List.mem_append] at hm
    obtain hm | hm := hm
    · exact DerivesArgument.standsIn htext hafter hfirst m hm
    · exact DerivesMoreArguments.standsIn (hfirst.suffix.trans htext.suffix) hothers m hm

theorem DerivesMoreArguments.standsIn {text rest : List Char} {arguments : List Argument}
    (htext : text <:+ source) :
    DerivesMoreArguments text arguments rest →
      ∀ m ∈ Expression.argumentMentions arguments, m.StandsIn source
  | .none _, _, hm => by cases hm
  | .some hcomma hfirst hothers, m, hm => by
    have hafter := hothers.endsArgument.delimited.stops_isNamePart
    have hnext := hcomma.suffix.trans htext
    rw [Expression.argumentMentions, List.mem_append] at hm
    obtain hm | hm := hm
    · exact DerivesArgument.standsIn (beginsIn_of_cons hnext (by decide)) hafter hfirst m hm
    · refine DerivesMoreArguments.standsIn ?_ hothers m hm
      exact hfirst.suffix.trans ((List.suffix_cons _ _).trans hnext)

end

theorem DerivesStatement.standsIn {s : Statement} (htext : BeginsIn source text)
    (hrest : Stops isNamePart rest) (h : DerivesStatement text s rest) :
    ∀ m ∈ s.expression.mentions, m.StandsIn source := by
  cases h with
  | returned hreturn h =>
    -- The word `return` is in front, but no word goes on behind it.
    refine h.standsIn (beginsIn_of_stops ?_ hreturn.2) hrest
    exact (hreturn.1 ▸ List.suffix_append _ _).trans htext.suffix
  | plain _ h => exact h.standsIn htext hrest

theorem EndsStatement.beginsIn (h : EndsStatement text rest) (htext : text <:+ source) :
    BeginsIn source rest := by
  have hsuffix : rest <:+ text := by
    rw [← h.skipToStatementEnd_eq]
    exact skipToStatementEnd_suffix text
  refine beginsIn_of_stops (hsuffix.trans htext) ?_
  rcases rest with _ | ⟨c, next⟩
  · exact stops_nil _
  · obtain ⟨_, _, heq, hc⟩ := h.exists_cons_of_ne_nil (List.cons_ne_nil c next)
    obtain ⟨rfl, -⟩ := List.cons.inj heq
    rw [stops_cons]
    obtain rfl | rfl := hc <;> decide

/-- **The words of a program stand in its text.** -/
theorem DerivesProgram.standsIn {statements : List Statement} (h : DerivesProgram text statements)
    (htext : BeginsIn source text) :
    ∀ s ∈ statements, ∀ m ∈ s.expression.mentions, m.StandsIn source := by
  induction h with
  | empty => exact nofun
  | statement hseparators _ hstatement hend _ ih =>
    have hstart := Filler.beginsIn hseparators (fun _ ↦ isNamePart_of_isSeparator) htext
    have hafter := hstatement.suffix.trans hstart.suffix
    refine List.forall_mem_cons.mpr ⟨?_, ih (hend.beginsIn hafter)⟩
    exact hstatement.standsIn hstart hend.delimited.stops_isNamePart

end Language

end MapQuery
