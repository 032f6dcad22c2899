import Mathlib.Data.List.DropRight
import MapQuery.Proofs.Language.Mentions

/-!
# What an error says about the text

An error tells where the text is wrong, and it is right about that (`tryCompile_pointsInto`). If the
form is wrong, then line and column are those of an end of the text, whose first characters are the
ones that the message shows. If a word is wrong, then it stands on the line that is given, as a
whole word, and it is called or not called as the error has it.

Line and column are read off the place of the error, which is the length of what remains from there
on. So they are right because that is an end of the text (`Place.before_append`), and for words
because it was derived from one (`DerivesProgram.standsIn`).
-/

namespace MapQuery

open MapQuery.Language

/-! ## Lines and columns -/

/-- What stands in front ends on the line, so many line ends behind the first one. -/
def OnLine (before : List Char) (line : ℕ) : Prop := line = 1 + before.count '\n'

/-- What stands in front ends at the column, so many characters behind its last line end. -/
def AtColumn (before : List Char) (column : ℕ) : Prop :=
  ∃ earlier current, before = earlier ++ current ∧ (∀ c ∈ earlier.getLast?, c = '\n') ∧
    '\n' ∉ current ∧ column = 1 + current.length

theorem Place.onLine (before rest : List Char) :
    OnLine before (line (before ++ rest) rest.length) := by
  rw [OnLine, line, before_append, Nat.add_comm]

private theorem getLast?_rdropWhile {kind : Char → Bool} {text : List Char} :
    ∀ c ∈ (text.rdropWhile kind).getLast?, kind c = false := by
  intro c hc
  obtain ⟨hne, rfl⟩ := List.mem_getLast?_eq_getLast hc
  exact Bool.eq_false_iff.mpr (List.rdropWhile_last_not kind text hne)

private theorem Place.atColumn (before rest : List Char) :
    AtColumn before (column (before ++ rest) rest.length) := by
  refine ⟨before.rdropWhile (· != '\n'), before.rtakeWhile (· != '\n'),
    (List.rdropWhile_append_rtakeWhile ..).symm, fun c hc ↦ ?_, fun hline ↦ ?_, ?_⟩
  · simpa using getLast?_rdropWhile c hc
  · exact absurd (List.mem_rtakeWhile_imp hline) (by decide)
  · rw [column, before_append, List.rtakeWhile, List.length_reverse, Nat.add_comm]

/-! ## Shown text -/

/-- What is shown is the text from here on, 24 characters at most, without blanks at its end. -/
def Shows (shown : String) (rest : List Char) : Prop :=
  ∃ blanks, rest.take 24 = shown.toList ++ blanks ∧ (∀ c ∈ blanks, Text.isBlank c = true) ∧
    ∀ c ∈ shown.toList.getLast?, Text.isBlank c = false

private theorem shows_nearText (rest : List Char) : Shows (nearText rest) rest := by
  have htrim : (nearText rest).toList = (rest.take 24).rdropWhile Text.isBlank := by
    rw [nearText, String.toList_ofList]
    rfl
  refine ⟨(rest.take 24).rtakeWhile Text.isBlank, ?_, fun c ↦ List.mem_rtakeWhile_imp, ?_⟩
  · rw [htrim, List.rdropWhile_append_rtakeWhile]
  · rw [htrim]
    exact getLast?_rdropWhile

/-- The message about the form of a text, as far as it shows nothing of it. -/
def SyntaxProblem.messageAt (problem : SyntaxProblem) (line column : ℕ) : String :=
  let wording := problem.message
  s!"syntax error on line {line}, column {column}: {wording}"

private theorem CompileError.message_malformed (line column : ℕ) (problem : SyntaxProblem)
    (near : String) :
    (malformed line column problem near).message
      = problem.messageAt line column ++ if near = "" then "" else s!" near `{near}`" :=
  String.append_assoc.symm

/-- Only the text that was kept for it is shown by a message. -/
theorem CompileError.eq_of_message_malformed {line column : ℕ} {problem : SyntaxProblem}
    {near shown : String}
    (h : (malformed line column problem near).message
      = problem.messageAt line column ++ s!" near `{shown}`") : shown = near := by
  rw [message_malformed, String.append_right_inj] at h
  split at h
  · have hlist := congrArg String.toList h
    simp only [String.toList_append] at hlist
    cases hlist
  · exact (String.append_right_inj _).mp ((String.append_left_inj _).mp h.symm)

/-! ## Errors -/

/-- The text calls the word on the line. -/
def IsCalledOn (source : List Char) (line : ℕ) (callee : String) : Prop :=
  ∃ before after, IsWordBetween source before callee after ∧ OnLine before line ∧
    ∃ inside, Gap after ('(' :: inside)

/-- What the error says about the text is true. -/
def CompileError.PointsInto (source : List Char) : CompileError → Prop
  | malformed line column problem near =>
    ∃ before rest, source = before ++ rest ∧ OnLine before line ∧ AtColumn before column ∧
      Shows near rest ∧ ∀ shown, (malformed line column problem near).message
        = problem.messageAt line column ++ s!" near `{shown}`" → Shows shown rest
  | unknownName line name =>
    ∃ before after, IsWordBetween source before name after ∧ OnLine before line ∧
      ((∀ c ∈ Catalog.constructors, c.name ≠ name) ∨ ∀ inside, ¬Gap after ('(' :: inside))
  | arguments line callee _ | type line callee _ _ _ =>
    (∃ c ∈ Catalog.constructors, c.name = callee) ∧ IsCalledOn source line callee

private theorem CompileError.ofFault_pointsInto {source : List Char} {fault : SyntaxFault}
    (h : fault.2 <:+ source) : (ofFault source fault).PointsInto source := by
  obtain ⟨before, rfl⟩ := h
  refine ⟨before, fault.2, rfl, Place.onLine before fault.2, Place.atColumn before fault.2,
    shows_nearText fault.2, fun shown hshown ↦ ?_⟩
  rw [eq_of_message_malformed hshown]
  exact shows_nearText fault.2

private theorem Catalog.find?_eq_none_iff {name : String} :
    find? name = none ↔ ∀ c ∈ constructors, c.name ≠ name := by
  simp [find?]

private theorem Catalog.isSome_find?_iff {name : String} :
    (find? name).isSome ↔ ∃ c ∈ constructors, c.name = name := by
  simp [find?]

/-- An error that blames a word points at it if the word stands in the text. -/
theorem Mention.Blamed.pointsInto {source : List Char} {m : Mention} {error : CompileError}
    (h : m.Blamed (Place.line source) error) (hm : m.StandsIn source) :
    error.PointsInto source := by
  obtain ⟨before, after, hword, hplace, hcalled⟩ := hm
  have hline : OnLine before (Place.line source m.place) := by
    rw [hplace, hword.split]
    exact Place.onLine before _
  cases h with
  | name hnot =>
    refine ⟨before, after, hword, hline, Or.inr fun inside hopen ↦ ?_⟩
    rw [hcalled.mpr ⟨inside, hopen⟩] at hnot
    cases hnot
  | callee hnone => exact ⟨before, after, hword, hline, Or.inl (Catalog.find?_eq_none_iff.mp hnone)⟩
  | arguments hcall hsome =>
    exact ⟨Catalog.isSome_find?_iff.mp hsome, before, after, hword, hline, hcalled.mp hcall⟩
  | type hcall hsome =>
    exact ⟨Catalog.isSome_find?_iff.mp hsome, before, after, hword, hline, hcalled.mp hcall⟩

/-- **Errors point into the text.** The text for which an error gives lines and columns is the one
without the blanks in front of it. -/
theorem tryCompile_pointsInto {text : String} {error : CompileError}
    (h : tryCompile text = .error error) :
    error.PointsInto (Text.trimStart text.toList) := by
  rw [tryCompile] at h
  obtain ⟨fault, rfl, hcheck | hread⟩ | ⟨statements, hread, s, hs, m, hm, hblamed⟩ :=
    compileSource_eq_error h
  · exact CompileError.ofFault_pointsInto (suffix_of_checkNesting hcheck)
  · exact CompileError.ofFault_pointsInto (suffix_of_readProgram hread)
  · have hderives := (readProgram_eq_ok_iff _ _).mp hread
    exact hblamed.pointsInto (hderives.standsIn (beginsIn_self _) s hs m hm)

/-- A text with a comment in front of what is wrong on its second line, and one in which the name of
a call is not called. -/
theorem tryCompile_pointsInto_second_line :
    tryCompile " count(get_layer('a')) # all\n  ?? stop "
      = .error (.malformed 2 3 .invalid "?? stop") ∧
    (CompileError.malformed 2 3 .invalid "?? stop").PointsInto
      (Text.trimStart " count(get_layer('a')) # all\n  ?? stop ".toList) ∧
    tryCompile "count(layer=get_layer('a'))\nselect(# which\n get_layer)"
      = .error (.unknownName 3 "get_layer") ∧
    (CompileError.unknownName 3 "get_layer").PointsInto
      (Text.trimStart "count(layer=get_layer('a'))\nselect(# which\n get_layer)".toList) := by
  have hform : tryCompile " count(get_layer('a')) # all\n  ?? stop "
      = .error (.malformed 2 3 .invalid "?? stop") := by
    decide +kernel
  have hname : tryCompile "count(layer=get_layer('a'))\nselect(# which\n get_layer)"
      = .error (.unknownName 3 "get_layer") := by
    decide +kernel
  exact ⟨hform, tryCompile_pointsInto hform, hname, tryCompile_pointsInto hname⟩

end MapQuery
