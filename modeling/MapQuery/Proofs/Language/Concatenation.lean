import MapQuery.Proofs.Language.Locality
import MapQuery.Proofs.Language.Recording

/-!
# Two texts in one

A text that is put behind another one, on a new line, is compiled as if it stood alone: the actions
of both follow each other, and so do the warnings (`Program.tryCompile_append`). What the statements
say does not depend on their places (`Expression.Yields.shift`), so it only remains to compare the
lines. Those of the first text stay what they are, since places count from the end of the text;
those of the second one lie further down by the line ends that now stand in front of it.

Only the count of open parentheses goes on from one text to the other, because it takes
comments for code. It has to accept the two texts as one.
-/

namespace MapQuery

open MapQuery.Language

/-! ## Lines -/

theorem Place.line_append (source more : List Char) (remaining : ℕ) :
    line (source ++ more) (remaining + more.length) = line source remaining := by
  have hlength : (source ++ more).length - (remaining + more.length)
      = source.length - remaining := by
    rw [List.length_append]
    omega
  rw [line, line, before, before, hlength, List.take_append_of_le_length (Nat.sub_le _ _)]

/-- The lines of the text behind lie further down by the line ends in front of it. -/
theorem Place.line_append_left (front : List Char) {source : List Char} {remaining : ℕ}
    (h : remaining ≤ source.length) :
    line (front ++ source) remaining = line source remaining + front.count '\n' := by
  have hlength : (front ++ source).length - remaining
      = front.length + (source.length - remaining) := by
    rw [List.length_append]
    omega
  rw [line, line, before, before, hlength, List.take_length_add_append, List.count_append]
  omega

theorem Place.before_append (front source : List Char) :
    before (front ++ source) source.length = front := by
  rw [before, List.length_append, Nat.add_sub_cancel, List.take_left]

/-- The warning about a place that lies so many lines further down. -/
def Warning.moveDown (n : ℕ) : Warning → Warning
  | unusedLayer line => unusedLayer (line + n)
  | warning => warning

private theorem Warning.moveDown_zero (warning : Warning) : warning.moveDown 0 = warning := by
  cases warning <;> rfl

theorem Language.DerivesProgram.place_le {text : List Char} {statements : List Statement}
    (h : DerivesProgram text statements) : ∀ s ∈ statements, s.place ≤ text.length := by
  induction h with
  | empty => exact nofun
  | @statement text start after rest s statements hseparators hstart hstatement hend _ ih =>
    have hfirst : start.length ≤ text.length := Filler.length_le hseparators
    have hread := covers_of_readStatement (hstatement.readStatement_eq hend.delimited)
    have hafter := (covers_skipToStatementEnd after).length_le
    rw [hend.skipToStatementEnd_eq] at hafter
    refine List.forall_mem_cons.mpr ⟨?_, ?_⟩
    · have hplace : s.place = start.length := by
        cases hstatement <;> rfl
      rwa [hplace]
    · intro s hs
      have hlater := ih s hs
      have hlength := hread.length_le
      omega

/-! ## Moved expressions -/

mutual

/-- **Where an expression stands** has no influence on what it yields and records. -/
theorem Expression.Yields.shift {value : Value} {recorded : List Action} (n : ℕ) :
    (e : Expression) → e.Yields value recorded → (e.shift n).Yields value recorded
  | .literal _, h => h
  | .none, h => h
  | .name _ _, h => absurd h not_yields_name
  | .call _ arguments _, h => by
    obtain ⟨c, values, nested, product, hc, harguments, hproduct, hvalue, hrecorded⟩ :=
      yields_call_iff.mp h
    exact yields_call_iff.mpr ⟨c, values, nested, product, hc,
      ArgumentsYield.shift n arguments harguments, hproduct, hvalue, hrecorded⟩

theorem Expression.ArgumentsYield.shift {values : List (Option String × Value)}
    {recorded : List Action} (n : ℕ) :
    (arguments : List Argument) → ArgumentsYield arguments values recorded →
      ArgumentsYield (shiftArguments n arguments) values recorded
  | [], h => h
  | (_, e) :: rest, h => by
    obtain ⟨value, others, first, second, hfirst, hsecond, hvalues, hrecorded⟩ :=
      argumentsYield_cons_iff.mp h
    exact argumentsYield_cons_iff.mpr ⟨value, others, first, second, Yields.shift n e hfirst,
      ArgumentsYield.shift n rest hsecond, hvalues, hrecorded⟩

end

private theorem Expression.product?_shift (e : Expression) (n : ℕ) :
    (e.shift n).product? = e.product? := by
  cases e <;> rfl

private theorem layerStatements_append (statements others : List Statement) :
    layerStatements (statements ++ others)
      = layerStatements statements ++ layerStatements others :=
  List.filter_append ..

private theorem layerStatements_map_shift (statements : List Statement) (n : ℕ) :
    layerStatements (statements.map (·.shift n))
      = (layerStatements statements).map (·.shift n) := by
  rw [layerStatements, layerStatements, List.filter_map]
  refine congrArg _ (List.filter_congr fun s _ ↦ ?_)
  simp only [Function.comp_apply, Statement.shift, Expression.product?_shift]

/-! ## Programs -/

theorem compileSource_eq_ok_iff_derives {source : List Char} {program : Program} :
    compileSource source = .ok program ↔
      checkNesting source = .ok () ∧
      ∃ (statements : List Statement) (results : List (Value × List Action)),
        DerivesProgram source statements ∧
        List.Forall₂ (fun s r ↦ s.expression.Yields r.1 r.2) statements results ∧
        program.actions = results.flatMap Prod.snd ∧
        program.warnings = (layerStatements statements).map
          fun s ↦ .unusedLayer (Place.line source s.place) := by
  have hbound : (skipSeparators source).length < source.length + 1 :=
    Nat.lt_succ_of_le (covers_skipSeparators source).length_le
  rw [compileSource_eq_ok_iff]
  refine and_congr_right fun _ ↦ ?_
  constructor
  · rintro ⟨statements, lines, hread, hrun, hwarnings⟩
    obtain ⟨results, hresults, hactions, rfl⟩ := run_evaluateStatements_iff.mp hrun
    refine ⟨statements, results, derivesProgram_of_readStatements hbound hread, hresults,
      hactions, ?_⟩
    rw [hwarnings, List.map_map]
    rfl
  · rintro ⟨statements, results, hderives, hresults, hactions, hwarnings⟩
    refine ⟨statements, _, hderives.readStatements_eq hbound,
      run_evaluateStatements_iff.mpr ⟨results, hresults, hactions, rfl⟩, ?_⟩
    rw [hwarnings, List.map_map]
    rfl

theorem separators_trimStart (text : List Char) : Separators text (Text.trimStart text) := by
  induction text with
  | nil => exact .nothing []
  | cons c text ih =>
    rw [Text.trimStart, List.dropWhile_cons]
    split
    · rename_i hc
      exact .space (by rw [isSeparator, hc, Bool.true_or]) ih
    · exact .nothing _

/-- Blanks in front of two texts are those of the first one, unless it is all blank. -/
theorem trimStart_append_line (first second : List Char) :
    Text.trimStart (first ++ '\n' :: second) =
      if Text.trimStart first = [] then Text.trimStart second
      else Text.trimStart first ++ '\n' :: second := by
  rw [Text.trimStart, Text.trimStart, List.dropWhile_append]
  simp only [List.isEmpty_iff]
  rfl

/-- **Two texts in one**: if the count of parentheses accepts them together, the second one is
compiled behind the first as it is alone, with its lines moved down. -/
theorem compileSource_append {first second : List Char} {p q : Program}
    (hp : compileSource first = .ok p) (hq : compileSource (Text.trimStart second) = .ok q)
    (hnesting : checkNesting (first ++ '\n' :: second) = .ok ()) :
    compileSource (first ++ '\n' :: second) = .ok ⟨p.actions ++ q.actions,
      p.warnings ++ q.warnings.map (·.moveDown
        ((Place.before (first ++ '\n' :: second) (Text.trimStart second).length).count '\n'))⟩ := by
  obtain ⟨-, statements, results, hderives, hresults, hactions, hwarnings⟩ :=
    compileSource_eq_ok_iff_derives.mp hp
  obtain ⟨-, statements', results', hderives', hresults', hactions', hwarnings'⟩ :=
    compileSource_eq_ok_iff_derives.mp hq
  have hbehind : DerivesProgram ('\n' :: second) statements' :=
    hderives'.of_separators (.space (by decide) (separators_trimStart second))
  have hboth := hderives.append (hbehind.newLine (Or.inr ⟨second, rfl⟩)) hbehind
  refine compileSource_eq_ok_iff_derives.mpr
    ⟨hnesting, _, results ++ results', hboth, ?_, ?_, ?_⟩
  · refine List.rel_append (List.forall₂_map_left_iff.mpr (hresults.imp fun s r hyields ↦ ?_))
      hresults'
    exact Expression.Yields.shift _ s.expression hyields
  · rw [hactions, hactions', List.flatMap_append]
  · rw [hwarnings, hwarnings', layerStatements_append, layerStatements_map_shift, List.map_append,
      List.map_map, List.map_map]
    -- The second text begins behind what stands in front of it, its own blanks included.
    have hsplit : first ++ '\n' :: second
        = (first ++ '\n' :: second.takeWhile Text.isBlank) ++ Text.trimStart second := by
      rw [List.append_assoc, List.cons_append, Text.trimStart, List.takeWhile_append_dropWhile]
    refine congrArg₂ _ (List.map_congr_left fun s _ ↦ ?_) (List.map_congr_left fun s hs ↦ ?_)
    · rw [Function.comp_apply, Statement.shift, Place.line_append]
    · have hplace := hderives'.place_le s (List.mem_of_mem_filter hs)
      rw [Function.comp_apply, Warning.moveDown, hsplit, Place.before_append,
        Place.line_append_left _ hplace]

/-- **Compiling two texts in one**, with a line end between them. If both are accepted, and the
count of parentheses accepts them together, then so are they together. The actions are those of the
first text and then those of the second one, and so are the warnings, where the lines of the second
text lie further down by the line ends in front of its first character that is not blank. There are
none if the first text is blank. -/
theorem Program.tryCompile_append {first second : String} {p q : Program}
    (hp : tryCompile first = .ok p) (hq : tryCompile second = .ok q)
    (hnesting : checkNesting (Text.trimStart (first ++ "\n" ++ second).toList) = .ok ()) :
    let source := Text.trimStart (first ++ "\n" ++ second).toList
    let start := Text.trimStart second.toList
    let lineEnds := (Place.before source start.length).count '\n'
    tryCompile (first ++ "\n" ++ second)
        = .ok ⟨p.actions ++ q.actions, p.warnings ++ q.warnings.map (·.moveDown lineEnds)⟩ ∧
      (Text.trimStart first.toList = [] → lineEnds = 0) := by
  intro source start lineEnds
  have hsource : source = if Text.trimStart first.toList = [] then start
      else Text.trimStart first.toList ++ '\n' :: second.toList := by
    rw [← trimStart_append_line]
    simp [source]
  have hcompile : tryCompile (first ++ "\n" ++ second) = compileSource source := rfl
  by_cases hblank : Text.trimStart first.toList = []
  · -- There is nothing in front of the second text.
    rw [if_pos hblank] at hsource
    have hnone : lineEnds = 0 := by
      rw [show lineEnds = (Place.before source start.length).count '\n' from rfl, hsource]
      exact congrArg (List.count '\n') (Place.before_append [] start)
    rw [tryCompile, hblank] at hp
    obtain rfl : (⟨[], []⟩ : Program) = p := Except.ok.inj hp
    refine ⟨?_, fun _ ↦ hnone⟩
    rw [hcompile, hsource, hnone, List.map_congr_left fun w _ ↦ w.moveDown_zero, List.map_id']
    exact hq
  · rw [if_neg hblank] at hsource
    refine ⟨?_, fun h ↦ absurd h hblank⟩
    rw [show lineEnds = (Place.before source start.length).count '\n' from rfl, hcompile, hsource]
    exact compileSource_append hp hq (by rwa [← hsource])

/-- The warnings of the second text move down by three lines: the comment has one of its own, the
texts are joined by a line end, and the second text begins with one. -/
theorem Program.tryCompile_append_commented :
    let first := " get_layer('a')\n# all buildings"
    let second := "\n get_layer('b'); count(get_layer('c'))\nget_layer('d')"
    checkNesting (Text.trimStart (first ++ "\n" ++ second).toList) = .ok () ∧
      tryCompile first = .ok ⟨[], [.unusedLayer 1]⟩ ∧
      tryCompile second = .ok ⟨[⟨.count, .source "c"⟩], [.unusedLayer 1, .unusedLayer 2]⟩ ∧
      tryCompile (first ++ "\n" ++ second) = .ok ⟨[⟨.count, .source "c"⟩],
        [.unusedLayer 1, .unusedLayer 4, .unusedLayer 5]⟩ := by
  intro first second
  have hnesting : checkNesting (Text.trimStart (first ++ "\n" ++ second).toList) = .ok () := by
    decide +kernel
  have hfirst : tryCompile first = .ok ⟨[], [.unusedLayer 1]⟩ := by decide +kernel
  have hsecond : tryCompile second
      = .ok ⟨[⟨.count, .source "c"⟩], [.unusedLayer 1, .unusedLayer 2]⟩ := by decide +kernel
  refine ⟨hnesting, hfirst, hsecond, ?_⟩
  obtain ⟨hboth, -⟩ := Program.tryCompile_append hfirst hsecond hnesting
  rw [hboth]
  decide +kernel

end MapQuery
