import MapQuery.Proofs.Action.RoundTrip
import MapQuery.Proofs.Language.Extent

/-!
# Compiled actions, written and compiled again

An action that comes out of a text is compiled to itself again exactly when it nests within the
limit and has finite numbers only. Texts can build actions for which this fails. A number that is
too large for a float is read as infinite, and no number in a text is written as an infinite one is.
A union of many layers is one call, while its written form has a call for every two of them. And
calls that are too deep are let through where comments mislead the count of parentheses. There are
no other ways: where the numbers of the text are finite and no statement spans more levels than the
limit, every action is compiled to itself.
-/

namespace MapQuery

open MapQuery.Language Text

namespace Action

/-- An action is compiled to itself exactly if it is within the limit. -/
theorem compileSource_written_iff (action : Action) :
    compileSource action.written = .ok ⟨[action], []⟩ ↔ action.Within maxNesting := by
  constructor
  · intro h
    by_contra hnot
    obtain ⟨error, herror⟩ := action.exists_error_compileSource_written hnot
    rw [h] at herror
    cases herror
  · rintro ⟨hnesting, hfinite⟩
    exact action.compileSource_written hnesting hfinite

end Action

/-- The actions of a text are within the limit if its statements are. -/
theorem Program.within_of_tryCompile {text : String} {program : Program}
    (h : tryCompile text = .ok program) : ∃ statements,
      readProgram (trimStart text.toList) = .ok statements ∧
      ∀ limit, (∀ s ∈ statements, s.expression.span ≤ limit ∧ s.expression.isFinite = true) →
        ∀ action ∈ program.actions, action.Within limit := by
  obtain ⟨-, statements, lines, hread, hrun, -⟩ := compileSource_eq_ok_iff.mp h
  refine ⟨statements, hread, fun limit hspan ↦ ?_⟩
  exact within_of_evaluateStatements hspan hrun (by simp)

/-- **Which compiled actions compile to themselves.** Exactly those that nest within the limit when
they are written, and whose numbers are finite. All actions of a text do if its numbers are finite
and its statements span no more levels than the limit. -/
theorem Program.recompiles_iff {text : String} {program : Program}
    (h : tryCompile text = .ok program) :
    (∀ action ∈ program.actions, tryCompile (toString action) = .ok ⟨[action], []⟩ ↔
      action.layer.height + 1 ≤ maxNesting ∧ action.layer.isFinite = true) ∧
    ∃ statements, readProgram (trimStart text.toList) = .ok statements ∧
      ((∀ s ∈ statements, s.expression.span ≤ maxNesting ∧ s.expression.isFinite = true) →
        ∀ action ∈ program.actions, tryCompile (toString action) = .ok ⟨[action], []⟩) := by
  constructor
  · intro action _
    rw [action.tryCompile_toString]
    exact action.compileSource_written_iff
  · obtain ⟨statements, hread, hwithin⟩ := within_of_tryCompile h
    refine ⟨statements, hread, fun hspan action haction ↦ ?_⟩
    rw [action.tryCompile_toString]
    exact action.compileSource_written_iff.mpr (hwithin maxNesting hspan action haction)

/-- A union of three layers, grouped to the right. -/
def unionOfThree : Action :=
  ⟨.select, .combined .union (.source "a") (.combined .union (.source "b") (.source "c"))⟩

/-- Three layers in one call of `union` are written as two calls, far below the limit. -/
theorem Program.union_recompiles :
    tryCompile "select(union(get_layer('a'), get_layer('b'), get_layer('c')))"
      = .ok ⟨[unionOfThree], []⟩ ∧
    tryCompile (toString unionOfThree) = .ok ⟨[unionOfThree], []⟩ := by
  have h : tryCompile "select(union(get_layer('a'), get_layer('b'), get_layer('c')))"
      = .ok ⟨[unionOfThree], []⟩ := by decide +kernel
  obtain ⟨statements, hread, hrecompiles⟩ := (recompiles_iff h).2
  have hwithin : ((readProgram (trimStart
      "select(union(get_layer('a'), get_layer('b'), get_layer('c')))".toList)).toOption.map
      fun statements ↦ statements.all fun s ↦
        decide (s.expression.span ≤ maxNesting) && s.expression.isFinite) = some true := by
    decide +kernel
  rw [hread] at hwithin
  have hall := List.all_eq_true.mp (Option.some.inj hwithin)
  have hspan : ∀ s ∈ statements, s.expression.span ≤ maxNesting ∧ s.expression.isFinite = true := by
    intro s hs
    simpa using hall s hs
  exact ⟨h, hrecompiles hspan unionOfThree List.mem_cons_self⟩

theorem Program.exists_not_recompiles {source : List Char} {levels : ℕ}
    (h : (compileSource (trimStart source)).toOption.map
      (fun program ↦ program.actions.map (·.layer.height)) = some [levels])
    (hlevels : maxNesting ≤ levels) :
    ∃ program, tryCompile (String.ofList source) = .ok program ∧
      ∃ action ∈ program.actions, tryCompile (toString action) ≠ .ok ⟨[action], []⟩ := by
  rw [tryCompile, String.toList_ofList]
  rcases htry : compileSource (trimStart source) with error | program
  · rw [htry] at h
    cases h
  · rw [htry] at h
    obtain ⟨action, hactions, hheight⟩ := List.map_eq_singleton_iff.mp (Option.some.inj h)
    refine ⟨program, rfl, action, by rw [hactions]; exact List.mem_cons_self, fun hsame ↦ ?_⟩
    rw [action.tryCompile_toString, action.compileSource_written_iff] at hsame
    have hnesting := hsame.1
    omega

/-- A union of sixty-four layers, in one call. -/
def wideUnion : List Char :=
  "count(union(".toList ++ (List.replicate 64 "get_layer('a'),".toList).flatten ++ "))".toList

/-- A distance that is too large for a float, and a union of many layers: both are accepted, and
what they are compiled to is not compiled to itself. -/
theorem Program.not_recompiles :
    (∃ program, tryCompile "count(buffer(get_layer('a'), 1e400))" = .ok program ∧
      ∃ action ∈ program.actions, tryCompile (toString action) ≠ .ok ⟨[action], []⟩) ∧
    ∃ program, tryCompile (String.ofList wideUnion) = .ok program ∧
      ∃ action ∈ program.actions, tryCompile (toString action) ≠ .ok ⟨[action], []⟩ := by
  constructor
  · refine ⟨⟨[⟨.count, .buffered (.source "a") (1 / 0)⟩], []⟩, ?_,
      ⟨.count, .buffered (.source "a") (1 / 0)⟩, List.mem_cons_self, ?_⟩
    · decide +kernel
    · decide +kernel
  · have hheights : (compileSource (trimStart wideUnion)).toOption.map
        (fun program ↦ program.actions.map (·.layer.height)) = some [64] := by decide +kernel
    exact exists_not_recompiles hheights (le_refl 64)

end MapQuery
