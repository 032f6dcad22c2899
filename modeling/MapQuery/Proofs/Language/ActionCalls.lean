import MapQuery.Proofs.Language.Binding
import MapQuery.Proofs.Language.Recording

/-!
# Which calls make the actions of a program

Every call of an action in an accepted text makes exactly one action, wherever it stands: as a
statement, or as an argument of another call. An action has no value, and no parameter takes that,
so one would expect that an action in an argument is always refused. It is refused exactly if it is
bound. Where an argument without keyword overwrites it, its absent value is lost and its action
stays (`Constructor.Overwrites`); without overwriting, only statements make actions
(`Program.actions_iff_nestedActionCalls`).
-/

namespace MapQuery

/-! ## Calls of actions -/

mutual

/-- The calls in the expression that build an action, in the order of their evaluation: those in its
arguments first, then the expression itself. -/
def Expression.actionCalls : Expression → List Expression
  | .call callee arguments place =>
    Expression.argumentActionCalls arguments ++
      if (call callee arguments place).product? = some .action then [call callee arguments place]
      else []
  | _ => []

def Expression.argumentActionCalls : List Argument → List Expression
  | [] => []
  | (_, value) :: rest => value.actionCalls ++ Expression.argumentActionCalls rest

end

/-- The calls of actions that stand in argument position. -/
def Expression.nestedActionCalls : Expression → List Expression
  | .call _ arguments _ => argumentActionCalls arguments
  | _ => []

/-- The expression is a call that produces the action from the values of its arguments. -/
def Expression.Builds : Expression → Action → Prop
  | .call callee arguments _, action => ∃ c values nested, Catalog.find? callee = some c ∧
      ArgumentsYield arguments values nested ∧ c.Produces values (.inr action)
  | _, _ => False

mutual

/-- Some call in the expression gives a parameter an argument by keyword and then, overwriting it,
another one without keyword. What values the arguments have does not matter. -/
def Expression.Overwrites : Expression → Prop
  | .call callee arguments _ =>
    (∃ c, Catalog.find? callee = some c ∧ c.Overwrites (arguments.map fun a ↦ (a.1, .none))) ∨
      Expression.ArgumentsOverwrite arguments
  | _ => False

def Expression.ArgumentsOverwrite : List Argument → Prop
  | [] => False
  | (_, value) :: rest => value.Overwrites ∨ Expression.ArgumentsOverwrite rest

end

theorem Expression.actionCalls_eq (e : Expression) :
    e.actionCalls = e.nestedActionCalls ++ if e.product? = some .action then [e] else [] := by
  cases e with
  | call callee arguments place => rw [actionCalls, nestedActionCalls]
  | _ => rfl

/-! ## Every call of an action makes one -/

mutual

/-- What an expression records is built by its calls of actions, one action by each. -/
theorem Expression.Yields.builds {value : Value} {recorded : List Action} :
    (e : Expression) → e.Yields value recorded →
      List.Forall₂ Expression.Builds e.actionCalls recorded
  | .literal _, h => by
    obtain ⟨-, rfl⟩ := yields_literal_iff.mp h
    exact List.Forall₂.nil
  | .none, h => by
    obtain ⟨-, rfl⟩ := yields_none_iff.mp h
    exact List.Forall₂.nil
  | .name word place, h => absurd h not_yields_name
  | .call callee arguments place, h => by
    obtain ⟨c, values, nested, product, hc, harguments, hproduct, -, rfl⟩ := yields_call_iff.mp h
    have hnested := ArgumentsYield.builds arguments harguments
    obtain ⟨bound, operands, -, -, hbuild⟩ := id hproduct
    rw [actionCalls, product?, hc]
    obtain ⟨hkind, layer, rfl⟩ | ⟨hkind, action, rfl, -⟩ :=
      Constructor.product_of_build (Catalog.mem_of_find? hc) hbuild
    · rw [if_neg (by simp [hkind])]
      exact List.rel_append hnested List.Forall₂.nil
    · rw [if_pos (by simp [hkind])]
      refine List.rel_append hnested (List.Forall₂.cons ?_ List.Forall₂.nil)
      exact ⟨c, values, nested, hc, harguments, hproduct⟩

theorem Expression.ArgumentsYield.builds {values : List (Option String × Value)}
    {recorded : List Action} :
    (arguments : List Argument) → ArgumentsYield arguments values recorded →
      List.Forall₂ Expression.Builds (argumentActionCalls arguments) recorded
  | [], h => by
    obtain ⟨-, rfl⟩ := argumentsYield_nil_iff.mp h
    exact List.Forall₂.nil
  | (keyword, e) :: rest, h => by
    obtain ⟨value, others, first, second, hfirst, hsecond, -, rfl⟩ := argumentsYield_cons_iff.mp h
    rw [argumentActionCalls]
    exact List.rel_append (Yields.builds e hfirst) (ArgumentsYield.builds rest hsecond)

end

theorem forall₂_builds {statements : List Statement} {results : List (Value × List Action)}
    (h : List.Forall₂ (fun s r ↦ s.expression.Yields r.1 r.2) statements results) :
    List.Forall₂ Expression.Builds (statements.flatMap (·.expression.actionCalls))
      (results.flatMap Prod.snd) := by
  induction h with
  | nil => exact List.Forall₂.nil
  | cons hfirst _ ih =>
    rw [List.flatMap_cons, List.flatMap_cons]
    exact List.rel_append (Expression.Yields.builds _ hfirst) ih

/-! ## Statements among the calls of actions -/

private theorem length_flatMap_actionCalls (statements : List Statement) :
    (statements.flatMap (·.expression.actionCalls)).length
      = (statements.flatMap (·.expression.nestedActionCalls)).length
        + (actionStatements statements).length := by
  induction statements with
  | nil => rfl
  | cons s rest ih =>
    rw [List.flatMap_cons, List.flatMap_cons, List.length_append, List.length_append, ih,
      s.expression.actionCalls_eq, List.length_append, actionStatements, actionStatements]
    by_cases h : s.expression.product? = some .action
    · rw [if_pos h, List.filter_cons_of_pos (by simpa using h), List.length_singleton,
        List.length_cons]
      omega
    · rw [if_neg h, List.filter_cons_of_neg (by simpa using h), List.length_nil]
      omega

private theorem flatMap_actionCalls_of_nested_nil {statements : List Statement}
    (h : ∀ s ∈ statements, s.expression.nestedActionCalls = []) :
    statements.flatMap (·.expression.actionCalls)
      = (actionStatements statements).map (·.expression) := by
  induction statements with
  | nil => rfl
  | cons s rest ih =>
    obtain ⟨hs, hrest⟩ := List.forall_mem_cons.mp h
    rw [List.flatMap_cons, ih hrest, s.expression.actionCalls_eq, hs, List.nil_append,
      actionStatements, actionStatements]
    by_cases haction : s.expression.product? = some .action
    · rw [if_pos haction, List.filter_cons_of_pos (by simpa using haction)]
      rfl
    · rw [if_neg haction, List.filter_cons_of_neg (by simpa using haction), List.nil_append]

/-- Each action is built by a statement of its own exactly if no call of an action stands in
argument position. -/
theorem forall₂_actionStatements_iff {statements : List Statement} {actions : List Action}
    (h : List.Forall₂ Expression.Builds (statements.flatMap (·.expression.actionCalls)) actions) :
    List.Forall₂ Expression.Builds ((actionStatements statements).map (·.expression)) actions ↔
      ∀ s ∈ statements, s.expression.nestedActionCalls = [] := by
  constructor
  · intro honly
    have hlength := length_flatMap_actionCalls statements
    have hall := h.length_eq
    have hstatements := honly.length_eq
    rw [List.length_map] at hstatements
    have hnil : statements.flatMap (·.expression.nestedActionCalls) = [] :=
      List.eq_nil_of_length_eq_zero (by omega)
    exact List.flatMap_eq_nil_iff.mp hnil
  · intro hnone
    rwa [← flatMap_actionCalls_of_nested_nil hnone]

/-! ## Without overwriting -/

section Overwriting

variable {c : Constructor} {arguments arguments' : List (Option String × Value)}

theorem Constructor.destinations_congr (h : arguments.map Prod.fst = arguments'.map Prod.fst)
    (next : ℕ) : c.destinations next arguments = c.destinations next arguments' := by
  induction arguments generalizing next arguments' with
  | nil =>
    obtain rfl := List.map_eq_nil_iff.mp h.symm
    rfl
  | cons argument rest ih =>
    obtain ⟨keyword, value⟩ := argument
    obtain ⟨⟨keyword', value'⟩, rest', rfl, hkeyword, hrest⟩ := List.map_eq_cons_iff.mp h.symm
    obtain rfl : keyword = keyword' := hkeyword.symm
    rcases keyword with _ | keyword
    · rw [destinations, destinations, ih hrest.symm]
    · rw [destinations, destinations, ih hrest.symm]

theorem Constructor.countP_congr (h : arguments.map Prod.fst = arguments'.map Prod.fst) :
    arguments.countP (·.1.isNone) = arguments'.countP (·.1.isNone) := by
  have hcount := congrArg (List.countP Option.isNone) h
  rwa [List.countP_map, List.countP_map] at hcount

theorem Constructor.Overwrites.congr (h : arguments.map Prod.fst = arguments'.map Prod.fst)
    (hoverwrites : c.Overwrites arguments) : c.Overwrites arguments' := by
  obtain ⟨before, value, after, rfl, hmem⟩ := hoverwrites
  rw [List.map_append, List.map_cons] at h
  obtain ⟨before', rest', rfl, hbefore, hrest⟩ := List.map_eq_append_iff.mp h.symm
  obtain ⟨⟨_, value'⟩, after', rfl, rfl, -⟩ := List.map_eq_cons_iff.mp hrest
  refine ⟨before', value', after', rfl, ?_⟩
  rwa [countP_congr hbefore, destinations_congr hbefore]

theorem Constructor.ne_none_of_accept {line first : ℕ} {values : List Value}
    {operands : List Operand} (h : c.accept line first values = .ok operands) :
    ∀ value ∈ values, value ≠ .none := by
  induction values generalizing first operands with
  | nil => exact nofun
  | cons value values ih =>
    obtain ⟨parameter, operand, others, -, hoperand, hrest, -⟩ := accept_cons h
    refine List.forall_mem_cons.mpr ⟨?_, ih hrest⟩
    rintro rfl
    rw [ParameterType.accept?.eq_def] at hoperand
    split at hoperand <;> simp_all

theorem Constructor.Produces.ne_none {product : Layer ⊕ Action} (h : c.Produces arguments product)
    (hnot : ¬c.Overwrites arguments) : ∀ argument ∈ arguments, argument.2 ≠ .none := by
  obtain ⟨bound, operands, hbind, haccept, -⟩ := h
  have hperm := (rearranges_of_nodup hbind ((nodup_destinations_iff hbind).mpr hnot)).perm
  intro argument hargument
  exact ne_none_of_accept haccept _ (hperm.mem_iff.mpr (List.mem_map_of_mem hargument))

end Overwriting

mutual

/-- Without overwriting, no call of an action stands in argument position. -/
theorem Expression.Yields.nestedActionCalls_eq_nil {value : Value} {recorded : List Action} :
    (e : Expression) → e.Yields value recorded → ¬e.Overwrites → e.nestedActionCalls = []
  | .literal _, _, _ => rfl
  | .none, _, _ => rfl
  | .name _ _, _, _ => rfl
  | .call callee arguments place, h, hnot => by
    obtain ⟨c, values, nested, product, hc, harguments, hproduct, -, -⟩ := yields_call_iff.mp h
    rw [Overwrites, not_or] at hnot
    have hkept : ¬c.Overwrites values := fun hoverwrites ↦ hnot.1
      ⟨c, hc, hoverwrites.congr (by rw [harguments.map_fst, List.map_map]; rfl)⟩
    -- All that is bound is accepted, and nothing without a value is.
    rw [nestedActionCalls]
    exact ArgumentsYield.argumentActionCalls_eq_nil arguments harguments hnot.2
      (hproduct.ne_none hkept)

theorem Expression.ArgumentsYield.argumentActionCalls_eq_nil
    {values : List (Option String × Value)} {recorded : List Action} :
    (arguments : List Argument) → ArgumentsYield arguments values recorded →
      ¬ArgumentsOverwrite arguments → (∀ argument ∈ values, argument.2 ≠ .none) →
      argumentActionCalls arguments = []
  | [], _, _, _ => rfl
  | (keyword, e) :: rest, h, hnot, hvalues => by
    obtain ⟨value, others, first, second, hfirst, hsecond, rfl, -⟩ := argumentsYield_cons_iff.mp h
    rw [ArgumentsOverwrite, not_or] at hnot
    obtain ⟨hvalue, hothers⟩ := List.forall_mem_cons.mp hvalues
    rw [argumentActionCalls, e.actionCalls_eq, Yields.nestedActionCalls_eq_nil e hfirst hnot.1,
      if_neg fun haction ↦ hvalue (hfirst.product.2 haction),
      ArgumentsYield.argumentActionCalls_eq_nil rest hsecond hnot.2 hothers]
    rfl

end

/-! ## Accepted texts -/

private theorem rel_head?_of_forall₂ {α β : Type} {R : α → β → Prop} {l : List α} {l' : List β}
    (h : List.Forall₂ R l l') : Option.Rel R l.head? l'.head? := by
  cases h with
  | nil => exact Option.Rel.none
  | cons hfirst _ => exact Option.Rel.some hfirst

/-- **Which calls make the actions.** Each call of an action in an accepted text makes one action,
and each statement that is a call of a layer one warning. The actions are those of the statements,
one for each that is a call of an action, exactly if no call of an action stands in argument
position; none does unless a call overwrites one of its arguments. Then the first action of the text
is that of its first statement that is a call of an action. -/
theorem Program.actions_iff_nestedActionCalls {text : String} {program : Program}
    (h : tryCompile text = .ok program) :
    ∃ statements, Language.readProgram (Text.trimStart text.toList) = .ok statements ∧
      program.warnings = (layerStatements statements).map
        (fun s ↦ .unusedLayer (Place.line (Text.trimStart text.toList) s.place)) ∧
      List.Forall₂ Expression.Builds (statements.flatMap (·.expression.actionCalls))
        program.actions ∧
      (List.Forall₂ Expression.Builds ((actionStatements statements).map (·.expression))
          program.actions ↔
        ∀ s ∈ statements, s.expression.nestedActionCalls = []) ∧
      ((∀ s ∈ statements, ¬s.expression.Overwrites) →
        ∀ s ∈ statements, s.expression.nestedActionCalls = []) ∧
      ((∀ s ∈ statements, s.expression.nestedActionCalls = []) →
        Option.Rel Expression.Builds ((actionStatements statements).map (·.expression)).head?
          (compile text).action) := by
  obtain ⟨-, statements, lines, hread, hrun, hwarnings⟩ := compileSource_eq_ok_iff.mp h
  obtain ⟨results, hresults, hactions, rfl⟩ := run_evaluateStatements_iff.mp hrun
  rw [List.nil_append] at hactions
  have hbuilds := forall₂_builds hresults
  rw [← hactions] at hbuilds
  have honly := forall₂_actionStatements_iff hbuilds
  have hkept : ∀ s ∈ statements, ¬s.expression.Overwrites → s.expression.nestedActionCalls = [] :=
    ((List.forall₂_and_left _ _).mp (hresults.imp fun s r hyields ↦
      ⟨Expression.Yields.nestedActionCalls_eq_nil s.expression hyields, hyields⟩)).1
  refine ⟨statements, hread, ?_, hbuilds, honly, fun hnot s hs ↦ hkept s hs (hnot s hs),
    fun hnone ↦ ?_⟩
  · rw [hwarnings, List.map_map]
    rfl
  · have hcompile : (compile text).action = program.actions.head? := by
      rw [compile, h]
      rfl
    rw [hcompile]
    exact rel_head?_of_forall₂ (honly.mpr hnone)

/-- A layer that nothing uses and two actions: one warning, and the actions of the statements. -/
theorem Program.actions_of_three_statements :
    tryCompile "get_layer('a'); count(get_layer('b')); select(layer=get_layer('c'))"
      = .ok ⟨[⟨.count, .source "b"⟩, ⟨.select, .source "c"⟩], [.unusedLayer 1]⟩ ∧
    ∃ statements, (∀ s ∈ statements, s.expression.nestedActionCalls = []) ∧
      List.Forall₂ Expression.Builds ((actionStatements statements).map (·.expression))
        [⟨.count, .source "b"⟩, ⟨.select, .source "c"⟩] ∧
      ([.unusedLayer 1] : List Warning).length = (layerStatements statements).length := by
  have h : tryCompile "get_layer('a'); count(get_layer('b')); select(layer=get_layer('c'))"
      = .ok ⟨[⟨.count, .source "b"⟩, ⟨.select, .source "c"⟩], [.unusedLayer 1]⟩ := by
    decide +kernel
  obtain ⟨statements, hread, hwarnings, -, honly, -, -⟩ := actions_iff_nestedActionCalls h
  have hnested : ((Language.readProgram (Text.trimStart
      "get_layer('a'); count(get_layer('b')); select(layer=get_layer('c'))".toList)).toOption.map
      fun statements ↦ statements.all fun s ↦ s.expression.nestedActionCalls.length = 0)
        = some true := by
    decide +kernel
  rw [hread] at hnested
  have hall := List.all_eq_true.mp (Option.some.inj hnested)
  have hnone : ∀ s ∈ statements, s.expression.nestedActionCalls = [] := by
    intro s hs
    simpa using hall s hs
  refine ⟨h, statements, hnone, honly.mpr hnone, ?_⟩
  have hlength := congrArg List.length hwarnings
  rwa [List.length_map] at hlength

/-- A nested action that is overwritten stays in the program: `compile` executes it, though the only
statement is a call of another action. -/
theorem Program.nested_action_executed :
    tryCompile "count(layer=select(get_layer('a')), get_layer('b'))"
      = .ok ⟨[⟨.select, .source "a"⟩, ⟨.count, .source "b"⟩], []⟩ ∧
    (compile "count(layer=select(get_layer('a')), get_layer('b'))").action
      = some ⟨.select, .source "a"⟩ ∧
    (Language.readProgram "count(layer=select(get_layer('a')), get_layer('b'))".toList).map
      (fun statements ↦ (actionStatements statements).map fun s ↦
        match s.expression with
        | .call callee _ _ => callee
        | _ => "") = .ok ["count"] := by
  refine ⟨?_, ?_, ?_⟩
  · decide +kernel
  · decide +kernel
  · decide +kernel

end MapQuery
