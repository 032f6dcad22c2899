import Mathlib.Data.List.Forall2
import MapQuery.Language.Compilation
import MapQuery.Proofs.Language.Building

/-!
# What an evaluation yields and records

The value of an expression, and the actions that its evaluation records, depend on neither the
lines of the text nor the actions that were recorded before (`Expression.Yields`). A call yields
what its constructor produces from the values of its arguments, and records an action, if it
produces one, behind those of its arguments (`Expression.yields_call_iff`).
-/

namespace MapQuery

/-! ## Computations with a result -/

section Result

variable {α β : Type} {actions : List Action}

theorem run_bind_eq_ok {x : Evaluation α} {f : α → Evaluation β} {result : β × List Action}
    (h : (x >>= f).run actions = .ok result) :
    ∃ a recorded, x.run actions = .ok (a, recorded) ∧ (f a).run recorded = .ok result := by
  rw [StateT.run_bind] at h
  cases hx : x.run actions with
  | error error =>
    rw [hx] at h
    cases h
  | ok first =>
    rw [hx] at h
    exact ⟨first.1, first.2, rfl, h⟩

theorem run_bind_of_eq_ok {x : Evaluation α} {a : α} {recorded : List Action}
    (h : x.run actions = .ok (a, recorded)) (f : α → Evaluation β) :
    (x >>= f).run actions = (f a).run recorded := by
  rw [StateT.run_bind, h]
  rfl

theorem run_liftM_bind_eq_ok {x : Except CompileError α} {f : α → Evaluation β}
    {result : β × List Action} (h : ((liftM x : Evaluation α) >>= f).run actions = .ok result) :
    ∃ a, x = .ok a ∧ (f a).run actions = .ok result := by
  obtain ⟨a, recorded, hx, hf⟩ := run_bind_eq_ok h
  rcases x with error | a'
  · cases hx
  · cases hx
    exact ⟨a, rfl, hf⟩

theorem eq_ok_of_onLine {c : Constructor} {line : ℕ} {result : Except ArgumentProblem α} {a : α}
    (h : c.onLine line result = .ok a) : result = .ok a := by
  rcases result with problem | a'
  · cases h
  · exact congrArg Except.ok (Except.ok.inj h)

theorem run_liftM_bind_of_eq_ok {x : Except CompileError α} {a : α} (h : x = .ok a)
    (f : α → Evaluation β) (actions : List Action) :
    ((liftM x : Evaluation α) >>= f).run actions = (f a).run actions := by
  rw [h]
  rfl

theorem onLine_of_eq_ok {c : Constructor} {result : Except ArgumentProblem α} {a : α}
    (h : result = .ok a) (line : ℕ) : c.onLine line result = .ok a := by
  rw [h]
  rfl

end Result

/-! ## One call -/

section Call

variable {c : Constructor}

theorem Constructor.accept_cons {line first : ℕ} {value : Value} {values : List Value}
    {operands : List Operand} (h : c.accept line first (value :: values) = .ok operands) :
    ∃ parameter operand others, c.parameterAt? first = some parameter ∧
      parameter.type.accept? value = some operand ∧
      c.accept line (first + 1) values = .ok others ∧ operands = operand :: others := by
  rw [accept] at h
  split at h
  · cases h
  · rename_i parameter hparameter
    split at h
    · cases h
    · rename_i operand hoperand
      rcases hrest : c.accept line (first + 1) values with error | others
      · rw [hrest] at h
        cases h
      · rw [hrest] at h
        obtain rfl := Except.ok.inj h
        exact ⟨parameter, operand, others, hparameter, hoperand, rfl, rfl⟩

theorem Constructor.accept_line {line first : ℕ} {values : List Value} {operands : List Operand}
    (h : c.accept line first values = .ok operands) (line' : ℕ) :
    c.accept line' first values = .ok operands := by
  induction values generalizing first operands with
  | nil => exact h
  | cons value values ih =>
    obtain ⟨parameter, operand, others, hparameter, hoperand, hrest, rfl⟩ := accept_cons h
    rw [accept, hparameter]
    dsimp only
    rw [hoperand]
    dsimp only
    rw [ih hrest]
    rfl

/-- The value of a call that has built something: an action is none. -/
def valueOf : Layer ⊕ Action → Value
  | .inl layer => .layer layer
  | .inr _ => .none

/-- What a call that has built something records. -/
def recordOf : Layer ⊕ Action → List Action
  | .inl _ => []
  | .inr action => [action]

/-- The constructor builds the product from arguments with these values. -/
def Constructor.Produces (c : Constructor) (arguments : List (Option String × Value))
    (product : Layer ⊕ Action) : Prop :=
  ∃ bound operands, c.bind arguments = .ok bound ∧ c.accept 0 0 bound = .ok operands ∧
    c.build operands = .ok product

theorem Constructor.run_apply_iff {line : ℕ} {arguments : List (Option String × Value)}
    {actions final : List Action} {value : Value} :
    (c.apply line arguments).run actions = .ok (value, final) ↔
      ∃ product, c.Produces arguments product ∧ value = valueOf product ∧
        final = actions ++ recordOf product := by
  constructor
  · intro h
    rw [apply] at h
    obtain ⟨bound, hbind, h⟩ := run_liftM_bind_eq_ok h
    obtain ⟨operands, haccept, h⟩ := run_liftM_bind_eq_ok h
    obtain ⟨product, hbuild, h⟩ := run_liftM_bind_eq_ok h
    refine ⟨product, ⟨bound, operands, eq_ok_of_onLine hbind, accept_line haccept 0,
      eq_ok_of_onLine hbuild⟩, ?_⟩
    rcases product with layer | action
    · cases h
      exact ⟨rfl, (List.append_nil _).symm⟩
    · cases h
      exact ⟨rfl, rfl⟩
  · rintro ⟨product, ⟨bound, operands, hbind, haccept, hbuild⟩, rfl, rfl⟩
    rw [apply, run_liftM_bind_of_eq_ok (onLine_of_eq_ok hbind line),
      run_liftM_bind_of_eq_ok (accept_line haccept line),
      run_liftM_bind_of_eq_ok (onLine_of_eq_ok hbuild line)]
    rcases product with layer | action
    · rw [recordOf, List.append_nil]
      rfl
    · rfl

end Call

/-! ## Expressions -/

/-- The value of the expression, and the actions that its evaluation records, whatever was recorded
before. -/
def Expression.Yields (e : Expression) (value : Value) (recorded : List Action) : Prop :=
  ∀ lineAt actions, (e.evaluate lineAt).run actions = .ok (value, actions ++ recorded)

def Expression.ArgumentsYield (arguments : List Argument) (values : List (Option String × Value))
    (recorded : List Action) : Prop :=
  ∀ lineAt actions,
    (evaluateArguments lineAt arguments).run actions = .ok (values, actions ++ recorded)

section Yields

variable {e : Expression} {keyword : Option String} {rest : List Argument} {value : Value}
  {values : List (Option String × Value)} {first others : List Action}

theorem Expression.argumentsYield_cons (hvalue : e.Yields value first)
    (hrest : ArgumentsYield rest values others) :
    ArgumentsYield ((keyword, e) :: rest) ((keyword, value) :: values) (first ++ others) := by
  intro lineAt actions
  rw [evaluateArguments, run_bind_of_eq_ok (hvalue lineAt actions),
    run_bind_of_eq_ok (hrest lineAt (actions ++ first)), List.append_assoc]
  rfl

theorem Expression.yields_call {callee : String} {arguments : List Argument} {c : Constructor}
    {nested : List Action} {product : Layer ⊕ Action} (hc : Catalog.find? callee = some c)
    (harguments : ArgumentsYield arguments values nested) (hproduct : c.Produces values product)
    (place : ℕ) :
    (call callee arguments place).Yields (valueOf product) (nested ++ recordOf product) := by
  intro lineAt actions
  rw [evaluate, hc]
  refine (run_bind_of_eq_ok (harguments lineAt actions) _).trans ?_
  rw [Constructor.run_apply_iff.mpr ⟨product, hproduct, rfl, rfl⟩, List.append_assoc]

end Yields

mutual

/-- **Evaluation is uniform**: an expression that is evaluated once yields the same always. -/
theorem Expression.exists_yields (lineAt : ℕ → ℕ) {actions final : List Action} {value : Value} :
    (e : Expression) → (e.evaluate lineAt).run actions = .ok (value, final) →
      ∃ recorded, final = actions ++ recorded ∧ e.Yields value recorded
  | .literal v, h => by
    rw [evaluate] at h
    cases h
    exact ⟨[], (List.append_nil _).symm, fun _ _ ↦ by rw [evaluate, List.append_nil]; rfl⟩
  | .none, h => by
    rw [evaluate] at h
    cases h
    exact ⟨[], (List.append_nil _).symm, fun _ _ ↦ by rw [evaluate, List.append_nil]; rfl⟩
  | .name word place, h => by
    rw [evaluate] at h
    cases h
  | .call callee arguments place, h => by
    rw [evaluate] at h
    split at h
    · cases h
    · rename_i c hc
      obtain ⟨values, recorded, hvalues, happly⟩ := run_bind_eq_ok h
      obtain ⟨nested, rfl, harguments⟩ := exists_argumentsYield lineAt arguments hvalues
      obtain ⟨product, hproduct, rfl, rfl⟩ := Constructor.run_apply_iff.mp happly
      exact ⟨nested ++ recordOf product, List.append_assoc _ _ _,
        yields_call hc harguments hproduct place⟩

theorem Expression.exists_argumentsYield (lineAt : ℕ → ℕ) {actions final : List Action}
    {values : List (Option String × Value)} :
    (arguments : List Argument) →
      (evaluateArguments lineAt arguments).run actions = .ok (values, final) →
      ∃ recorded, final = actions ++ recorded ∧ ArgumentsYield arguments values recorded
  | [], h => by
    rw [evaluateArguments] at h
    cases h
    exact ⟨[], (List.append_nil _).symm, fun _ _ ↦ by rw [evaluateArguments, List.append_nil]; rfl⟩
  | (keyword, e) :: rest, h => by
    rw [evaluateArguments] at h
    obtain ⟨value, recorded, hvalue, h⟩ := run_bind_eq_ok h
    obtain ⟨others, recorded', hothers, h⟩ := run_bind_eq_ok h
    cases h
    obtain ⟨first, rfl, hfirst⟩ := exists_yields lineAt e hvalue
    obtain ⟨second, rfl, hsecond⟩ := exists_argumentsYield lineAt rest hothers
    exact ⟨first ++ second, List.append_assoc _ _ _, argumentsYield_cons hfirst hsecond⟩

end

section Inversion

variable {e : Expression} {value : Value} {values : List (Option String × Value)}
  {recorded : List Action}

theorem Expression.Yields.unique {value' : Value} {recorded' : List Action}
    (h : e.Yields value recorded) (h' : e.Yields value' recorded') :
    value = value' ∧ recorded = recorded' := by
  have heq := (h (fun _ ↦ 0) []).symm.trans (h' (fun _ ↦ 0) [])
  simpa using heq

theorem Expression.yields_literal_iff {literal : Literal} :
    (Expression.literal literal).Yields value recorded ↔
      value = .literal literal ∧ recorded = [] := by
  have hself : (Expression.literal literal).Yields (.literal literal) [] := fun _ actions ↦ by
    rw [evaluate, List.append_nil]
    rfl
  exact ⟨fun h ↦ h.unique hself, fun ⟨hvalue, hrecorded⟩ ↦ hvalue ▸ hrecorded ▸ hself⟩

theorem Expression.yields_none_iff :
    Expression.none.Yields value recorded ↔ value = .none ∧ recorded = [] := by
  have hself : Expression.none.Yields .none [] := fun _ actions ↦ by
    rw [evaluate, List.append_nil]
    rfl
  exact ⟨fun h ↦ h.unique hself, fun ⟨hvalue, hrecorded⟩ ↦ hvalue ▸ hrecorded ▸ hself⟩

theorem Expression.not_yields_name {word : String} {place : ℕ} :
    ¬(Expression.name word place).Yields value recorded := by
  intro h
  have hrun := h (fun _ ↦ 0) []
  rw [evaluate] at hrun
  cases hrun

/-- **What a call yields**: what its constructor produces from the values of its arguments. -/
theorem Expression.yields_call_iff {callee : String} {arguments : List Argument} {place : ℕ} :
    (call callee arguments place).Yields value recorded ↔
      ∃ c values nested product, Catalog.find? callee = some c ∧
        ArgumentsYield arguments values nested ∧ c.Produces values product ∧
        value = valueOf product ∧ recorded = nested ++ recordOf product := by
  constructor
  · intro h
    have hrun := h (fun _ ↦ 0) []
    rw [evaluate] at hrun
    split at hrun
    · cases hrun
    · rename_i c hc
      obtain ⟨values, recorded', hvalues, happly⟩ := run_bind_eq_ok hrun
      obtain ⟨nested, hnested, harguments⟩ := exists_argumentsYield _ arguments hvalues
      obtain ⟨product, hproduct, hvalue, hrecorded⟩ := Constructor.run_apply_iff.mp happly
      exact ⟨c, values, nested, product, hc, harguments, hproduct, hvalue,
        by simpa [hnested] using hrecorded⟩
  · rintro ⟨c, values, nested, product, hc, harguments, hproduct, rfl, rfl⟩
    exact yields_call hc harguments hproduct place

theorem Expression.argumentsYield_nil_iff :
    ArgumentsYield [] values recorded ↔ values = [] ∧ recorded = [] := by
  constructor
  · intro h
    have hrun := h (fun _ ↦ 0) []
    rw [evaluateArguments] at hrun
    cases hrun
    exact ⟨rfl, rfl⟩
  · rintro ⟨rfl, rfl⟩ _ actions
    rw [evaluateArguments, List.append_nil]
    rfl

theorem Expression.argumentsYield_cons_iff {keyword : Option String} {rest : List Argument} :
    ArgumentsYield ((keyword, e) :: rest) values recorded ↔
      ∃ value others first second, e.Yields value first ∧ ArgumentsYield rest others second ∧
        values = (keyword, value) :: others ∧ recorded = first ++ second := by
  constructor
  · intro h
    have hrun := h (fun _ ↦ 0) []
    rw [evaluateArguments] at hrun
    obtain ⟨value, recorded', hvalue, hrun⟩ := run_bind_eq_ok hrun
    obtain ⟨others, recorded'', hothers, hrun⟩ := run_bind_eq_ok hrun
    cases hrun
    obtain ⟨first, hsplit, hfirst⟩ := exists_yields _ e hvalue
    obtain ⟨second, hsplit', hsecond⟩ := exists_argumentsYield _ rest hothers
    exact ⟨value, others, first, second, hfirst, hsecond, rfl, by simpa [hsplit] using hsplit'⟩
  · rintro ⟨value, others, first, second, hfirst, hsecond, rfl, rfl⟩
    exact argumentsYield_cons hfirst hsecond

theorem Expression.ArgumentsYield.map_fst {arguments : List Argument}
    (h : ArgumentsYield arguments values recorded) :
    values.map Prod.fst = arguments.map Prod.fst := by
  induction arguments generalizing values recorded with
  | nil =>
    obtain ⟨rfl, -⟩ := argumentsYield_nil_iff.mp h
    rfl
  | cons argument rest ih =>
    obtain ⟨keyword, e⟩ := argument
    obtain ⟨value, others, first, second, -, hsecond, rfl, -⟩ := argumentsYield_cons_iff.mp h
    rw [List.map_cons, List.map_cons, ih hsecond]

end Inversion

/-! ## Layers and actions -/

/-- What a call builds, a layer or an action. -/
def Expression.product? : Expression → Option Product
  | .call callee _ _ => (Catalog.find? callee).map (·.product)
  | _ => Option.none

/-- The value of an expression is a layer exactly if the expression is a call that builds one, and
there is no value if the call builds an action. -/
theorem Expression.Yields.product {e : Expression} {value : Value} {recorded : List Action}
    (h : e.Yields value recorded) :
    ((∃ layer, value = .layer layer) ↔ e.product? = some .layer) ∧
      (e.product? = some .action → value = .none) := by
  cases e with
  | literal literal =>
    obtain ⟨rfl, -⟩ := yields_literal_iff.mp h
    simp [product?]
  | none =>
    obtain ⟨rfl, -⟩ := yields_none_iff.mp h
    simp [product?]
  | name word place => exact absurd h not_yields_name
  | call callee arguments place =>
    obtain ⟨c, values, nested, product, hc, -, ⟨bound, operands, -, -, hbuild⟩, rfl, -⟩ :=
      yields_call_iff.mp h
    obtain ⟨hproduct, layer, rfl⟩ | ⟨hproduct, action, rfl, -⟩ :=
      Constructor.product_of_build (Catalog.mem_of_find? hc) hbuild
    · simp [product?, hc, hproduct, valueOf]
    · simp [product?, hc, hproduct, valueOf]

/-! ## Statements -/

/-- The statements that build a layer. -/
def layerStatements (statements : List Statement) : List Statement :=
  statements.filter (·.expression.product? = some .layer)

/-- The statements that build an action. -/
def actionStatements (statements : List Statement) : List Statement :=
  statements.filter (·.expression.product? = some .action)

theorem map_layerStatements_cons {α : Type} (f : Statement → α) (statement : Statement)
    (rest : List Statement) : (layerStatements (statement :: rest)).map f
      = (if statement.expression.product? = some .layer then [f statement] else [])
        ++ (layerStatements rest).map f := by
  by_cases h : statement.expression.product? = some .layer <;> simp [layerStatements, h]

theorem run_evaluateStatements_cons {lineAt : ℕ → ℕ} {statement : Statement}
    {rest : List Statement} {value : Value} {first actions final : List Action} {others : List ℕ}
    (hfirst : statement.expression.Yields value first)
    (hrest : (evaluateStatements lineAt rest).run (actions ++ first) = .ok (others, final)) :
    (evaluateStatements lineAt (statement :: rest)).run actions
      = .ok ((if statement.expression.product? = some .layer then [lineAt statement.place] else [])
          ++ others, final) := by
  rw [evaluateStatements, run_bind_of_eq_ok (hfirst lineAt actions), run_bind_of_eq_ok hrest]
  have hlayer := hfirst.product.1
  cases value with
  | layer l =>
    rw [if_pos (hlayer.mp ⟨l, rfl⟩)]
    rfl
  | literal v =>
    rw [if_neg fun h ↦ nomatch hlayer.mpr h]
    rfl
  | none =>
    rw [if_neg fun h ↦ nomatch hlayer.mpr h]
    rfl

/-- **What statements compute**: each of them yields something, all that they record is recorded in
order, and the lines are those of the statements that build a layer. -/
theorem run_evaluateStatements_iff {lineAt : ℕ → ℕ} {statements : List Statement}
    {actions final : List Action} {lines : List ℕ} :
    (evaluateStatements lineAt statements).run actions = .ok (lines, final) ↔
      ∃ results : List (Value × List Action),
        List.Forall₂ (fun s r ↦ s.expression.Yields r.1 r.2) statements results ∧
        final = actions ++ results.flatMap Prod.snd ∧
        lines = (layerStatements statements).map (lineAt ·.place) := by
  induction statements generalizing actions final lines with
  | nil =>
    rw [evaluateStatements]
    constructor
    · intro h
      cases h
      exact ⟨[], List.Forall₂.nil, (List.append_nil _).symm, rfl⟩
    · rintro ⟨results, hresults, rfl, rfl⟩
      cases hresults
      rw [List.flatMap_nil, List.append_nil]
      rfl
  | cons statement rest ih =>
    constructor
    · intro h
      have hrun := h
      rw [evaluateStatements] at hrun
      obtain ⟨value, recorded, hvalue, hrun⟩ := run_bind_eq_ok hrun
      obtain ⟨others, recorded', hothers, hrun⟩ := run_bind_eq_ok hrun
      obtain ⟨first, rfl, hfirst⟩ := Expression.exists_yields lineAt _ hvalue
      rw [run_evaluateStatements_cons hfirst hothers] at h
      cases h
      obtain ⟨results, hresults, rfl, rfl⟩ := ih.mp hothers
      refine ⟨(value, first) :: results, hresults.cons hfirst, ?_, ?_⟩
      · rw [List.flatMap_cons, List.append_assoc]
      · rw [map_layerStatements_cons]
    · rintro ⟨results, hresults, rfl, rfl⟩
      obtain ⟨⟨value, first⟩, others, hfirst, hothers, rfl⟩ :=
        List.forall₂_cons_left_iff.mp hresults
      have hrest : (evaluateStatements lineAt rest).run (actions ++ first) = .ok (_, _) :=
        ih.mpr ⟨others, hothers, rfl, rfl⟩
      rw [run_evaluateStatements_cons hfirst hrest, map_layerStatements_cons, List.flatMap_cons,
        List.append_assoc]

/-! ## Programs -/

theorem compileSource_of_readProgram {source : List Char} {statements : List Statement}
    (hcheck : Language.checkNesting source = .ok ())
    (hread : Language.readProgram source = .ok statements) :
    compileSource source = ((evaluateStatements (Place.line source) statements).run []).map
      fun result ↦ ⟨result.2, result.1.map .unusedLayer⟩ := by
  rw [compileSource, hcheck, hread]
  change (do
    let result ← (evaluateStatements (Place.line source) statements).run []
    Except.ok (⟨result.2, result.1.map .unusedLayer⟩ : Program)) = _
  rcases (evaluateStatements (Place.line source) statements).run [] with error | result <;> rfl

/-- **When a text is accepted**, and what it is compiled to. -/
theorem compileSource_eq_ok_iff {source : List Char} {program : Program} :
    compileSource source = .ok program ↔
      Language.checkNesting source = .ok () ∧
      ∃ statements lines, Language.readProgram source = .ok statements ∧
        (evaluateStatements (Place.line source) statements).run [] = .ok (lines, program.actions) ∧
        program.warnings = lines.map .unusedLayer := by
  rcases hcheck : Language.checkNesting source with fault | _
  · refine iff_of_false (fun h ↦ ?_) nofun
    rw [compileSource, hcheck] at h
    cases h
  rcases hread : Language.readProgram source with fault | statements
  · refine iff_of_false (fun h ↦ ?_) nofun
    rw [compileSource, hcheck, hread] at h
    cases h
  rw [compileSource_of_readProgram hcheck hread]
  constructor
  · intro h
    rcases hrun : (evaluateStatements (Place.line source) statements).run [] with error | result
    · rw [hrun] at h
      cases h
    · rw [hrun] at h
      obtain rfl := Except.ok.inj h
      exact ⟨rfl, statements, result.1, rfl, hrun, rfl⟩
  · rintro ⟨-, statements', lines, hsame, hrun, hwarnings⟩
    cases hsame
    obtain ⟨actions, warnings⟩ := program
    obtain rfl : warnings = lines.map .unusedLayer := hwarnings
    rw [hrun]
    rfl

end MapQuery
