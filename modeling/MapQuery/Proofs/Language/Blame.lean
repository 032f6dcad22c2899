import MapQuery.Proofs.Language.Meaning

/-!
# Which word an error is about

A program that was read but cannot be evaluated fails at one of the words of its text: a name on its
own, a call of something that is not in the catalog, or a call whose arguments cannot be given to
its parameters or do not have their types (`Mention.Blamed`). An evaluation stops at the first such
word (`Expression.exists_blamed_of_evaluate`), so every error names a word that is written there.

A call is not refused for anything else. What is bound and has passed the checks can be built: the
catalog, the slots, the checks and the nodes fit together (`Constructor.exists_build_of_accept`).
The two messages for calls where they do not are never shown (`tryCompile_ne_shape`).
-/

namespace MapQuery

/-! ## Computations without a result -/

section Error

variable {α β : Type} {actions : List Action} {error : CompileError}

theorem run_bind_eq_error {x : Evaluation α} {f : α → Evaluation β}
    (h : (x >>= f).run actions = .error error) :
    x.run actions = .error error ∨
      ∃ a recorded, x.run actions = .ok (a, recorded) ∧ (f a).run recorded = .error error := by
  rw [StateT.run_bind] at h
  cases hx : x.run actions with
  | error e =>
    rw [hx] at h
    cases h
    exact Or.inl rfl
  | ok first =>
    rw [hx] at h
    exact Or.inr ⟨first.1, first.2, rfl, h⟩

private theorem run_liftM_bind_eq_error {x : Except CompileError α} {f : α → Evaluation β}
    (h : ((liftM x : Evaluation α) >>= f).run actions = .error error) :
    x = .error error ∨ ∃ a, x = .ok a ∧ (f a).run actions = .error error := by
  rcases x with e | a
  · cases h
    exact Or.inl rfl
  · exact Or.inr ⟨a, rfl, h⟩

private theorem exists_of_onLine_eq_error {c : Constructor} {line : ℕ}
    {result : Except ArgumentProblem α} (h : c.onLine line result = .error error) :
    ∃ problem, result = .error problem ∧ error = .arguments line c.name problem := by
  rcases result with problem | a
  · exact ⟨problem, rfl, (Except.error.inj h).symm⟩
  · cases h

end Error

/-! ## Calls -/

/-- The problem is about which argument belongs to which parameter. -/
def ArgumentProblem.IsOfBinding : ArgumentProblem → Prop
  | tooMany _ | unexpectedKeyword _ | repeated _ | missing _ => True
  | unexpectedShape | tooFewLayers => False

namespace Constructor

variable {c : Constructor} {arguments : List (Option String × Value)} {bound values : List Value}
  {operands : List Operand} {line first next : ℕ} {problem : ArgumentProblem} {error : CompileError}

private theorem isOfBinding_of_fill {slots : List (Option Value)}
    (h : c.fill next slots arguments = .error problem) : problem.IsOfBinding := by
  induction arguments generalizing next slots with
  | nil => cases h
  | cons argument rest ih =>
    obtain ⟨keyword, value⟩ := argument
    cases keyword with
    | none =>
      rw [fill] at h
      split at h
      · exact ih h
      · cases h
        trivial
    | some keyword =>
      rw [fill] at h
      split at h
      · cases h
        trivial
      · split at h
        · cases h
          trivial
        · exact ih h

private theorem isOfBinding_of_collect {slots : List (Option Value)}
    (h : c.collect first slots = .error problem) : problem.IsOfBinding := by
  induction slots generalizing first with
  | nil => cases h
  | cons content slots ih =>
    cases content with
    | none =>
      cases h
      trivial
    | some value =>
      rw [collect] at h
      cases hrest : c.collect (first + 1) slots with
      | error other =>
        rw [hrest] at h
        cases h
        exact ih hrest
      | ok others =>
        rw [hrest] at h
        cases h

private theorem isOfBinding_of_bind (h : c.bind arguments = .error problem) :
    problem.IsOfBinding := by
  rw [bind] at h
  cases hfill : c.fill 0 (List.replicate (c.capacity arguments) none) arguments with
  | error other =>
    rw [hfill] at h
    cases h
    exact isOfBinding_of_fill hfill
  | ok slots =>
    rw [hfill] at h
    exact isOfBinding_of_collect h

/-- Every slot belongs to a parameter, so a value is refused for its type only. -/
theorem exists_type_of_accept (hc : c.parameters ≠ [])
    (h : c.accept line first values = .error error) :
    ∃ (parameter : Parameter) (found : String),
      error = .type line c.name parameter.name parameter.type found := by
  induction values generalizing first with
  | nil => cases h
  | cons value values ih =>
    have hslot : min first (c.parameters.length - 1) < c.parameters.length := by
      have hpos := List.length_pos_of_ne_nil hc
      omega
    rw [accept, parameterAt?, List.getElem?_eq_getElem hslot] at h
    dsimp only at h
    split at h
    · exact ⟨_, _, (Except.error.inj h).symm⟩
    · cases hrest : c.accept line (first + 1) values with
      | error other =>
        rw [hrest] at h
        cases h
        exact ih hrest
      | ok others =>
        rw [hrest] at h
        cases h

/-- **What is accepted is built.** Values that are bound and have the types of their parameters are
the operands of a node, which is a layer or an action as the catalog says. -/
theorem exists_build_of_accept (hc : c ∈ Catalog.constructors)
    (hbind : c.bind arguments = .ok bound) (haccept : c.accept line 0 bound = .ok operands) :
    (c.product = .layer ∧ ∃ layer, c.build operands = .ok (.inl layer)) ∨
      c.product = .action ∧ ∃ action, c.build operands = .ok (.inr action) := by
  obtain ⟨hoperands, hadmits⟩ := accept_eq_ok_iff.mp haccept
  have hlength : bound.length = c.capacity arguments := (mem_of_bind hbind).1
  have hfits : c.Fits bound := by
    refine fits_of_mem hc ?_ fun hvariadic ↦ ?_
    · rw [hlength, capacity]
      split <;> omega
    · rw [hlength, capacity, hvariadic]
      rfl
  have htypes : c.Admits (bound.map Value.type) := by
    intro slot type htype
    rw [List.getElem?_map, Option.map_eq_some_iff] at htype
    obtain ⟨value, hvalue, rfl⟩ := htype
    simpa using hadmits slot value hvalue
  obtain ⟨product, htree⟩ := hfits.mpr htypes
  have hbuild := build_eq_ok_iff.mpr (hoperands.symm ▸ htree)
  obtain ⟨hproduct, layer, rfl⟩ | ⟨hproduct, action, rfl, -⟩ := product_of_build hc hbuild
  · exact Or.inl ⟨hproduct, layer, hbuild⟩
  · exact Or.inr ⟨hproduct, action, hbuild⟩

/-- **What a call is refused for**: an argument that belongs to no parameter, or to one that has
another, a parameter without argument, or a value of the wrong type. -/
theorem refused_of_apply (hc : c ∈ Catalog.constructors) {actions : List Action}
    (h : (c.apply line arguments).run actions = .error error) :
    (∃ problem, c.bind arguments = .error problem ∧ error = .arguments line c.name problem) ∨
      ∃ (parameter : Parameter) (found : String),
        error = .type line c.name parameter.name parameter.type found := by
  have hparameters : ∀ c ∈ Catalog.constructors, c.parameters ≠ [] := by decide
  rw [apply] at h
  obtain h | ⟨bound, hbound, h⟩ := run_liftM_bind_eq_error h
  · exact Or.inl (exists_of_onLine_eq_error h)
  obtain h | ⟨operands, haccept, h⟩ := run_liftM_bind_eq_error h
  · exact Or.inr (exists_type_of_accept (hparameters c hc) h)
  have hbuilt : ∃ product, c.build operands = .ok product := by
    obtain ⟨-, layer, hbuild⟩ | ⟨-, action, hbuild⟩ :=
      exists_build_of_accept hc (eq_ok_of_onLine hbound) haccept
    · exact ⟨_, hbuild⟩
    · exact ⟨_, hbuild⟩
  obtain ⟨product, hbuild⟩ := hbuilt
  rw [run_liftM_bind_of_eq_ok (onLine_of_eq_ok hbuild line)] at h
  cases product <;> cases h

end Constructor

/-! ## Mentions -/

/-- A word of an expression that has to name something, or to be called. -/
structure Mention where
  word : String
  place : ℕ
  isCalled : Bool

mutual

/-- The words of the expression that have to name something. -/
def Expression.mentions : Expression → List Mention
  | .literal _ | .none => []
  | .name word place => [⟨word, place, false⟩]
  | .call callee arguments place =>
    ⟨callee, place, true⟩ :: Expression.argumentMentions arguments

def Expression.argumentMentions : List (Option String × Expression) → List Mention
  | [] => []
  | (_, value) :: rest => value.mentions ++ Expression.argumentMentions rest

end

/-- The error is about the word: it names nothing, or its call is refused. -/
inductive Mention.Blamed (lineAt : ℕ → ℕ) (m : Mention) : CompileError → Prop
  | name (h : m.isCalled = false) : Blamed lineAt m (.unknownName (lineAt m.place) m.word)
  | callee (h : Catalog.find? m.word = none) :
    Blamed lineAt m (.unknownName (lineAt m.place) m.word)
  | arguments {problem : ArgumentProblem} (hcalled : m.isCalled = true)
    (hword : (Catalog.find? m.word).isSome) (h : problem.IsOfBinding) :
    Blamed lineAt m (.arguments (lineAt m.place) m.word problem)
  | type {parameter found : String} {expected : ParameterType} (hcalled : m.isCalled = true)
    (hword : (Catalog.find? m.word).isSome) :
    Blamed lineAt m (.type (lineAt m.place) m.word parameter expected found)

section Blamed

variable {lineAt : ℕ → ℕ} {actions : List Action} {error : CompileError}

mutual

/-- **An evaluation that fails blames a word** of the expression. -/
theorem Expression.exists_blamed_of_evaluate {actions : List Action} :
    (e : Expression) → (e.evaluate lineAt).run actions = .error error →
      ∃ m ∈ e.mentions, m.Blamed lineAt error
  | .literal _, h => by
    rw [evaluate] at h
    cases h
  | .none, h => by
    rw [evaluate] at h
    cases h
  | .name word place, h => by
    rw [evaluate] at h
    cases h
    exact ⟨⟨word, place, false⟩, List.mem_singleton_self _, .name rfl⟩
  | .call callee arguments place, h => by
    have hmention : (⟨callee, place, true⟩ : Mention) ∈ (call callee arguments place).mentions := by
      rw [mentions]
      exact List.mem_cons_self
    rw [evaluate] at h
    split at h
    · rename_i hcallee
      cases h
      exact ⟨_, hmention, .callee hcallee⟩
    · rename_i c hc
      have hname : c.name = callee := by simpa using List.find?_some hc
      have hsome : (Catalog.find? callee).isSome := by
        rw [hc]
        rfl
      obtain h | ⟨values, recorded, -, h⟩ := run_bind_eq_error h
      · obtain ⟨m, hm, hblamed⟩ := exists_blamed_of_evaluateArguments arguments h
        exact ⟨m, by rw [mentions]; exact List.mem_cons_of_mem _ hm, hblamed⟩
      · subst hname
        refine ⟨_, hmention, ?_⟩
        obtain ⟨problem, hbind, rfl⟩ | ⟨parameter, found, rfl⟩ :=
          Constructor.refused_of_apply (Catalog.mem_of_find? hc) h
        · exact .arguments rfl hsome (Constructor.isOfBinding_of_bind hbind)
        · exact .type rfl hsome

private theorem Expression.exists_blamed_of_evaluateArguments {actions : List Action} :
    (arguments : List Argument) →
      (evaluateArguments lineAt arguments).run actions = .error error →
      ∃ m ∈ argumentMentions arguments, m.Blamed lineAt error
  | [], h => by
    rw [evaluateArguments] at h
    cases h
  | (keyword, e) :: rest, h => by
    rw [evaluateArguments] at h
    rw [argumentMentions]
    obtain h | ⟨value, recorded, -, h⟩ := run_bind_eq_error h
    · obtain ⟨m, hm, hblamed⟩ := exists_blamed_of_evaluate e h
      exact ⟨m, List.mem_append_left _ hm, hblamed⟩
    obtain h | ⟨others, recorded', -, h⟩ := run_bind_eq_error h
    · obtain ⟨m, hm, hblamed⟩ := exists_blamed_of_evaluateArguments rest h
      exact ⟨m, List.mem_append_right _ hm, hblamed⟩
    · cases h

end

theorem exists_blamed_of_evaluateStatements {statements : List Statement}
    (h : (evaluateStatements lineAt statements).run actions = .error error) :
    ∃ s ∈ statements, ∃ m ∈ s.expression.mentions, m.Blamed lineAt error := by
  induction statements generalizing actions with
  | nil =>
    rw [evaluateStatements] at h
    cases h
  | cons statement rest ih =>
    rw [evaluateStatements] at h
    obtain h | ⟨value, recorded, -, h⟩ := run_bind_eq_error h
    · exact ⟨statement, List.mem_cons_self, statement.expression.exists_blamed_of_evaluate h⟩
    obtain h | ⟨lines, recorded', -, h⟩ := run_bind_eq_error h
    · obtain ⟨s, hs, hblamed⟩ := ih h
      exact ⟨s, List.mem_cons_of_mem _ hs, hblamed⟩
    · cases value <;> cases h

end Blamed

/-! ## Texts -/

/-- **Why a text is refused**: for its form, or for one of its words. -/
theorem compileSource_eq_error {source : List Char} {error : CompileError}
    (h : compileSource source = .error error) :
    (∃ fault, error = .ofFault source fault ∧
      (Language.checkNesting source = .error fault ∨
        Language.readProgram source = .error fault)) ∨
    ∃ statements, Language.readProgram source = .ok statements ∧
      ∃ s ∈ statements, ∃ m ∈ s.expression.mentions, m.Blamed (Place.line source) error := by
  rcases hcheck : Language.checkNesting source with fault | _
  · rw [compileSource, hcheck] at h
    exact Or.inl ⟨fault, (Except.error.inj h).symm, Or.inl rfl⟩
  rcases hread : Language.readProgram source with fault | statements
  · rw [compileSource, hcheck, hread] at h
    exact Or.inl ⟨fault, (Except.error.inj h).symm, Or.inr rfl⟩
  · rw [compileSource_of_readProgram hcheck hread] at h
    rcases hrun : (evaluateStatements (Place.line source) statements).run [] with e | result
    · rw [hrun] at h
      obtain rfl := Except.error.inj h
      exact Or.inr ⟨statements, rfl, exists_blamed_of_evaluateStatements hrun⟩
    · rw [hrun] at h
      cases h

private theorem head?_toList_append {front : String} {c : Char} (h : front.toList.head? = some c)
    (rest : String) : (front ++ rest).toList.head? = some c := by
  rw [String.toList_append, List.head?_append, h]
  rfl

/-- The messages of binding begin in their own way. -/
theorem ArgumentProblem.IsOfBinding.head?_message {problem : ArgumentProblem}
    (h : problem.IsOfBinding) : ∃ c ∈ ['t', 'g', 'm'], problem.message.toList.head? = some c := by
  cases problem with
  | tooMany capacity =>
    have hfirst : "takes ".toList.head? = some 't' := by decide
    exact ⟨'t', by decide, head?_toList_append (head?_toList_append hfirst _) _⟩
  | unexpectedKeyword keyword =>
    have hfirst : "got an unexpected keyword argument `".toList.head? = some 'g' := by decide
    exact ⟨'g', by decide, head?_toList_append (head?_toList_append hfirst _) _⟩
  | repeated keyword =>
    have hfirst : "got multiple values for argument `".toList.head? = some 'g' := by decide
    exact ⟨'g', by decide, head?_toList_append (head?_toList_append hfirst _) _⟩
  | missing parameter =>
    have hfirst : "missing required argument `".toList.head? = some 'm' := by decide
    exact ⟨'m', by decide, head?_toList_append (head?_toList_append hfirst _) _⟩
  | unexpectedShape => exact h.elim
  | tooFewLayers => exact h.elim

theorem ArgumentProblem.IsOfBinding.message_ne {problem : ArgumentProblem} {message : String}
    (h : problem.IsOfBinding) {first : Char} (hfirst : message.toList.head? = some first)
    (hother : first ∉ ['t', 'g', 'm']) : problem.message ≠ message := by
  rintro rfl
  obtain ⟨c, hc, hhead⟩ := h.head?_message
  obtain rfl := Option.some.inj (hfirst.symm.trans hhead)
  exact hother hc

/-- What the catalog says that a call builds is what it computes: a layer is its value, and an
action is recorded behind those recorded before. -/
def Constructor.BuildsAsDeclared (c : Constructor) (line : ℕ)
    (arguments : List (Option String × Value)) : Prop :=
  (c.product = .layer ∧ ∃ layer, ∀ actions,
    (c.apply line arguments).run actions = .ok (.layer layer, actions)) ∨
  (c.product = .action ∧ ∃ action, ∀ actions,
    (c.apply line arguments).run actions = .ok (.none, actions ++ [action]))

/-- **No call fits its parameters and cannot be built.** The two messages about that are never
given, whatever the text; for whatever arguments a constructor of the catalog is called with, if
they are bound and have the types of their parameters, then the call builds what the catalog
says. -/
theorem tryCompile_ne_shape :
    (∀ text line callee problem, tryCompile text = .error (.arguments line callee problem) →
      problem.message ≠ "received arguments of an unexpected shape" ∧
        problem.message ≠ "needs at least two layers") ∧
    ∀ c ∈ Catalog.constructors, ∀ line arguments bound operands, c.bind arguments = .ok bound →
      c.accept line 0 bound = .ok operands → c.BuildsAsDeclared line arguments := by
  constructor
  · intro text line callee problem h
    have hbinding : problem.IsOfBinding := by
      obtain ⟨fault, hfault, -⟩ | ⟨statements, -, s, -, m, -, hblamed⟩ := compileSource_eq_error h
      · cases hfault
      · cases hblamed
        assumption
    have hshape : "received arguments of an unexpected shape".toList.head? = some 'r' := by decide
    have hlayers : "needs at least two layers".toList.head? = some 'n' := by decide
    exact ⟨hbinding.message_ne hshape (by decide), hbinding.message_ne hlayers (by decide)⟩
  · intro c hc line arguments bound operands hbind haccept
    have hproduces : ∀ product, c.build operands = .ok product → c.Produces arguments product :=
      fun product hbuild ↦ ⟨bound, operands, hbind, Constructor.accept_line haccept 0, hbuild⟩
    obtain ⟨hproduct, layer, hbuild⟩ | ⟨hproduct, action, hbuild⟩ :=
      Constructor.exists_build_of_accept hc hbind haccept
    · refine Or.inl ⟨hproduct, layer, fun actions ↦ Constructor.run_apply_iff.mpr ?_⟩
      exact ⟨_, hproduces _ hbuild, rfl, (List.append_nil actions).symm⟩
    · refine Or.inr ⟨hproduct, action, fun actions ↦ Constructor.run_apply_iff.mpr ?_⟩
      exact ⟨_, hproduces _ hbuild, rfl, rfl⟩

/-- Three layers are what the variadic union accepts; a union of one is refused when it is bound,
and not when it is built. -/
theorem tryCompile_ne_shape_union :
    tryCompile "count(union(get_layer('a')))"
      = .error (.arguments 1 "union" (.missing "source_b")) ∧
    (ArgumentProblem.missing "source_b").message ≠ "received arguments of an unexpected shape" ∧
    (ArgumentProblem.missing "source_b").message ≠ "needs at least two layers" ∧
    (Catalog.combination "union" .union true).BuildsAsDeclared 1
      [(none, .layer (.source "a")), (none, .layer (.source "b")),
        (none, .layer (.source "c"))] := by
  have h : tryCompile "count(union(get_layer('a')))"
      = .error (.arguments 1 "union" (.missing "source_b")) := by
    decide +kernel
  obtain ⟨hshape, hlayers⟩ := tryCompile_ne_shape.1 _ _ _ _ h
  have hunion : Catalog.combination "union" .union true ∈ Catalog.constructors := by decide
  exact ⟨h, hshape, hlayers, tryCompile_ne_shape.2 _ hunion 1 _
    [.layer (.source "a"), .layer (.source "b"), .layer (.source "c")]
    [.layer (.source "a"), .layer (.source "b"), .layer (.source "c")] rfl rfl⟩

end MapQuery
