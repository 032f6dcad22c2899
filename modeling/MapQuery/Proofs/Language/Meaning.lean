import MapQuery.Proofs.Language.Typing

/-!
# Evaluation finds the meaning

In calls whose keywords come last nothing is overwritten, so evaluation does what types and meanings
say: an expression has a value exactly if it has a type, and its value and the actions that it
records are those of its meaning. As both depend on what supplies each parameter only, an argument
may be passed by position or by keyword, and keywords may come in any order
(`Expression.Respelled`). For the statements of a program this is `evaluateStatements_means`.
-/

namespace MapQuery

/-! ## Keywords last -/

mutual

/-- In every call of the expression, no argument without keyword follows one with a keyword. -/
def Expression.KeywordsLast : Expression → Prop
  | .call _ arguments _ =>
    arguments.Pairwise (fun a b ↦ a.1.isSome → b.1.isSome) ∧
      Expression.ArgumentsKeywordsLast arguments
  | _ => True

def Expression.ArgumentsKeywordsLast : List Argument → Prop
  | [] => True
  | (_, value) :: rest => value.KeywordsLast ∧ Expression.ArgumentsKeywordsLast rest

end

section KeywordsLast

variable {c : Constructor} {arguments : List (Option String × Value)}

theorem Constructor.destinations_of_forall_none (h : ∀ a ∈ arguments, a.1 = none) (next : ℕ) :
    ∀ slot, some slot ∈ c.destinations next arguments → slot < next + arguments.length := by
  induction arguments generalizing next with
  | nil => exact fun _ hslot ↦ absurd hslot List.not_mem_nil
  | cons argument rest ih =>
    obtain ⟨keyword, value⟩ := argument
    obtain ⟨hfirst, hrest⟩ := List.forall_mem_cons.mp h
    obtain rfl : keyword = none := hfirst
    intro slot hslot
    rw [List.length_cons]
    rcases List.mem_cons.mp hslot with heq | hlater
    · obtain rfl := Option.some.inj heq
      omega
    · have hlt := ih hrest (next + 1) slot hlater
      omega

theorem Constructor.not_overwrites_of_pairwise
    (h : arguments.Pairwise fun a b ↦ a.1.isSome → b.1.isSome) : ¬c.Overwrites arguments := by
  rintro ⟨before, value, after, rfl, hmem⟩
  have hnone : ∀ a ∈ before, a.1 = none := by
    intro a ha
    have hlater := (List.pairwise_append.mp h).2.2 a ha (none, value) List.mem_cons_self
    rcases hkeyword : a.1 with _ | keyword
    · rfl
    · rw [hkeyword] at hlater
      cases hlater rfl
  have hcount : before.countP (·.1.isNone) = before.length :=
    List.countP_eq_length.mpr fun a ha ↦ by rw [hnone a ha]; rfl
  have hlt := destinations_of_forall_none hnone 0 _ hmem
  omega

end KeywordsLast

/-! ## Arguments and what is said of them -/

section Arguments

variable {arguments : List Argument}

theorem Constructor.not_overwrites_of_yields {c : Constructor}
    {values : List (Option String × Value)} {recorded : List Action}
    (hlast : arguments.Pairwise fun a b ↦ a.1.isSome → b.1.isSome)
    (h : Expression.ArgumentsYield arguments values recorded) : ¬c.Overwrites values := by
  refine not_overwrites_of_pairwise ?_
  have hkeywords : (arguments.map Prod.fst).Pairwise fun a b ↦ a.isSome → b.isSome :=
    List.pairwise_map.mpr hlast
  rw [← h.map_fst] at hkeywords
  exact List.pairwise_map.mp hkeywords

variable {callee : String} {c : Constructor} {values : List (Option String × Value)}
  {product : Layer ⊕ Action}

theorem Expression.hasType_of_produces (hc : Catalog.find? callee = some c)
    (hnot : ¬c.Overwrites values)
    (harguments : ArgumentsHaveTypes arguments (values.map fun a ↦ (a.1, a.2.type)))
    (hproduct : c.Produces values product) (place : ℕ) :
    (call callee arguments place).HasType (valueOf product).type := by
  have hmem := Catalog.mem_of_find? hc
  obtain ⟨operands, hsupplies, htree⟩ := (Constructor.produces_iff_tree hmem hnot).mp hproduct
  rw [← htree.type_eq, ← (Catalog.eq_of_mem hmem).2]
  exact .call place hc harguments (hsupplies.map Value.type)
    ((Constructor.fits_of_mem hmem hsupplies.parameters_le hsupplies.length_eq).mp
      ⟨product, htree⟩)

theorem Meaning.eq_value_of_ne_none {meaning : Meaning} (h : meaning.toValue ≠ .none) :
    meaning = .value meaning.toValue := by
  rcases meaning with _ | _
  · rfl
  · exact absurd rfl h

theorem Expression.means_of_produces {meanings : List (Option String × Meaning)}
    (hc : Catalog.find? callee = some c)
    (hnot : ¬c.Overwrites (meanings.map fun a ↦ (a.1, a.2.toValue)))
    (harguments : ArgumentsMean arguments meanings)
    (hproduct : c.Produces (meanings.map fun a ↦ (a.1, a.2.toValue)) product) (place : ℕ) :
    (call callee arguments place).Means (.ofProduct product) ∧
      meanings.flatMap (·.2.toActions) = [] := by
  obtain ⟨operands, hsupplies, htree⟩ :=
    (Constructor.produces_iff_tree (Catalog.mem_of_find? hc) hnot).mp hproduct
  obtain ⟨operands, hmeanings, rfl⟩ := Constructor.exists_supplies_of_map hsupplies
  have hvalue : ∀ meaning ∈ operands, meaning = .value meaning.toValue := fun meaning hmeaning ↦
    Meaning.eq_value_of_ne_none (htree.ne_none _ (List.mem_map_of_mem hmeaning))
  constructor
  · refine .call place hc harguments ?_ htree
    have hoperands : (operands.map Meaning.toValue).map Meaning.value = operands :=
      calc (operands.map Meaning.toValue).map Meaning.value
          = operands.map fun meaning ↦ .value meaning.toValue := List.map_map
        _ = operands.map id := List.map_congr_left fun meaning h ↦ (hvalue meaning h).symm
        _ = operands := List.map_id operands
    rwa [hoperands]
  · refine List.flatMap_eq_nil_iff.mpr fun argument hargument ↦ ?_
    rw [hvalue argument.2 (hmeanings.mem_of_mem hargument)]
    rfl

end Arguments

/-! ## From evaluation to types and meanings -/

mutual

theorem Expression.Yields.sound {value : Value} {recorded : List Action} :
    (e : Expression) → e.KeywordsLast → e.Yields value recorded →
      e.HasType value.type ∧
        ∃ meaning, e.Means meaning ∧ meaning.toValue = value ∧ meaning.toActions = recorded
  | .literal _, _, h => by
    obtain ⟨rfl, rfl⟩ := yields_literal_iff.mp h
    exact ⟨.literal _, _, .literal _, rfl, rfl⟩
  | .none, _, h => by
    obtain ⟨rfl, rfl⟩ := yields_none_iff.mp h
    exact ⟨.none, _, .none, rfl, rfl⟩
  | .name _ _, _, h => absurd h not_yields_name
  | .call callee arguments place, hlast, h => by
    obtain ⟨c, values, nested, product, hc, harguments, hproduct, rfl, rfl⟩ := yields_call_iff.mp h
    have hnot := Constructor.not_overwrites_of_yields (c := c) hlast.1 harguments
    obtain ⟨htypes, meanings, hmeanings, rfl, rfl⟩ :=
      ArgumentsYield.sound arguments hlast.2 harguments
    obtain ⟨hmeans, hnested⟩ := means_of_produces hc hnot hmeanings hproduct place
    refine ⟨hasType_of_produces hc hnot htypes hproduct place, _, hmeans, ?_, ?_⟩
    · exact Meaning.toValue_ofProduct product
    · rw [hnested, Meaning.toActions_ofProduct, List.nil_append]

theorem Expression.ArgumentsYield.sound {values : List (Option String × Value)}
    {recorded : List Action} :
    (arguments : List Argument) → ArgumentsKeywordsLast arguments →
      ArgumentsYield arguments values recorded →
      ArgumentsHaveTypes arguments (values.map fun a ↦ (a.1, a.2.type)) ∧
        ∃ meanings, ArgumentsMean arguments meanings ∧
          meanings.map (fun a ↦ (a.1, a.2.toValue)) = values ∧
          meanings.flatMap (·.2.toActions) = recorded
  | [], _, h => by
    obtain ⟨rfl, rfl⟩ := argumentsYield_nil_iff.mp h
    exact ⟨.nil, [], .nil, rfl, rfl⟩
  | (keyword, e) :: rest, hlast, h => by
    obtain ⟨value, others, first, second, hfirst, hsecond, rfl, rfl⟩ :=
      argumentsYield_cons_iff.mp h
    obtain ⟨htype, meaning, hmeaning, rfl, rfl⟩ := Yields.sound e hlast.1 hfirst
    obtain ⟨htypes, meanings, hmeanings, rfl, rfl⟩ := ArgumentsYield.sound rest hlast.2 hsecond
    exact ⟨.cons htype htypes, (keyword, meaning) :: meanings, .cons hmeaning hmeanings, rfl, rfl⟩

end

/-! ## From types and meanings to evaluation -/

mutual

theorem Expression.Means.yields {meaning : Meaning} :
    (e : Expression) → e.KeywordsLast → e.Means meaning →
      e.Yields meaning.toValue meaning.toActions
  | .literal _, _, h => by
    cases h
    exact yields_literal_iff.mpr ⟨rfl, rfl⟩
  | .none, _, h => by
    cases h
    exact yields_none_iff.mpr ⟨rfl, rfl⟩
  | .name _ _, _, h => by cases h
  | .call callee arguments place, hlast, h => by
    cases h with
    | @call _ _ c meanings operands product _ hc harguments hsupplies htree =>
      have hyield := ArgumentsMean.yield arguments hlast.2 harguments
      have hnot := Constructor.not_overwrites_of_yields (c := c) hlast.1 hyield
      have hvalues := hsupplies.map Meaning.toValue
      have hoperands : (operands.map Meaning.value).map Meaning.toValue = operands := by
        rw [List.map_map]
        exact List.map_id' operands
      rw [hoperands] at hvalues
      have hproduct := (Constructor.produces_iff_tree (Catalog.mem_of_find? hc) hnot).mpr
        ⟨operands, hvalues, htree⟩
      obtain ⟨-, hnested⟩ := means_of_produces hc hnot harguments hproduct place
      rw [hnested] at hyield
      rw [Meaning.toValue_ofProduct, Meaning.toActions_ofProduct]
      exact yields_call hc hyield hproduct place

theorem Expression.ArgumentsMean.yield {meanings : List (Option String × Meaning)} :
    (arguments : List Argument) → ArgumentsKeywordsLast arguments →
      ArgumentsMean arguments meanings →
      ArgumentsYield arguments (meanings.map fun a ↦ (a.1, a.2.toValue))
        (meanings.flatMap (·.2.toActions))
  | [], _, h => by
    cases h
    exact argumentsYield_nil_iff.mpr ⟨rfl, rfl⟩
  | (keyword, e) :: rest, hlast, h => by
    cases h with
    | cons hfirst hrest =>
      exact argumentsYield_cons (Means.yields e hlast.1 hfirst)
        (ArgumentsMean.yield rest hlast.2 hrest)

end

mutual

theorem Expression.HasType.exists_yields {type : ValueType} :
    (e : Expression) → e.KeywordsLast → e.HasType type →
      ∃ value recorded, e.Yields value recorded ∧ value.type = type
  | .literal _, _, h => by
    cases h
    exact ⟨_, _, yields_literal_iff.mpr ⟨rfl, rfl⟩, rfl⟩
  | .none, _, h => by
    cases h
    exact ⟨_, _, yields_none_iff.mpr ⟨rfl, rfl⟩, rfl⟩
  | .name _ _, _, h => by cases h
  | .call callee arguments place, hlast, h => by
    cases h with
    | @call _ _ c types operands _ hc harguments hsupplies hadmits =>
      obtain ⟨values, nested, hyield, rfl⟩ :=
        ArgumentsHaveTypes.exists_yield arguments hlast.2 harguments
      have hnot := Constructor.not_overwrites_of_yields (c := c) hlast.1 hyield
      have hmem := Catalog.mem_of_find? hc
      obtain ⟨operands, hoperands, rfl⟩ := Constructor.exists_supplies_of_map hsupplies
      obtain ⟨product, hproduct⟩ :=
        (Constructor.exists_produces_iff_admits hmem hnot).mpr ⟨operands, hoperands, hadmits⟩
      obtain ⟨_, -, htree⟩ := (Constructor.produces_iff_tree hmem hnot).mp hproduct
      have htype : c.product.type = (valueOf product).type :=
        (Catalog.eq_of_mem hmem).2 ▸ htree.type_eq
      exact ⟨_, _, yields_call hc hyield hproduct place, htype.symm⟩

theorem Expression.ArgumentsHaveTypes.exists_yield {types : List (Option String × ValueType)} :
    (arguments : List Argument) → ArgumentsKeywordsLast arguments →
      ArgumentsHaveTypes arguments types →
      ∃ values recorded, ArgumentsYield arguments values recorded ∧
        types = values.map fun a ↦ (a.1, a.2.type)
  | [], _, h => by
    cases h
    exact ⟨[], [], argumentsYield_nil_iff.mpr ⟨rfl, rfl⟩, rfl⟩
  | (keyword, e) :: rest, hlast, h => by
    cases h with
    | cons hfirst hrest =>
      obtain ⟨value, first, hvalue, rfl⟩ := HasType.exists_yields e hlast.1 hfirst
      obtain ⟨values, second, hvalues, rfl⟩ :=
        ArgumentsHaveTypes.exists_yield rest hlast.2 hrest
      exact ⟨_, _, argumentsYield_cons hvalue hvalues, rfl⟩

end

section Expression

variable {e : Expression}

/-- **Evaluation finds the meaning**: an expression yields exactly the value and the actions of its
meaning. -/
theorem Expression.yields_iff_means (hlast : e.KeywordsLast) {value : Value}
    {recorded : List Action} :
    e.Yields value recorded ↔
      ∃ meaning, e.Means meaning ∧ meaning.toValue = value ∧ meaning.toActions = recorded := by
  constructor
  · exact fun h ↦ (Yields.sound e hlast h).2
  · rintro ⟨meaning, hmeaning, rfl, rfl⟩
    exact Means.yields e hlast hmeaning

/-- **Evaluation accepts what is well typed**: an expression yields something exactly if it has a
type. -/
theorem Expression.exists_yields_iff_wellTyped (hlast : e.KeywordsLast) :
    (∃ value recorded, e.Yields value recorded) ↔ e.WellTyped := by
  constructor
  · rintro ⟨value, recorded, h⟩
    exact ⟨value.type, (Yields.sound e hlast h).1⟩
  · rintro ⟨type, h⟩
    obtain ⟨value, recorded, hyields, -⟩ := HasType.exists_yields e hlast h
    exact ⟨value, recorded, hyields⟩

end Expression

/-! ## One meaning -/

mutual

theorem Expression.Means.unique {meaning meaning' : Meaning} :
    (e : Expression) → e.Means meaning → e.Means meaning' → meaning = meaning'
  | .literal _, h, h' => by
    cases h
    cases h'
    rfl
  | .none, h, h' => by
    cases h
    cases h'
    rfl
  | .name _ _, h, _ => by cases h
  | .call callee arguments place, h, h' => by
    cases h with
    | call _ hc harguments hsupplies htree =>
      cases h' with
      | call _ hc' harguments' hsupplies' htree' =>
        obtain rfl := Option.some.inj (hc.symm.trans hc')
        obtain rfl := ArgumentsMean.unique arguments harguments harguments'
        have hinjective : Function.Injective Meaning.value := fun _ _ ↦ Meaning.value.inj
        obtain rfl := List.map_injective_iff.mpr hinjective (hsupplies.unique hsupplies')
        rw [htree.unique htree']

theorem Expression.ArgumentsMean.unique {meanings meanings' : List (Option String × Meaning)} :
    (arguments : List Argument) → ArgumentsMean arguments meanings →
      ArgumentsMean arguments meanings' → meanings = meanings'
  | [], h, h' => by
    cases h
    cases h'
    rfl
  | (keyword, e) :: rest, h, h' => by
    cases h with
    | cons hfirst hrest =>
      cases h' with
      | cons hfirst' hrest' =>
        rw [Means.unique e hfirst hfirst', ArgumentsMean.unique rest hrest hrest']

end

private theorem Expression.argumentsMean_iff_forall₂ {arguments : List Argument}
    {meanings : List (Option String × Meaning)} :
    ArgumentsMean arguments meanings ↔
      List.Forall₂ (Constructor.Argumentwise Means) arguments meanings := by
  constructor
  · intro h
    induction arguments generalizing meanings with
    | nil =>
      cases h
      exact .nil
    | cons argument rest ih =>
      cases h with
      | cons hfirst hrest => exact .cons ⟨rfl, hfirst⟩ (ih hrest)
  · intro h
    induction h with
    | nil => exact .nil
    | @cons argument meaning _ _ hfirst _ ih =>
      obtain ⟨keyword, e⟩ := argument
      obtain ⟨_, meaning⟩ := meaning
      obtain ⟨rfl, hfirst⟩ : keyword = _ ∧ e.Means meaning := hfirst
      exact .cons hfirst ih

/-! ## Other ways to pass arguments -/

/-- Two expressions that differ in the way in which arguments are passed only: by position or by
keyword, and the keywords in any order. -/
inductive Expression.Respelled : Expression → Expression → Prop
  | refl (e : Expression) : Respelled e e
  | call {callee : String} {arguments arguments' : List Argument} {c : Constructor}
    {operands operands' : List Expression} (place place' : ℕ)
    (hc : Catalog.find? callee = some c) (h : c.Supplies arguments operands)
    (h' : c.Supplies arguments' operands') (hlength : operands.length = operands'.length)
    (hoperands : ∀ (slot : ℕ) (e e' : Expression), operands[slot]? = some e →
      operands'[slot]? = some e' → Respelled e e') :
    Respelled (.call callee arguments place) (.call callee arguments' place')

theorem Expression.Respelled.symm {e e' : Expression} (h : e.Respelled e') : e'.Respelled e := by
  induction h with
  | refl e => exact .refl e
  | call place place' hc h h' hlength _ ih =>
    exact .call place' place hc h' h hlength.symm fun slot e e' he he' ↦ ih slot e' e he' he

private theorem exists_forall₂_iff {α β : Type} {R : α → β → Prop} {l : List α} :
    (∃ l', List.Forall₂ R l l') ↔ ∀ a ∈ l, ∃ b, R a b := by
  induction l with
  | nil => exact iff_of_true ⟨[], .nil⟩ nofun
  | cons a rest ih =>
    rw [List.forall_mem_cons, ← ih]
    constructor
    · rintro ⟨_, h⟩
      obtain ⟨b, others, hb, hothers, -⟩ := List.forall₂_cons_left_iff.mp h
      exact ⟨⟨b, hb⟩, others, hothers⟩
    · rintro ⟨⟨b, hb⟩, others, hothers⟩
      exact ⟨b :: others, .cons hb hothers⟩

theorem Expression.Respelled.means {e e' : Expression} (h : e.Respelled e') {meaning : Meaning}
    (hmeaning : e.Means meaning) : e'.Means meaning := by
  induction h generalizing meaning with
  | refl e => exact hmeaning
  | @call callee arguments arguments' c operands operands' place place' hc h h' hlength _ ih =>
    cases hmeaning with
    | @call _ _ _ meanings values _ _ hc' harguments hsupplies htree =>
      obtain rfl := Option.some.inj (hc.symm.trans hc')
      -- The operands on both sides have the same meanings, slot by slot.
      have hleft := h.forall₂ hsupplies (argumentsMean_iff_forall₂.mp harguments)
      have hright : List.Forall₂ Means operands' (values.map .value) := by
        rw [List.forall₂_iff_get] at hleft ⊢
        refine ⟨hlength.symm.trans hleft.1, fun slot hslot hvalue ↦ ?_⟩
        have hslot' : slot < operands.length := by omega
        exact ih slot _ _ (List.getElem?_eq_getElem hslot') (List.getElem?_eq_getElem hslot)
          (hleft.2 slot hslot' hvalue)
      obtain ⟨meanings', hmeanings'⟩ : ∃ meanings' : List (Option String × Meaning),
          List.Forall₂ (Constructor.Argumentwise Means) arguments' meanings' := by
        refine exists_forall₂_iff.mpr fun argument hargument ↦ ?_
        obtain ⟨slot, hslot⟩ := List.mem_iff_getElem.mp (h'.mem_of_mem hargument)
        obtain ⟨hlt, hget⟩ := hslot
        have hmeans := (List.forall₂_iff_get.mp hright).2 slot hlt
          (by rw [← hright.length_eq]; exact hlt)
        rw [List.get_eq_getElem, hget] at hmeans
        exact ⟨(argument.1, _), rfl, hmeans⟩
      obtain ⟨values', hsupplies', hvalues'⟩ := h'.rel hmeanings'
      obtain rfl := List.right_unique_forall₂' (fun e _ _ ↦ Means.unique e) hright hvalues'
      exact .call place' hc (argumentsMean_iff_forall₂.mpr hmeanings') hsupplies' htree

theorem Expression.Respelled.product? {e e' : Expression} (h : e.Respelled e') :
    e'.product? = e.product? := by
  cases h <;> rfl

/-! ## Statements -/

private theorem Expression.Means.product?_eq_action_iff {e : Expression} {meaning : Meaning}
    (h : e.Means meaning) :
    e.product? = some .action ↔ ∃ action, meaning = .action action := by
  cases h with
  | literal => exact ⟨nofun, fun ⟨_, heq⟩ ↦ nomatch heq⟩
  | none => exact ⟨nofun, fun ⟨_, heq⟩ ↦ nomatch heq⟩
  | @call callee arguments c _ _ product place hc _ _ htree =>
    rw [product?, hc, Option.map_some, Option.some.injEq,
      (Catalog.eq_of_mem (Catalog.mem_of_find? hc)).2]
    generalize c.node = node at htree
    cases htree <;> simp [Node.product, Meaning.ofProduct]

variable {statements others : List Statement}

theorem forall₂_means {results : List (Value × List Action)}
    (hlast : ∀ s ∈ statements, s.expression.KeywordsLast)
    (h : List.Forall₂ (fun s r ↦ s.expression.Yields r.1 r.2) statements results) :
    List.Forall₂ (fun s a ↦ s.expression.Means (.action a)) (actionStatements statements)
      (results.flatMap Prod.snd) := by
  induction h with
  | nil => exact .nil
  | @cons s r rest _ hfirst _ ih =>
    obtain ⟨hs, hrest⟩ := List.forall_mem_cons.mp hlast
    obtain ⟨meaning, hmeaning, -, hrecorded⟩ := (Expression.yields_iff_means hs).mp hfirst
    rw [List.flatMap_cons, ← hrecorded]
    have haction := hmeaning.product?_eq_action_iff
    rcases meaning with value | action
    · rw [actionStatements, List.filter_cons_of_neg (by simp [haction])]
      exact ih hrest
    · rw [actionStatements, List.filter_cons_of_pos (by simp [haction])]
      exact .cons hmeaning (ih hrest)

theorem exists_results_iff (hlast : ∀ s ∈ statements, s.expression.KeywordsLast) :
    (∃ results : List (Value × List Action),
      List.Forall₂ (fun s r ↦ s.expression.Yields r.1 r.2) statements results) ↔
      ∀ s ∈ statements, s.expression.WellTyped := by
  rw [exists_forall₂_iff]
  refine forall₂_congr fun s hs ↦ ?_
  rw [← Expression.exists_yields_iff_wellTyped (hlast s hs), Prod.exists]

theorem run_evaluateStatements_iff_means (hlast : ∀ s ∈ statements, s.expression.KeywordsLast)
    {lineAt : ℕ → ℕ} {lines : List ℕ} {actions : List Action} :
    (evaluateStatements lineAt statements).run [] = .ok (lines, actions) ↔
      (∀ s ∈ statements, s.expression.WellTyped) ∧
        List.Forall₂ (fun s a ↦ s.expression.Means (.action a)) (actionStatements statements)
          actions ∧
        lines = (layerStatements statements).map (lineAt ·.place) := by
  rw [run_evaluateStatements_iff, ← exists_results_iff hlast]
  constructor
  · rintro ⟨results, hresults, rfl, hlines⟩
    exact ⟨⟨results, hresults⟩, forall₂_means hlast hresults, hlines⟩
  · rintro ⟨⟨results, hresults⟩, hactions, hlines⟩
    have hunique : Relator.RightUnique fun (s : Statement) (a : Action) ↦
        s.expression.Means (.action a) :=
      fun s _ _ h h' ↦ Meaning.action.inj (Expression.Means.unique s.expression h h')
    exact ⟨results, hresults,
      List.right_unique_forall₂' hunique hactions (forall₂_means hlast hresults), hlines⟩

/-- The same statements, with arguments passed in other ways. -/
def Respelling (statements others : List Statement) : Prop :=
  List.Forall₂ (fun s s' ↦ s.place = s'.place ∧ s.expression.Respelled s'.expression)
    statements others

theorem Respelling.yields (h : Respelling statements others)
    (hlast : ∀ s ∈ statements, s.expression.KeywordsLast)
    (hlast' : ∀ s ∈ others, s.expression.KeywordsLast) {results : List (Value × List Action)}
    (hresults : List.Forall₂ (fun s r ↦ s.expression.Yields r.1 r.2) statements results) :
    List.Forall₂ (fun s r ↦ s.expression.Yields r.1 r.2) others results := by
  induction h generalizing results with
  | nil => exact hresults
  | cons hs _ ih =>
    obtain ⟨hfirst, hrest⟩ := List.forall_mem_cons.mp hlast
    obtain ⟨hfirst', hrest'⟩ := List.forall_mem_cons.mp hlast'
    obtain ⟨r, others, hyields, hothers, rfl⟩ := List.forall₂_cons_left_iff.mp hresults
    refine .cons ?_ (ih hrest hrest' hothers)
    rw [Expression.yields_iff_means hfirst] at hyields
    obtain ⟨meaning, hmeaning, hvalue, hrecorded⟩ := hyields
    exact (Expression.yields_iff_means hfirst').mpr
      ⟨meaning, hs.2.means hmeaning, hvalue, hrecorded⟩

theorem Respelling.map_layerStatements (h : Respelling statements others) (lineAt : ℕ → ℕ) :
    (layerStatements others).map (lineAt ·.place)
      = (layerStatements statements).map (lineAt ·.place) := by
  induction h with
  | nil => rfl
  | cons hs _ ih =>
    rw [map_layerStatements_cons, map_layerStatements_cons, ih, hs.1, hs.2.product?]

theorem Respelling.symm (h : Respelling statements others) : Respelling others statements :=
  (h.imp fun _ _ hs ↦ ⟨hs.1.symm, hs.2.symm⟩).flip

theorem Respelling.run_evaluateStatements (h : Respelling statements others)
    (hlast : ∀ s ∈ statements, s.expression.KeywordsLast)
    (hlast' : ∀ s ∈ others, s.expression.KeywordsLast) {lineAt : ℕ → ℕ}
    {result : List ℕ × List Action}
    (hrun : (evaluateStatements lineAt statements).run [] = .ok result) :
    (evaluateStatements lineAt others).run [] = .ok result := by
  obtain ⟨lines, actions⟩ := result
  rw [run_evaluateStatements_iff] at hrun ⊢
  obtain ⟨results, hresults, hactions, hlines⟩ := hrun
  exact ⟨results, h.yields hlast hlast' hresults, hactions,
    hlines.trans (h.map_layerStatements lineAt).symm⟩

/-- **Evaluation accepts the well-typed programs and returns their meaning.** Statements whose calls
have their keywords last are evaluated exactly if each of them is well typed. The actions are then
the meanings of the statements that are calls of an action, and there is one warning for each
statement that is a call of a layer. It makes no difference in which way arguments are passed. -/
theorem evaluateStatements_means (hlast : ∀ s ∈ statements, s.expression.KeywordsLast)
    (lineAt : ℕ → ℕ) :
    ((∃ result, (evaluateStatements lineAt statements).run [] = .ok result) ↔
      ∀ s ∈ statements, s.expression.WellTyped) ∧
    (∀ lines actions, (evaluateStatements lineAt statements).run [] = .ok (lines, actions) ↔
      (∀ s ∈ statements, s.expression.WellTyped) ∧
        List.Forall₂ (fun s a ↦ s.expression.Means (.action a)) (actionStatements statements)
          actions ∧
        lines = (layerStatements statements).map (lineAt ·.place)) ∧
    (∀ lines actions, (evaluateStatements lineAt statements).run [] = .ok (lines, actions) →
      lines.map (fun line ↦ (Warning.unusedLayer line).message)
        = (layerStatements statements).map fun s ↦
            s!"line {lineAt s.place}: layer expression is not used by any action") ∧
    ∀ others, Respelling statements others → (∀ s ∈ others, s.expression.KeywordsLast) →
      ∀ result, (evaluateStatements lineAt others).run [] = .ok result ↔
        (evaluateStatements lineAt statements).run [] = .ok result := by
  refine ⟨⟨?_, fun h ↦ ?_⟩, fun lines actions ↦ run_evaluateStatements_iff_means hlast,
    fun lines actions hrun ↦ ?_, fun others hother hlast' result ↦ ⟨?_, ?_⟩⟩
  · rintro ⟨⟨lines, actions⟩, hrun⟩
    exact ((run_evaluateStatements_iff_means hlast).mp hrun).1
  · obtain ⟨results, hresults⟩ := (exists_results_iff hlast).mpr h
    exact ⟨(_, _), run_evaluateStatements_iff.mpr ⟨results, hresults, rfl, rfl⟩⟩
  · obtain ⟨-, -, rfl⟩ := (run_evaluateStatements_iff_means hlast).mp hrun
    rw [List.map_map]
    rfl
  · exact hother.symm.run_evaluateStatements hlast' hlast
  · exact hother.run_evaluateStatements hlast hlast'

/-- `count(buffer(get_layer('a'), 5))`. -/
def bufferByPosition : Statement :=
  ⟨.call "count" [(none, .call "buffer"
    [(none, .call "get_layer" [(none, .literal (.text "a"))] 18), (none, .literal (.integer 5))]
    25)] 31, 31⟩

/-- `count(buffer(distance=5, source=get_layer('a')))`. -/
def bufferByKeyword : Statement :=
  ⟨.call "count" [(none, .call "buffer"
    [(some "distance", .literal (.integer 5)),
      (some "source", .call "get_layer" [(none, .literal (.text "a"))] 18)]
    41)] 47, 31⟩

/-- The two ways to pass a distance have the same meaning; the integer becomes a float. -/
theorem buffer_means_buffer :
    (∀ s ∈ [bufferByPosition], s.expression.KeywordsLast) ∧
    bufferByPosition.expression.WellTyped ∧
    (evaluateStatements id [bufferByPosition]).run []
      = .ok ([], [⟨.count, .buffered (.source "a") (Float.ofInt 5)⟩]) ∧
    (evaluateStatements id [bufferByKeyword]).run []
      = .ok ([], [⟨.count, .buffered (.source "a") (Float.ofInt 5)⟩]) := by
  have hlast : ∀ s ∈ [bufferByPosition], s.expression.KeywordsLast := by
    simp [bufferByPosition, Expression.KeywordsLast, Expression.ArgumentsKeywordsLast]
  have hlast' : ∀ s ∈ [bufferByKeyword], s.expression.KeywordsLast := by
    simp [bufferByKeyword, Expression.KeywordsLast, Expression.ArgumentsKeywordsLast]
  obtain ⟨hsuccess, -, -, hother⟩ := evaluateStatements_means hlast id
  have hrun : (evaluateStatements id [bufferByPosition]).run []
      = .ok ([], [⟨.count, .buffered (.source "a") (Float.ofInt 5)⟩]) := rfl
  have hbuffer : ∀ layer distance : Expression, Expression.Respelled
      (.call "buffer" [(none, layer), (none, distance)] 25)
      (.call "buffer" [(some "distance", distance), (some "source", layer)] 41) := by
    intro layer distance
    have hc : Catalog.find? "buffer" = some Catalog.constructors[2] := rfl
    have h : Catalog.constructors[2].Supplies [(none, layer), (none, distance)]
        [layer, distance] :=
      ⟨Nat.le_refl 2, fun _ ↦ rfl, by simp, by rintro (_ | _ | slot) <;> rfl⟩
    have h' : Catalog.constructors[2].Supplies
        [(some "distance", distance), (some "source", layer)] [layer, distance] :=
      ⟨Nat.le_refl 2, fun _ ↦ rfl, by simp [Catalog.constructors],
        by rintro (_ | _ | slot) <;> rfl⟩
    exact .call 25 41 hc h h' rfl fun slot e e' he he' ↦
      Option.some.inj (he.symm.trans he') ▸ .refl e
  have hcount : ∀ e : Expression, Catalog.constructors[8].Supplies [(none, e)] [e] := fun e ↦
    ⟨Nat.le_refl 1, fun _ ↦ rfl, by simp, by rintro (_ | slot) <;> rfl⟩
  have hrespelling : Respelling [bufferByPosition] [bufferByKeyword] := by
    refine .cons ⟨rfl, .call 31 47 rfl (hcount _) (hcount _) rfl fun slot e e' he he' ↦ ?_⟩ .nil
    rcases slot with _ | slot
    · rw [← Option.some.inj he, ← Option.some.inj he']
      exact hbuffer _ _
    · cases he
  exact ⟨hlast, hsuccess.mp ⟨_, hrun⟩ bufferByPosition List.mem_cons_self, hrun,
    (hother [bufferByKeyword] hrespelling hlast' _).mpr hrun⟩

end MapQuery
