import Mathlib.Data.Set.List
import MapQuery.Proofs.Language.Recording
import MapQuery.Proofs.Language.Supply

/-!
# Types and meanings of expressions

A literal has its type, and a call the type of what it builds, if its arguments have types, supply
every parameter once, and fit (`Expression.HasType`). The meaning of an expression is a value or an
action: a literal means itself, and a call the tree over the meanings of its operands
(`Expression.Means`). Neither says anything about slots, checks or an order of evaluation.

The constructors of the catalog agree with both: where the operands fit there is a tree, and where
there is a tree the operands fit (`Constructor.fits_of_mem`).
-/

namespace MapQuery

/-! ## Types -/

def Literal.type : Literal → LiteralType
  | .text _ => .text
  | .integer _ => .integer
  | .float _ => .float
  | .boolean _ => .boolean

inductive ValueType where
  | layer
  | literal (type : LiteralType)
  | none

def Value.type : Value → ValueType
  | .layer _ => .layer
  | .literal value => .literal value.type
  | .none => .none

def Product.type : Product → ValueType
  | .layer => .layer
  | .action => .none

/-- Which types fit a parameter: a layer fits a layer, and a literal fits if its type is listed. An
integer also stands for a float. -/
inductive ParameterType.Admits : ParameterType → ValueType → Prop
  | layer : Admits .layer .layer
  | listed {types : List LiteralType} {type : LiteralType} (h : type ∈ types) :
    Admits (.literal types) (.literal type)
  | integer {types : List LiteralType} (h : .float ∈ types) :
    Admits (.literal types) (.literal .integer)

/-- Each operand fits its parameter. -/
def Constructor.Admits (c : Constructor) (types : List ValueType) : Prop :=
  ∀ slot type, types[slot]? = some type → ∃ p, c.parameterAt? slot = some p ∧ p.type.Admits type

mutual

/-- The type of an expression. A bare name has none. -/
inductive Expression.HasType : Expression → ValueType → Prop
  | literal (value : Literal) : HasType (.literal value) (.literal value.type)
  | none : HasType .none .none
  | call {callee : String} {arguments : List Argument} {c : Constructor}
    {types : List (Option String × ValueType)} {operands : List ValueType} (place : ℕ)
    (hc : Catalog.find? callee = some c)
    (harguments : Expression.ArgumentsHaveTypes arguments types)
    (hsupplies : c.Supplies types operands) (hadmits : c.Admits operands) :
    HasType (.call callee arguments place) c.product.type

inductive Expression.ArgumentsHaveTypes :
    List Argument → List (Option String × ValueType) → Prop
  | nil : ArgumentsHaveTypes [] []
  | cons {keyword : Option String} {e : Expression} {type : ValueType} {rest : List Argument}
    {types : List (Option String × ValueType)} (hfirst : e.HasType type)
    (hrest : ArgumentsHaveTypes rest types) :
    ArgumentsHaveTypes ((keyword, e) :: rest) ((keyword, type) :: types)

end

def Expression.WellTyped (e : Expression) : Prop := ∃ type, e.HasType type

/-! ## Meanings -/

/-- What an expression stands for: a value, or something to be done. -/
inductive Meaning where
  | value (value : Value)
  | action (action : Action)

def Meaning.toValue : Meaning → Value
  | .value v => v
  | .action _ => .none

def Meaning.toActions : Meaning → List Action
  | .value _ => []
  | .action a => [a]

/-- The meaning of a call that builds a layer or an action. -/
def Meaning.ofProduct : Layer ⊕ Action → Meaning
  | .inl layer => .value (.layer layer)
  | .inr a => .action a

@[simp] theorem Meaning.toValue_ofProduct (product : Layer ⊕ Action) :
    (ofProduct product).toValue = valueOf product := by
  cases product <;> rfl

@[simp] theorem Meaning.toActions_ofProduct (product : Layer ⊕ Action) :
    (ofProduct product).toActions = recordOf product := by
  cases product <;> rfl

mutual

/-- The meaning of an expression. Operands are values: an action is no operand. -/
inductive Expression.Means : Expression → Meaning → Prop
  | literal (value : Literal) : Means (.literal value) (.value (.literal value))
  | none : Means .none (.value .none)
  | call {callee : String} {arguments : List Argument} {c : Constructor}
    {meanings : List (Option String × Meaning)} {operands : List Value}
    {product : Layer ⊕ Action} (place : ℕ) (hc : Catalog.find? callee = some c)
    (harguments : Expression.ArgumentsMean arguments meanings)
    (hsupplies : c.Supplies meanings (operands.map .value))
    (htree : c.node.Tree operands product) :
    Means (.call callee arguments place) (.ofProduct product)

inductive Expression.ArgumentsMean : List Argument → List (Option String × Meaning) → Prop
  | nil : ArgumentsMean [] []
  | cons {keyword : Option String} {e : Expression} {meaning : Meaning} {rest : List Argument}
    {meanings : List (Option String × Meaning)} (hfirst : e.Means meaning)
    (hrest : ArgumentsMean rest meanings) :
    ArgumentsMean ((keyword, e) :: rest) ((keyword, meaning) :: meanings)

end

/-! ## Checks and types -/

theorem LiteralType.accepts_iff {type : LiteralType} {value : Literal} :
    type.accepts value = true ↔ type = value.type ∨ type = .float ∧ value.type = .integer := by
  rcases type with _ | _ | _ | _ <;> rcases value with _ | _ | _ | _ <;>
    simp [accepts, Literal.type]

theorem ParameterType.any_accepts_iff {types : List LiteralType} {value : Literal} :
    types.any (·.accepts value) = true ↔
      (ParameterType.literal types).Admits (.literal value.type) := by
  rw [List.any_eq_true]
  constructor
  · rintro ⟨type, hmem, haccepts⟩
    rcases LiteralType.accepts_iff.mp haccepts with rfl | ⟨rfl, hinteger⟩
    · exact .listed hmem
    · rw [hinteger]
      exact .integer hmem
  · intro h
    generalize htype : value.type = type at h
    cases h with
    | listed hmem => exact ⟨type, hmem, LiteralType.accepts_iff.mpr (Or.inl htype.symm)⟩
    | integer hmem => exact ⟨.float, hmem, LiteralType.accepts_iff.mpr (Or.inr ⟨rfl, htype⟩)⟩

theorem ParameterType.accept?_eq_some_iff {type : ParameterType} {value : Value}
    {operand : Operand} :
    type.accept? value = some operand ↔ operand.toValue = value ∧ type.Admits value.type := by
  rcases type with _ | types
  · rcases value with layer | literal | _
    · constructor
      · intro h
        obtain rfl := Option.some.inj h
        exact ⟨rfl, .layer⟩
      · rintro ⟨h, -⟩
        rcases operand with layer' | literal
        · rw [← h]
          rfl
        · cases h
    · exact ⟨nofun, fun h ↦ nomatch h.2⟩
    · exact ⟨nofun, fun h ↦ nomatch h.2⟩
  · rcases value with layer | literal | _
    · exact ⟨nofun, fun h ↦ nomatch h.2⟩
    · rw [accept?, Value.type, ← any_accepts_iff]
      constructor
      · intro h
        split at h
        · rename_i hany
          obtain rfl := Option.some.inj h
          exact ⟨rfl, hany⟩
        · cases h
      · rintro ⟨h, hany⟩
        rw [if_pos hany]
        rcases operand with layer' | literal'
        · cases h
        · rw [← (Value.literal.inj h : literal' = literal)]
    · exact ⟨nofun, fun h ↦ nomatch h.2⟩

namespace Constructor

variable {c : Constructor}

/-- Values pass the checks of a call exactly if their types fit, and become its operands. -/
theorem accept_eq_ok_iff {line first : ℕ} {values : List Value} {operands : List Operand} :
    c.accept line first values = .ok operands ↔
      operands.map Operand.toValue = values ∧ ∀ slot value, values[slot]? = some value →
        ∃ p, c.parameterAt? (first + slot) = some p ∧ p.type.Admits value.type := by
  induction values generalizing first operands with
  | nil =>
    rw [accept]
    constructor
    · intro h
      obtain rfl := Except.ok.inj h
      refine ⟨rfl, fun slot value hslot ↦ ?_⟩
      cases hslot
    · rintro ⟨h, -⟩
      rw [List.map_eq_nil_iff.mp h]
  | cons value values ih =>
    constructor
    · intro h
      obtain ⟨p, operand, others, hp, hoperand, hrest, rfl⟩ := accept_cons h
      obtain ⟨htoValue, hadmits⟩ := ParameterType.accept?_eq_some_iff.mp hoperand
      obtain ⟨hothers, hall⟩ := ih.mp hrest
      refine ⟨by rw [List.map_cons, htoValue, hothers], fun slot value' hslot ↦ ?_⟩
      rcases slot with _ | slot
      · obtain rfl := Option.some.inj hslot
        exact ⟨p, hp, hadmits⟩
      · rw [Nat.add_comm slot 1, ← Nat.add_assoc]
        exact hall slot value' hslot
    · rintro ⟨hmap, hall⟩
      obtain ⟨operand, others, rfl, htoValue, hothers⟩ := List.map_eq_cons_iff.mp hmap
      obtain ⟨p, hp, hadmits⟩ := hall 0 value rfl
      have hrest : c.accept line (first + 1) values = .ok others :=
        ih.mpr ⟨hothers, fun slot value' hslot ↦ by
          rw [Nat.add_assoc, Nat.add_comm 1 slot]
          exact hall (slot + 1) value' hslot⟩
      rw [accept, show c.parameterAt? first = some p from hp]
      dsimp only
      rw [ParameterType.accept?_eq_some_iff.mpr ⟨htoValue, hadmits⟩]
      dsimp only
      rw [hrest]
      rfl

end Constructor

/-! ## Trees of the catalog -/

section Catalog

variable {c : Constructor} {values : List Value} {value : Value}

theorem ParameterType.admits_layer_iff :
    ParameterType.layer.Admits value.type ↔ ∃ layer, value = .layer layer := by
  constructor
  · intro h
    rcases value with layer | _ | _
    · exact ⟨layer, rfl⟩
    · cases h
    · cases h
  · rintro ⟨layer, rfl⟩
    exact .layer

theorem ParameterType.admits_literal_iff {types : List LiteralType} :
    (ParameterType.literal types).Admits value.type ↔
      ∃ literal, value = .literal literal ∧ types.any (·.accepts literal) = true := by
  constructor
  · intro h
    rcases value with _ | literal | _
    · cases h
    · exact ⟨literal, rfl, any_accepts_iff.mpr h⟩
    · cases h
  · rintro ⟨literal, rfl, hany⟩
    exact any_accepts_iff.mp hany

theorem Constructor.admits_iff_forall₂ (hlength : values.length = c.parameters.length) :
    c.Admits (values.map Value.type) ↔
      List.Forall₂ (fun p v ↦ ParameterType.Admits p.type v.type) c.parameters values := by
  have hat : ∀ slot (hslot : slot < c.parameters.length),
      c.parameterAt? slot = some c.parameters[slot] := by
    intro slot hslot
    rw [parameterAt?, Nat.min_eq_left (by omega), List.getElem?_eq_getElem hslot]
  rw [List.forall₂_iff_get]
  constructor
  · intro h
    refine ⟨hlength.symm, fun slot hleft hright ↦ ?_⟩
    obtain ⟨p, hp, hadmits⟩ := h slot values[slot].type (by simp [hright])
    obtain rfl := Option.some.inj ((hat slot hleft).symm.trans hp)
    exact hadmits
  · rintro ⟨-, h⟩ slot type htype
    rw [List.getElem?_map, Option.map_eq_some_iff] at htype
    obtain ⟨v, hv, rfl⟩ := htype
    obtain ⟨hright, rfl⟩ := List.getElem?_eq_some_iff.mp hv
    have hleft : slot < c.parameters.length := by omega
    exact ⟨_, hat slot hleft, h slot hleft hright⟩

theorem Catalog.combination_admits_iff {name : String} {overlay : Overlay} {isVariadic : Bool} :
    (combination name overlay isVariadic).Admits (values.map Value.type) ↔
      ∃ layers : List Layer, values = layers.map .layer := by
  have hat : ∀ slot, ∃ p, (combination name overlay isVariadic).parameterAt? slot = some p ∧
      p.type = .layer := by
    intro slot
    rcases slot with _ | slot
    · exact ⟨_, rfl, rfl⟩
    · have hmin : min (slot + 1) (pairOfLayers.length - 1) = 1 :=
        Nat.min_eq_right (Nat.succ_le_succ (Nat.zero_le slot))
      exact ⟨⟨"source_b", .layer⟩, by rw [Constructor.parameterAt?, combination, hmin]; rfl, rfl⟩
  constructor
  · intro h
    have hrange : values ∈ Set.range (List.map Value.layer) := by
      rw [Set.range_list_map]
      intro v hv
      obtain ⟨slot, hslot⟩ := List.mem_iff_getElem?.mp hv
      obtain ⟨p, hp, hadmits⟩ := h slot v.type (by rw [List.getElem?_map, hslot]; rfl)
      obtain ⟨p', hp', htype⟩ := hat slot
      obtain rfl := Option.some.inj (hp.symm.trans hp')
      rw [htype] at hadmits
      obtain ⟨layer, rfl⟩ := ParameterType.admits_layer_iff.mp hadmits
      exact ⟨layer, rfl⟩
    exact hrange.imp fun _ h ↦ h.symm
  · rintro ⟨layers, rfl⟩ slot type htype
    obtain ⟨p, hp, hlayer⟩ := hat slot
    rw [List.map_map, List.getElem?_map, Option.map_eq_some_iff] at htype
    obtain ⟨layer, -, rfl⟩ := htype
    refine ⟨p, hp, ?_⟩
    rw [hlayer]
    exact .layer

/-- There is a tree over the operands exactly if each of them fits its parameter. -/
def Constructor.Fits (c : Constructor) (values : List Value) : Prop :=
  (∃ product, c.node.Tree values product) ↔ c.Admits (values.map Value.type)

theorem Catalog.fits_action {name : String} {verb : Verb}
    {documentation : Option (List DocPart)} (hlength : values.length = 1) :
    (action name verb documentation).Fits values := by
  rw [Constructor.Fits, Constructor.admits_iff_forall₂ hlength]
  obtain ⟨v, rfl⟩ := List.length_eq_one_iff.mp hlength
  constructor
  · rintro ⟨product, htree⟩
    cases htree
    exact .cons .layer .nil
  · rintro (_ | ⟨hv, -⟩)
    obtain ⟨layer, rfl⟩ := ParameterType.admits_layer_iff.mp hv
    exact ⟨_, .action verb layer⟩

private theorem Catalog.fits_pair {name : String} {overlay : Overlay} (hoverlay : overlay ≠ .union)
    (hlength : values.length = 2) : (combination name overlay false).Fits values := by
  rw [Constructor.Fits, combination_admits_iff]
  constructor
  · rintro ⟨product, htree⟩
    cases htree with
    | union => exact absurd rfl hoverlay
    | combined _ _ a b => exact ⟨[a, b], rfl⟩
  · rintro ⟨layers, rfl⟩
    rw [List.length_map] at hlength
    obtain ⟨a, b, rfl⟩ := List.length_eq_two.mp hlength
    exact ⟨_, .combined overlay hoverlay a b⟩

private theorem Catalog.fits_union {name : String} (hle : 2 ≤ values.length) :
    (combination name .union true).Fits values := by
  rw [Constructor.Fits, combination_admits_iff]
  constructor
  · rintro ⟨product, htree⟩
    cases htree with
    | union layers last _ hvalues => exact ⟨layers ++ [last], hvalues⟩
    | combined _ hoverlay => exact absurd rfl hoverlay
  · rintro ⟨layers, rfl⟩
    rw [List.length_map] at hle
    rcases List.eq_nil_or_concat layers with rfl | ⟨before, last, rfl⟩
    · cases hle
    · rw [List.concat_eq_append] at hle ⊢
      refine ⟨_, .union before last ?_ rfl⟩
      rintro rfl
      exact absurd hle (Nat.not_succ_le_self 1)

theorem LiteralType.any_text_iff {literal : Literal} :
    [LiteralType.text].any (·.accepts literal) = true ↔ ∃ text, literal = .text text := by
  rcases literal with _ | _ | _ | _ <;> simp [accepts]

theorem LiteralType.any_float_iff {literal : Literal} :
    [LiteralType.float].any (·.accepts literal) = true ↔
      (∃ distance, literal = .float distance) ∨ ∃ distance, literal = .integer distance := by
  rcases literal with _ | _ | _ | _ <;> simp [accepts]

theorem LiteralType.any_filterValueTypes (literal : Literal) :
    Catalog.filterValueTypes.any (·.accepts literal) = true := by
  rcases literal with _ | _ | _ | _ <;> rfl

/-- **The catalog fits its trees**: over operands for every parameter of a constructor there is a
tree exactly if each operand fits its parameter. -/
theorem Constructor.fits_of_mem (hc : c ∈ Catalog.constructors)
    (hle : c.parameters.length ≤ values.length)
    (hlength : c.isVariadic = false → values.length = c.parameters.length) : c.Fits values := by
  simp only [Catalog.constructors, List.mem_cons, List.not_mem_nil, or_false] at hc
  obtain rfl | rfl | rfl | rfl | rfl | rfl | rfl | rfl | rfl := hc
  · rw [Fits, admits_iff_forall₂ (hlength rfl)]
    obtain ⟨v, rfl⟩ := List.length_eq_one_iff.mp (hlength rfl)
    constructor
    · rintro ⟨product, htree⟩
      cases htree
      exact .cons (.listed List.mem_cons_self) .nil
    · rintro (_ | ⟨hv, -⟩)
      obtain ⟨literal, rfl, hany⟩ := ParameterType.admits_literal_iff.mp hv
      obtain ⟨text, rfl⟩ := LiteralType.any_text_iff.mp hany
      exact ⟨_, .source text⟩
  · rw [Fits, admits_iff_forall₂ (hlength rfl)]
    obtain ⟨a, b, v, rfl⟩ := List.length_eq_three.mp (hlength rfl)
    constructor
    · rintro ⟨product, htree⟩
      cases htree with
      | filtered layer field value =>
        have hvalue := ParameterType.any_accepts_iff.mp (LiteralType.any_filterValueTypes value)
        exact .cons .layer (.cons (.listed List.mem_cons_self) (.cons hvalue .nil))
    · rintro (_ | ⟨ha, _ | ⟨hb, _ | ⟨hv, -⟩⟩⟩)
      obtain ⟨layer, rfl⟩ := ParameterType.admits_layer_iff.mp ha
      obtain ⟨_, rfl, hany⟩ := ParameterType.admits_literal_iff.mp hb
      obtain ⟨field, rfl⟩ := LiteralType.any_text_iff.mp hany
      obtain ⟨value, rfl, -⟩ := ParameterType.admits_literal_iff.mp hv
      exact ⟨_, .filtered layer field value⟩
  · rw [Fits, admits_iff_forall₂ (hlength rfl)]
    obtain ⟨a, b, rfl⟩ := List.length_eq_two.mp (hlength rfl)
    constructor
    · rintro ⟨product, htree⟩
      cases htree with
      | buffered layer distance =>
        exact .cons .layer (.cons (.listed List.mem_cons_self) .nil)
      | bufferedInteger layer distance =>
        exact .cons .layer (.cons (.integer List.mem_cons_self) .nil)
    · rintro (_ | ⟨ha, _ | ⟨hb, -⟩⟩)
      obtain ⟨layer, rfl⟩ := ParameterType.admits_layer_iff.mp ha
      obtain ⟨_, rfl, hany⟩ := ParameterType.admits_literal_iff.mp hb
      obtain ⟨distance, rfl⟩ | ⟨distance, rfl⟩ := LiteralType.any_float_iff.mp hany
      · exact ⟨_, .buffered layer distance⟩
      · exact ⟨_, .bufferedInteger layer distance⟩
  · exact Catalog.fits_union hle
  · exact Catalog.fits_pair nofun (hlength rfl)
  · exact Catalog.fits_pair nofun (hlength rfl)
  · exact Catalog.fits_action (hlength rfl)
  · exact Catalog.fits_action (hlength rfl)
  · exact Catalog.fits_action (hlength rfl)

theorem Catalog.nodup_names (hc : c ∈ constructors) : (c.parameters.map (·.name)).Nodup := by
  have hall : ∀ c ∈ constructors, (c.parameters.map (·.name)).Nodup := by decide
  exact hall c hc

variable {arguments : List (Option String × Value)}

theorem Constructor.Produces.exists_tree {product : Layer ⊕ Action}
    (h : c.Produces arguments product) :
    ∃ bound, c.bind arguments = .ok bound ∧ c.node.Tree bound product := by
  obtain ⟨_, operands, hbind, haccept, hbuild⟩ := h
  obtain ⟨rfl, -⟩ := accept_eq_ok_iff.mp haccept
  exact ⟨_, hbind, build_eq_ok_iff.mp hbuild⟩

/-- **What a call produces**, where nothing is overwritten: the tree over its operands. -/
theorem Constructor.produces_iff_tree (hc : c ∈ Catalog.constructors)
    (hnot : ¬c.Overwrites arguments) {product : Layer ⊕ Action} :
    c.Produces arguments product ↔
      ∃ operands, c.Supplies arguments operands ∧ c.node.Tree operands product := by
  constructor
  · intro h
    obtain ⟨bound, hbind, htree⟩ := h.exists_tree
    exact ⟨bound, supplies_of_bind (Catalog.nodup_names hc) hnot hbind, htree⟩
  · rintro ⟨values, hsupplies, htree⟩
    obtain ⟨operands, hoperands, hbuild⟩ := build_of_tree htree
    have hadmits := (fits_of_mem hc hsupplies.parameters_le hsupplies.length_eq).mp ⟨product, htree⟩
    refine ⟨values, operands, bind_of_supplies (Catalog.nodup_names hc) hsupplies, ?_, hbuild⟩
    refine accept_eq_ok_iff.mpr ⟨hoperands, fun slot value hslot ↦ ?_⟩
    rw [Nat.zero_add]
    exact hadmits slot value.type (by rw [List.getElem?_map, hslot]; rfl)

theorem Constructor.exists_produces_iff_admits (hc : c ∈ Catalog.constructors)
    (hnot : ¬c.Overwrites arguments) :
    (∃ product, c.Produces arguments product) ↔
      ∃ operands, c.Supplies arguments operands ∧ c.Admits (operands.map Value.type) := by
  constructor
  · rintro ⟨product, hproduct⟩
    obtain ⟨operands, hsupplies, htree⟩ := (produces_iff_tree hc hnot).mp hproduct
    exact ⟨operands, hsupplies,
      (fits_of_mem hc hsupplies.parameters_le hsupplies.length_eq).mp ⟨product, htree⟩⟩
  · rintro ⟨operands, hsupplies, hadmits⟩
    obtain ⟨product, htree⟩ :=
      (fits_of_mem hc hsupplies.parameters_le hsupplies.length_eq).mpr hadmits
    exact ⟨product, (produces_iff_tree hc hnot).mpr ⟨operands, hsupplies, htree⟩⟩

end Catalog

/-! ## Trees and their operands -/

section Operands

variable {node : Node} {values : List Value} {product product' : Layer ⊕ Action}

theorem Node.Tree.type_eq (h : node.Tree values product) :
    node.product.type = (valueOf product).type := by
  cases h <;> rfl

end Operands

end MapQuery
