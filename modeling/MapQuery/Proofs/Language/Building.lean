import Mathlib.Data.List.Basic
import Mathlib.Tactic.Common
import MapQuery.Language.Binding

/-!
# What a call builds

Operands that have been checked one by one are checked again when a node is built from them, as a
whole: a constructor builds something from the operands of its node only. What it builds is told
without these checks by the tree over the operands (`Node.Tree`), and this is all that it builds
(`Constructor.build_eq_ok_iff`). So whatever holds of trees, by cases on them, holds of what is
built.
-/

namespace MapQuery

/-! ## Trees over operands -/

def Operand.toValue : Operand → Value
  | .layer l => .layer l
  | .literal v => .literal v

private theorem Operand.toValue_injective : Function.Injective Operand.toValue := by
  intro a b h
  rcases a with _ | _ <;> rcases b with _ | _ <;> cases h <;> rfl

/-- The tree over the operands of a call. -/
inductive Node.Tree : Node → List Value → Layer ⊕ Action → Prop
  | source (id : String) : Tree .source [.literal (.text id)] (.inl (.source id))
  | filtered (layer : Layer) (field : String) (value : Literal) :
    Tree .filtered [.layer layer, .literal (.text field), .literal value]
      (.inl (.filtered layer field value))
  | buffered (layer : Layer) (distance : Float) :
    Tree .buffered [.layer layer, .literal (.float distance)] (.inl (.buffered layer distance))
  /-- A distance that is written as an integer is the float nearest to it. -/
  | bufferedInteger (layer : Layer) (distance : Int64) :
    Tree .buffered [.layer layer, .literal (.integer distance)]
      (.inl (.buffered layer (Float.ofInt distance.toInt)))
  /-- Two or more operands of a union are grouped to the right. -/
  | union {operands : List Value} (layers : List Layer) (last : Layer) (hlayers : layers ≠ [])
    (h : operands = (layers ++ [last]).map .layer) :
    Tree (.combined .union) operands (.inl (layers.foldr (.combined .union) last))
  | combined (overlay : Overlay) (hoverlay : overlay ≠ .union) (a b : Layer) :
    Tree (.combined overlay) [.layer a, .layer b] (.inl (.combined overlay a b))
  | action (verb : Verb) (layer : Layer) : Tree (.action verb) [.layer layer] (.inr ⟨verb, layer⟩)

section Tree

variable {node : Node} {values : List Value} {product product' : Layer ⊕ Action}

theorem Node.Tree.ne_none (h : node.Tree values product) : ∀ value ∈ values, value ≠ .none := by
  cases h with
  | union layers last _ hvalues =>
    rw [hvalues]
    exact List.forall_mem_map.mpr fun _ _ ↦ nofun
  | _ => simp

/-- There is one tree over given operands. -/
theorem Node.Tree.unique (h : node.Tree values product) (h' : node.Tree values product') :
    product = product' := by
  cases h with
  | union layers last _ hvalues =>
    cases h' with
    | union layers' last' _ hvalues' =>
      have hinjective : Function.Injective (Value.layer) := fun _ _ ↦ Value.layer.inj
      obtain ⟨rfl, hlast⟩ := List.append_inj' (List.map_injective_iff.mpr hinjective
        (hvalues.symm.trans hvalues')) rfl
      obtain rfl := List.head_eq_of_cons_eq hlast
      rfl
    | combined _ hoverlay => exact absurd rfl hoverlay
  | combined overlay hoverlay =>
    cases h' with
    | union => exact absurd rfl hoverlay
    | combined => rfl
  | _ => cases h'; rfl

/-- What is built is of the kind that the node tells, and an action has the verb of the command. -/
theorem Node.Tree.product_cases (h : node.Tree values product) :
    (node.product = .layer ∧ ∃ layer, product = .inl layer) ∨
      node.product = .action ∧ ∃ action, product = .inr action ∧
        node.command = action.verb.command := by
  cases h with
  | action verb layer => exact .inr ⟨rfl, _, rfl, rfl⟩
  | _ => exact .inl ⟨rfl, _, rfl⟩

end Tree

/-! ## Unions of many layers -/

private theorem Layer.unionAll?_concat {layers : List Layer} (h : layers ≠ []) (last : Layer) :
    unionAll? (layers ++ [last]) = some (layers.foldr (combined .union) last) := by
  induction layers with
  | nil => exact absurd rfl h
  | cons a rest ih =>
    rcases rest with _ | ⟨b, rest⟩
    · rfl
    · obtain ⟨c, others, hothers⟩ := List.exists_cons_of_ne_nil
        (List.append_ne_nil_of_right_ne_nil rest (List.cons_ne_nil last []))
      have hrest := ih (List.cons_ne_nil b rest)
      rw [List.cons_append, hothers] at hrest
      rw [List.cons_append, List.cons_append, hothers, unionAll?, hrest]
      rfl

private theorem Layer.exists_concat_of_unionAll? {layers : List Layer} {layer : Layer}
    (h : unionAll? layers = some layer) :
    ∃ before last, before ≠ [] ∧ layers = before ++ [last] := by
  rcases List.eq_nil_or_concat layers with rfl | ⟨before, last, rfl⟩
  · cases h
  · refine ⟨before, last, ?_, List.concat_eq_append⟩
    rintro rfl
    cases h

private theorem Constructor.layers?_map (layers : List Layer) :
    layers? (layers.map .layer) = some layers := by
  induction layers with
  | nil => rfl
  | cons layer layers ih =>
    rw [List.map_cons, layers?, ih]
    rfl

private theorem Constructor.eq_map_of_layers? {operands : List Operand} {layers : List Layer}
    (h : layers? operands = some layers) : operands = layers.map .layer := by
  induction operands generalizing layers with
  | nil =>
    rw [layers?] at h
    obtain rfl := Option.some.inj h
    rfl
  | cons operand operands ih =>
    rcases operand with layer | value
    · rw [layers?, Option.map_eq_map, Option.map_eq_some_iff] at h
      obtain ⟨others, hothers, rfl⟩ := h
      rw [ih hothers]
      rfl
    · cases h

/-! ## Building -/

section Build

variable {c : Constructor}

private theorem Constructor.tree_of_build {operands : List Operand} {product : Layer ⊕ Action}
    (h : c.build operands = .ok product) :
    c.node.Tree (operands.map Operand.toValue) product := by
  rw [build.eq_def] at h
  split at h
  · rename_i hnode
    rw [hnode, ← Except.ok.inj h]
    exact .source _
  · rename_i hnode
    rw [hnode, ← Except.ok.inj h]
    exact .filtered _ _ _
  · rename_i hnode
    rw [hnode, ← Except.ok.inj h]
    exact .bufferedInteger _ _
  · rename_i hnode
    rw [hnode, ← Except.ok.inj h]
    exact .buffered _ _
  · rename_i hnode
    split at h
    · cases h
    · rename_i layers hlayers
      split at h
      · cases h
      · rename_i layer hunion
        obtain ⟨before, last, hne, rfl⟩ := Layer.exists_concat_of_unionAll? hunion
        rw [Layer.unionAll?_concat hne last] at hunion
        rw [hnode, ← Except.ok.inj h, ← Option.some.inj hunion, eq_map_of_layers? hlayers]
        refine .union before last hne ?_
        rw [List.map_map]
        rfl
  · rename_i overlay a b hnot hnode
    rw [hnode, ← Except.ok.inj h]
    refine .combined _ ?_ _ _
    rintro rfl
    exact hnot rfl
  · rename_i hnode
    rw [hnode, ← Except.ok.inj h]
    exact .action _ _
  · cases h

theorem Constructor.build_of_tree {values : List Value} {product : Layer ⊕ Action}
    (h : c.node.Tree values product) :
    ∃ operands, operands.map Operand.toValue = values ∧ c.build operands = .ok product := by
  generalize hnode : c.node = node at h
  cases h with
  | source id => exact ⟨[.literal (.text id)], rfl, by rw [build.eq_def, hnode]⟩
  | filtered layer field value =>
    exact ⟨[.layer layer, .literal (.text field), .literal value], rfl, by rw [build.eq_def, hnode]⟩
  | buffered layer distance =>
    exact ⟨[.layer layer, .literal (.float distance)], rfl, by rw [build.eq_def, hnode]⟩
  | bufferedInteger layer distance =>
    exact ⟨[.layer layer, .literal (.integer distance)], rfl, by rw [build.eq_def, hnode]⟩
  | union layers last hlayers hvalues =>
    refine ⟨(layers ++ [last]).map .layer, by rw [hvalues, List.map_map]; rfl, ?_⟩
    rw [build.eq_def, hnode]
    dsimp only
    rw [layers?_map]
    dsimp only
    rw [Layer.unionAll?_concat hlayers]
  | combined overlay hoverlay a b =>
    refine ⟨[.layer a, .layer b], rfl, ?_⟩
    rw [build.eq_def, hnode]
    rcases overlay with _ | _ | _
    · exact absurd rfl hoverlay
    · rfl
    · rfl
  | action verb layer => exact ⟨[.layer layer], rfl, by rw [build.eq_def, hnode]⟩

/-- **What a constructor builds** is the tree over its operands, and nothing else. -/
theorem Constructor.build_eq_ok_iff {operands : List Operand} {product : Layer ⊕ Action} :
    c.build operands = .ok product ↔ c.node.Tree (operands.map Operand.toValue) product := by
  refine ⟨tree_of_build, fun htree ↦ ?_⟩
  obtain ⟨operands', hoperands, hbuild⟩ := build_of_tree htree
  obtain rfl := List.map_injective_iff.mpr Operand.toValue_injective hoperands
  exact hbuild

/-- What a constructor builds is what the catalog says that it builds, and an action has the verb by
which the constructor is called. -/
theorem Constructor.product_of_build (hc : c ∈ Catalog.constructors) {operands : List Operand}
    {product : Layer ⊕ Action} (h : c.build operands = .ok product) :
    (c.product = .layer ∧ ∃ layer, product = .inl layer) ∨
      c.product = .action ∧ ∃ action, product = .inr action ∧ c.name = action.verb.command := by
  obtain ⟨hname, hkind⟩ := Catalog.eq_of_mem hc
  rw [hname, hkind]
  exact (tree_of_build h).product_cases

end Build

end MapQuery
