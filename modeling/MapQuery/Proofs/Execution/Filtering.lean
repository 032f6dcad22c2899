import MapQuery.Memory.Town
import MapQuery.Proofs.Execution.Stability

/-!
# Filters one after the other

A filter keeps the features that match its condition, and leaves the fields as they are. So each
filter of a chain finds the field that it would find on the layer at the bottom, and compares with
the same value, whatever was filtered before it (`exists_filterData`). A chain therefore keeps the
features that match all of its conditions, in whatever order these are
(`Host.evaluate_filteredBy_perm`).

Which field a name means (`Field.IsMeant`), and with what a literal is compared on it
(`Literal.ComparesAs`), is stated here without the ways in which it is looked up.
-/

namespace MapQuery

open Memory Engine

/-! ## Fields -/

/-- The first element of the list with the property. -/
def IsFirstWith {α : Type} (p : α → Prop) (xs : List α) (x : α) : Prop :=
  p x ∧ ∃ before after, xs = before ++ x :: after ∧ ∀ y ∈ before, ¬p y

private theorem find?_eq_some_iff_isFirstWith {α : Type} {p : α → Bool} {xs : List α} {x : α} :
    xs.find? p = some x ↔ IsFirstWith (p · = true) xs x := by
  simp [List.find?_eq_some_iff_append, IsFirstWith]

/-- The field that a name means: the first one with exactly this name; if there is none, the first
one with this name in other letters; and if there is none of these either, the first one that is
shown under this name, in whatever letters. -/
inductive Field.IsMeant (fields : List Field) (name : String) (field : Field) : Prop
  | exactly (h : IsFirstWith (·.name = name) fields field)
  | inOtherCase (hexactly : ∀ f ∈ fields, f.name ≠ name)
    (h : IsFirstWith (fun f ↦ Text.lowercase f.name = Text.lowercase name) fields field)
  | asDisplayed (hname : ∀ f ∈ fields, Text.lowercase f.name ≠ Text.lowercase name)
    (h : IsFirstWith (fun f ↦ Text.lowercase f.displayName = Text.lowercase name) fields field)

theorem findField?_eq_some_iff {fields : List Field} {name : String} {field : Field} :
    findField? fields name = some field ↔ field.IsMeant fields name := by
  simp only [findField?, Option.orElse_eq_orElse, Option.orElse_eq_or, Option.or_eq_some_iff,
    find?_eq_some_iff_isFirstWith, List.find?_eq_none, decide_eq_true_eq, Text.sameName, beq_iff_eq]
  constructor
  · rintro (h | ⟨hexactly, h | ⟨hname, h⟩⟩)
    · exact .exactly h
    · exact .inOtherCase hexactly h
    · exact .asDisplayed hname h
  · rintro (h | ⟨hexactly, h⟩ | ⟨hname, h⟩)
    · exact Or.inl h
    · exact Or.inr ⟨hexactly, Or.inl h⟩
    · exact Or.inr ⟨fun f hf heq ↦ hname f hf (congrArg Text.lowercase heq), Or.inr ⟨hname, h⟩⟩

/-! ## Values -/

/-- The literal says that something is true, or that it is false. -/
inductive Literal.Says : Literal → Bool → Prop
  | boolean (value : Bool) : Says (.boolean value) value
  | yes {word : String} (h : Text.lowercase word ∈ ["true", "yes"]) : Says (.text word) true
  | no {word : String} (h : Text.lowercase word ∈ ["false", "no"]) : Says (.text word) false

/-- What a filter compares with on a field of the type: one and zero for what is said to be true or
false if the field holds whole numbers, and otherwise the literal as it stands. -/
inductive Literal.ComparesAs (type : FieldType) (literal : Literal) : FilterValue → Prop
  | one (htype : type.isInteger = true) (h : literal.Says true) :
    ComparesAs type literal (.integer 1)
  | zero (htype : type.isInteger = true) (h : literal.Says false) :
    ComparesAs type literal (.integer 0)
  | unchanged (h : type.isInteger = true → ∀ value, ¬literal.Says value) :
    ComparesAs type literal (.ofLiteral literal)

private theorem truthOfWord?_eq_some_iff {word : String} {value : Bool} :
    truthOfWord? word = some value ↔ (Literal.text word).Says value := by
  constructor
  · intro h
    rw [truthOfWord?] at h
    split at h
    · rename_i hyes
      obtain rfl := Option.some.inj h
      exact .yes (by simpa using hyes)
    · split at h
      · rename_i hno
        obtain rfl := Option.some.inj h
        exact .no (by simpa using hno)
      · cases h
  · intro h
    rw [truthOfWord?]
    cases h with
    | yes h => exact if_pos (by simpa using h)
    | no h =>
      obtain h | h : Text.lowercase word = "false" ∨ Text.lowercase word = "no" := by simpa using h
      · simp [h]
      · simp [h]

theorem forField_eq_ofLiteral {literal : Literal} (h : ∀ value, ¬literal.Says value) :
    FilterValue.forField true literal = .ofLiteral literal := by
  cases literal with
  | text word =>
    have hnone : truthOfWord? word = none :=
      Option.eq_none_iff_forall_ne_some.mpr fun value hvalue ↦
        h value (truthOfWord?_eq_some_iff.mp hvalue)
    rw [FilterValue.forField, hnone]
    rfl
  | boolean value => exact absurd (.boolean value) (h value)
  | integer value => rfl
  | float value => rfl

theorem forField_eq_integer {literal : Literal} {value : Bool} (h : literal.Says value) :
    FilterValue.forField true literal = .integer (numberOfTruth value) := by
  cases literal with
  | text word => rw [FilterValue.forField, truthOfWord?_eq_some_iff.mpr h]
  | boolean value =>
    cases h
    rfl
  | integer value => cases h
  | float value => cases h

private theorem forField_false (literal : Literal) :
    FilterValue.forField false literal = .ofLiteral literal := by
  cases literal <;> rfl

private theorem forField_eq_iff {type : FieldType} {literal : Literal} {wanted : FilterValue} :
    FilterValue.forField type.isInteger literal = wanted ↔ literal.ComparesAs type wanted := by
  constructor
  · rintro rfl
    cases htype : type.isInteger with
    | false =>
      rw [forField_false]
      exact .unchanged fun htrue ↦ absurd (htype.symm.trans htrue) Bool.false_ne_true
    | true =>
      by_cases hsays : ∃ value, literal.Says value
      · obtain ⟨value, hvalue⟩ := hsays
        rw [forField_eq_integer hvalue]
        cases value with
        | false => exact .zero htype hvalue
        | true => exact .one htype hvalue
      · rw [forField_eq_ofLiteral (not_exists.mp hsays)]
        exact .unchanged fun _ ↦ not_exists.mp hsays
  · intro h
    cases h with
    | one htype h =>
      rw [htype, forField_eq_integer h]
      rfl
    | zero htype h =>
      rw [htype, forField_eq_integer h]
      rfl
    | unchanged h =>
      cases htype : type.isInteger with
      | false => exact forField_false literal
      | true => exact forField_eq_ofLiteral (h htype)

/-! ## Conditions -/

structure Condition where
  field : String
  value : Literal

namespace Condition

variable {fields : List Field} {condition : Condition} {feature : Feature}

/-- The feature matches the condition, on the field that its name means among the given ones. -/
def Holds (fields : List Field) (condition : Condition) (feature : Feature) : Prop :=
  ∃ (field : Field) (wanted : FilterValue), field.IsMeant fields condition.field ∧
    condition.value.ComparesAs field.type wanted ∧
    wanted.matches (feature.value? field.name) = true

private theorem holds_iff {field : Field} (h : findField? fields condition.field = some field) :
    condition.Holds fields feature ↔
      (FilterValue.forField field.type.isInteger condition.value).matches
        (feature.value? field.name) = true := by
  constructor
  · rintro ⟨field', wanted, hfield, hwanted, hmatches⟩
    obtain rfl := Option.some.inj (h.symm.trans (findField?_eq_some_iff.mpr hfield))
    rwa [forField_eq_iff.mpr hwanted]
  · intro hmatches
    exact ⟨field, _, findField?_eq_some_iff.mp h, forField_eq_iff.mp rfl, hmatches⟩

private theorem not_holds_of_none (h : findField? fields condition.field = none) :
    ¬condition.Holds fields feature := by
  rintro ⟨field, wanted, hfield, -⟩
  rw [findField?_eq_some_iff.mpr hfield] at h
  cases h

instance (fields : List Field) (condition : Condition) (feature : Feature) :
    Decidable (condition.Holds fields feature) :=
  match h : findField? fields condition.field with
  | none => isFalse (not_holds_of_none h)
  | some _ => decidable_of_iff' _ (holds_iff h)

end Condition

/-- The layer with one filter after the other put on it, the first one closest to the layer. -/
def Layer.filteredBy (layer : Layer) (conditions : List Condition) : Layer :=
  conditions.foldl (fun layer condition ↦ .filtered layer condition.field condition.value) layer

/-! ## Chains of filters -/

section Chains

variable {settings : Settings} {layers : List FeatureCollection} {data : FeatureCollection}
  {engine between : Engine}

/-- **One filter** keeps the features that match its condition, and all fields. -/
theorem exists_filterData {condition : Condition} {field : Field} (hengine : engine.IsPlain)
    (hfield : field.IsMeant data.fields condition.field) :
    ∃ output after, filterData data condition.field condition.value engine = (.ok output, after) ∧
      after.IsPlain ∧ output.fields = data.fields ∧
      output.features = data.features.filter (condition.Holds data.fields) := by
  have hfind := findField?_eq_some_iff.mpr hfield
  have haccepted : engine.failing
      ≠ some (Request.extractByAttribute field.name
        (.forField field.type.isInteger condition.value)).operation := by
    rw [hengine.failing_eq]
    exact nofun
  have hask : (filterData data condition.field condition.value : Execution Engine _) = _ :=
    filterData_of_some hfind
  refine ⟨_, _, (congrFun hask engine).trans (ask_of_accepted haccepted),
    ⟨hengine.failing_eq, hengine.renumbers_eq⟩, ?_, ?_⟩
  · rw [handedOver_of_renumbers_eq_false hengine.renumbers_eq]
    rfl
  · rw [handedOver_of_renumbers_eq_false hengine.renumbers_eq]
    refine List.filter_congr fun feature _ ↦ ?_
    rw [Bool.eq_iff_iff, decide_eq_true_iff]
    exact (Condition.holds_iff hfind).symm

/-- **Filters one after the other** keep the features that match all conditions. -/
theorem exists_evaluate_filteredBy {layer : Layer} {conditions : List Condition}
    {resolved : Resolved FeatureCollection}
    (hlayer : evaluate settings layers layer engine = (.ok resolved, between))
    (hbetween : between.IsPlain)
    (hfields : ∀ c ∈ conditions, ∃ field : Field, field.IsMeant resolved.data.fields c.field) :
    ∃ filtered after,
      evaluate settings layers (layer.filteredBy conditions) engine = (.ok filtered, after) ∧
      filtered.origin = resolved.origin ∧
      filtered.data.features = resolved.data.features.filter
        fun feature ↦ ∀ c ∈ conditions, c.Holds resolved.data.fields feature := by
  induction conditions generalizing layer between resolved with
  | nil => exact ⟨resolved, between, hlayer, rfl, (List.filter_eq_self.mpr (by simp)).symm⟩
  | cons condition conditions ih =>
    obtain ⟨⟨field, hfield⟩, hothers⟩ := List.forall_mem_cons.mp hfields
    obtain ⟨output, after, hdata, hafter, hsame, hfeatures⟩ := exists_filterData hbetween hfield
    have hstep : evaluate settings layers (.filtered layer condition.field condition.value) engine
        = (.ok ⟨resolved.origin, output⟩, after) :=
      evaluate_filtered_eq_ok_iff.mpr ⟨resolved, between, hlayer, output, hdata, rfl⟩
    rw [← hsame] at hothers
    obtain ⟨filtered, last, heval, horigin, hrows⟩ := ih hstep hafter hothers
    refine ⟨filtered, last, heval, horigin, ?_⟩
    rw [hrows, hfeatures, List.filter_filter, hsame]
    refine List.filter_congr fun feature _ ↦ ?_
    simp [Bool.and_comm]

end Chains

/-- **A chain of filters is the conjunction of its conditions**, in any order. On an engine that
refuses nothing and gives no new numbers, filters on a layer of the project give its features that
match every condition, in the order of the layer, if each condition is on one of its fields. -/
theorem Host.evaluate_filteredBy_perm {settings : Settings} {host : Host Workspace Engine}
    {name : String} {layer : FeatureCollection} {conditions permuted : List Condition}
    (hengine : host.engine.IsPlain)
    (hlayer : findLayer? host.project.layers name = some layer)
    (hfields : ∀ c ∈ conditions, ∃ field : Field, field.IsMeant layer.fields c.field)
    (hperm : permuted.Perm conditions) :
    ∃ resolved after, Host.evaluate settings ((Layer.source name).filteredBy permuted) host
        = (.ok resolved, after) ∧
      resolved.origin = layer ∧
      resolved.data.features
        = layer.features.filter fun feature ↦ ∀ c ∈ conditions, c.Holds layer.fields feature := by
  have hsource : MapQuery.evaluate settings host.project.layers (.source name) host.engine
      = (.ok ⟨layer, layer⟩, host.engine) :=
    evaluate_source_eq_ok_iff.mpr ⟨layer, hlayer, rfl, rfl⟩
  have hpermuted : ∀ c ∈ permuted, ∃ field : Field, field.IsMeant layer.fields c.field :=
    fun c hc ↦ hfields c (hperm.mem_iff.mp hc)
  obtain ⟨resolved, after, heval, horigin, hrows⟩ :=
    exists_evaluate_filteredBy hsource hengine hpermuted
  refine ⟨resolved, _, Host.evaluate_of_eq heval, horigin, hrows.trans ?_⟩
  refine List.filter_congr fun feature _ ↦ ?_
  simp only [hperm.mem_iff]

/-- Three conditions on the buildings, with a name in other letters, a name that is shown, and a
word for a truth value on whole numbers. -/
theorem Host.evaluate_filteredBy_perm_buildings :
    let type : Condition := ⟨"TYPE", .text "res"⟩
    let year : Condition := ⟨"year OF construction", .integer 1950⟩
    let heritage : Condition := ⟨"heritage", .text "Yes"⟩
    let host : Host Workspace Engine := ⟨Town.workspace, .new⟩
    ∃ resolved after, Host.evaluate .default
        ((Layer.source "buildings").filteredBy [heritage, year, type]) host
          = (.ok resolved, after) ∧
      resolved.data.features.map (·.value numberField) = [.integer 1] := by
  intro type year heritage host
  have hlayer : findLayer? host.project.layers "buildings" = some Town.buildings := by rfl
  have hfields : ∀ c ∈ [type, year, heritage],
      ∃ field : Field, field.IsMeant Town.buildings.fields c.field := by
    have hfound : ∀ c ∈ [type, year, heritage],
        (findField? Town.buildings.fields c.field).isSome = true := by
      decide +kernel
    intro c hc
    obtain ⟨field, hfield⟩ := Option.isSome_iff_exists.mp (hfound c hc)
    exact ⟨field, findField?_eq_some_iff.mp hfield⟩
  have hperm : [heritage, year, type].Perm [type, year, heritage] :=
    List.reverse_perm [type, year, heritage]
  obtain ⟨resolved, after, heval, -, hrows⟩ :=
    @Host.evaluate_filteredBy_perm .default host _ _ _ _ ⟨rfl, rfl⟩ hlayer hfields hperm
  refine ⟨resolved, after, heval, ?_⟩
  rw [hrows]
  decide +kernel

end MapQuery
