import MapQuery.Memory.Town
import MapQuery.Proofs.Execution.Steps
import MapQuery.Schema.Description

/-!
# What is described can be asked for

A description names layers by the names that users see and fields by the names under which they are
stored. A question uses these names, and an evaluation looks them up again, among ids, names and
short names, and among names of fields that are shown or written in other letters.

A layer is found by its name if no other layer goes by this name (`findLayer?_of_namesApart`), and a
field of a layer is found by its name if no other field of the layer has this name, since an exact
name goes before everything else (`findField?_of_nodup`). So every field that is described can be
filtered on, and the engine gets exactly the field that was described (`Host.evaluate_offered`).
-/

namespace MapQuery

open Memory

/-! ## Descriptions -/

section Describe

theorem exists_of_mapM_eq_ok {ε α β : Type} {f : α → Except ε β} {xs : List α} {ys : List β}
    {i : ℕ} {y : β} (h : xs.mapM f = .ok ys) (hy : ys[i]? = some y) :
    ∃ x, xs[i]? = some x ∧ f x = .ok y := by
  induction xs generalizing ys i with
  | nil =>
    obtain rfl : [] = ys := Except.ok.inj h
    cases hy
  | cons x xs ih =>
    rw [List.mapM_cons] at h
    cases hx : f x with
    | error e =>
      rw [hx] at h
      cases h
    | ok first =>
      cases hxs : xs.mapM f with
      | error e =>
        rw [hx, hxs] at h
        cases h
      | ok rest =>
        rw [hx, hxs] at h
        obtain rfl : first :: rest = ys := Except.ok.inj h
        cases i with
        | zero =>
          obtain rfl : first = y := Option.some.inj hy
          exact ⟨x, rfl, hx⟩
        | succ i => exact ih hxs hy

variable {δ : Type} [Dataset δ] {layer : δ} {described : LayerDescription}
  {offered : FieldDescription}

private theorem describeField_id {name : String} {classification : Option Classification}
    {field : Field} (h : describeField name classification field = .ok offered) :
    offered.id = field.name := by
  rw [describeField] at h
  split at h
  · cases h
  · obtain rfl := Except.ok.inj h
    rfl

/-- **What is told of a layer**: its id, its name and its fields in their order, each under the name
by which it is stored. -/
theorem describeLayer_eq_ok (h : describeLayer layer = .ok described) :
    described.id = Dataset.id layer ∧ described.name = Dataset.name layer ∧
      ∀ (j : ℕ) (offered : FieldDescription), described.fields[j]? = some offered →
        ∃ field : Field, (Dataset.fields layer)[j]? = some field ∧ offered.id = field.name := by
  rw [describeLayer] at h
  cases hfields : (Dataset.fields layer).mapM
    (describeField (Dataset.name layer) (Dataset.classification layer)) with
  | error e =>
    rw [hfields] at h
    cases h
  | ok fields =>
    rw [hfields] at h
    obtain rfl := Except.ok.inj h
    refine ⟨rfl, rfl, fun j offered hoffered ↦ ?_⟩
    obtain ⟨field, hfield, hdescribe⟩ := exists_of_mapM_eq_ok hfields hoffered
    exact ⟨field, hfield, describeField_id hdescribe⟩

private theorem exists_of_describeProject_eq_ok {π : Type} [Project π δ] {project : π}
    {schema : Schema} {i : ℕ} (h : describeProject project = .ok schema)
    (hi : schema.layers[i]? = some described) :
    ∃ layer, (Project.layers project)[i]? = some layer ∧ describeLayer layer = .ok described := by
  rw [describeProject] at h
  cases hlayers : (Project.layers project).mapM describeLayer with
  | error e =>
    rw [hlayers] at h
    cases h
  | ok layers =>
    rw [hlayers] at h
    obtain rfl := Except.ok.inj h
    exact exists_of_mapM_eq_ok hlayers hi

end Describe

/-! ## Names that mean one thing -/

section Names

/-- The name of the layer does not mean the other layer: it is not the id of the other one, nor, in
whatever letters, its name or its short name. -/
def Memory.FeatureCollection.NameApart (layer other : FeatureCollection) : Prop :=
  layer.name ≠ other.id ∧ Text.lowercase layer.name ≠ Text.lowercase other.name ∧
    ∀ short ∈ other.shortName, Text.lowercase layer.name ≠ Text.lowercase short

/-- No layer has a name that means another one. -/
def NamesApart (layers : List FeatureCollection) : Prop :=
  layers.Pairwise fun a b ↦ a.NameApart b ∧ b.NameApart a

variable {layers : List FeatureCollection} {layer other : FeatureCollection} {fields : List Field}
  {field : Field} {i : ℕ}

private theorem goesBy_name (layer : FeatureCollection) : goesBy layer layer.name = true := by
  have hname : Text.sameName (Dataset.name layer) layer.name = true := beq_self_eq_true _
  rw [goesBy, hname, Bool.or_true, Bool.true_or]

private theorem goesBy_eq_false (h : layer.NameApart other) : goesBy other layer.name = false := by
  obtain ⟨hid, hname, hshort⟩ := h
  have hidFalse : (Dataset.id other == layer.name) = false := beq_false_of_ne hid.symm
  have hnameFalse : Text.sameName (Dataset.name other) layer.name = false :=
    beq_false_of_ne hname.symm
  have hshortFalse : (Dataset.shortName other).any (Text.sameName · layer.name) = false := by
    rw [Option.any_eq_false]
    intro short hmem
    exact beq_false_of_ne (hshort short hmem).symm
  rw [goesBy, hidFalse, hnameFalse, hshortFalse]
  rfl

/-- **A layer is found by its name** if no other layer can be meant. -/
theorem findLayer?_of_namesApart (h : NamesApart layers) (hlayer : layers[i]? = some layer) :
    findLayer? layers layer.name = some layer := by
  obtain ⟨hi, rfl⟩ := List.getElem?_eq_some_iff.mp hlayer
  refine List.find?_eq_some_iff_getElem.mpr ⟨goesBy_name _, i, hi, rfl, fun j hj ↦ ?_⟩
  have hapart := (List.pairwise_iff_getElem.mp h j i (Nat.lt_trans hj hi) hi hj).2
  rw [goesBy_eq_false hapart, Bool.not_false]

/-- **A field is found by its name** if no other field has this name. -/
theorem findField?_of_nodup (h : (fields.map (·.name)).Nodup) (hfield : fields[i]? = some field) :
    findField? fields field.name = some field := by
  -- The exact name is tried first, so that other letters and shown names do not come into it.
  obtain ⟨hi, rfl⟩ := List.getElem?_eq_some_iff.mp hfield
  have hexact : fields.find? (·.name = fields[i].name) = some fields[i] := by
    refine List.find?_eq_some_iff_getElem.mpr ⟨decide_eq_true rfl, i, hi, rfl, fun j hj ↦ ?_⟩
    have hdistinct := List.pairwise_iff_getElem.mp (List.pairwise_map.mp h) j i
      (Nat.lt_trans hj hi) hi hj
    rw [decide_eq_false hdistinct, Bool.not_false]
  rw [findField?, hexact]
  rfl

end Names

/-! ## Asking for what is described -/

/-- **What is described can be asked for.** In a project that can be described, in which no layer
has a name that means another one and the fields of a layer have different names, a filter on any
field that is told of any layer can be evaluated on an engine that refuses nothing, whatever it
compares with. The origin is the project layer that was described, and the engine gets one request,
to filter on the field that was described. -/
theorem Host.evaluate_offered {settings : Settings} {host : Host Workspace Engine} {schema : Schema}
    {described : LayerDescription} {offered : FieldDescription} {i j : ℕ}
    (hengine : host.engine.failing = none) (hschema : describeProject host.project = .ok schema)
    (hlayers : NamesApart host.project.layers)
    (hfields : ∀ layer ∈ host.project.layers, (layer.fields.map (·.name)).Nodup)
    (hdescribed : schema.layers[i]? = some described)
    (hoffered : described.fields[j]? = some offered) (value : Literal) :
    ∃ resolved after field,
      Host.evaluate settings (.filtered (.source described.name) offered.id value) host
        = (.ok resolved, after) ∧
      host.project.layers[i]? = some resolved.origin ∧ resolved.origin.id = described.id ∧
      resolved.origin.fields[j]? = some field ∧ field.name = offered.id ∧
      after.engine.requests = host.engine.requests
        ++ [.extractByAttribute field.name (.forField field.type.isInteger value)] := by
  obtain ⟨layer, hlayer, hdescribe⟩ := exists_of_describeProject_eq_ok hschema hdescribed
  obtain ⟨hid, hname, hoffers⟩ := describeLayer_eq_ok hdescribe
  obtain ⟨field, hfield, hoffer⟩ := hoffers j offered hoffered
  have hfind : findLayer? host.project.layers described.name = some layer := by
    rw [hname]
    exact findLayer?_of_namesApart hlayers hlayer
  have hnative : findField? layer.fields offered.id = some field := by
    rw [hoffer]
    exact findField?_of_nodup (hfields layer (List.mem_of_getElem? hlayer)) hfield
  have hsource : MapQuery.evaluate settings host.project.layers (.source described.name) host.engine
      = (.ok ⟨layer, layer⟩, host.engine) :=
    evaluate_source_eq_ok_iff.mpr ⟨layer, hfind, rfl, rfl⟩
  have haccepted : host.engine.failing ≠ some (Request.extractByAttribute field.name
      (.forField field.type.isInteger value)).operation := by
    rw [hengine]
    exact nofun
  have hfilter := filterData_eq_ok_iff.mpr ⟨field, hnative, Engine.ask_of_accepted haccepted⟩
  have hevaluate := evaluate_filtered_eq_ok_iff.mpr
    ⟨⟨layer, layer⟩, host.engine, hsource, _, hfilter, rfl⟩
  exact ⟨_, _, field, Host.evaluate_of_eq hevaluate, hlayer, hid.symm, hfield, hoffer.symm, rfl⟩

/-- The town is described, and its buildings can be filtered on whether they are protected. -/
theorem Host.evaluate_offered_heritage :
    let host : Host Workspace Engine := ⟨Town.workspace, .new⟩
    ∃ schema described offered, describeProject host.project = .ok schema ∧
      NamesApart host.project.layers ∧
      (∀ layer ∈ host.project.layers, (layer.fields.map (·.name)).Nodup) ∧
      schema.layers[0]? = some described ∧ described.fields[3]? = some offered ∧
      ∃ resolved after, Host.evaluate .default
          (.filtered (.source described.name) offered.id (.boolean true)) host
            = (.ok resolved, after) ∧
        resolved.origin = Town.buildings ∧
        after.engine.requests = [.extractByAttribute "heritage" (.integer 1)] := by
  intro host
  have hlayers : NamesApart host.project.layers := by
    unfold NamesApart FeatureCollection.NameApart
    decide +kernel
  have hfields : ∀ layer ∈ host.project.layers, (layer.fields.map (·.name)).Nodup := by
    decide +kernel
  -- Only that there is such a field is computed, not what is told of it.
  have hoffer : ((describeProject host.project).toOption.bind fun schema ↦
      schema.layers[0]?.bind (·.fields[3]?)).isSome = true := by decide +kernel
  rcases hschema : describeProject host.project with error | schema
  · rw [hschema] at hoffer
    cases hoffer
  · rw [hschema] at hoffer
    obtain ⟨offered, hsome⟩ := Option.isSome_iff_exists.mp hoffer
    change (schema.layers[0]?.bind (·.fields[3]?)) = some offered at hsome
    obtain ⟨described, hdescribed, hoffered⟩ := Option.bind_eq_some_iff.mp hsome
    obtain ⟨resolved, after, field, hevaluate, horigin, -, hfield, -, hrequests⟩ :=
      @Host.evaluate_offered .default host schema described offered 0 3 rfl hschema hlayers hfields
        hdescribed hoffered (.boolean true)
    have hbuildings : resolved.origin = Town.buildings := (Option.some.inj horigin).symm
    rw [hbuildings] at hfield
    obtain rfl : ⟨"heritage", "heritage", .int32⟩ = field := Option.some.inj hfield
    exact ⟨schema, described, offered, rfl, hlayers, hfields, hdescribed, hoffered, resolved, after,
      hevaluate, hbuildings, hrequests⟩

end MapQuery
