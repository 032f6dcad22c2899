import Mathlib.Data.List.Basic
import MapQuery.Proofs.Execution.Steps

/-!
# Where the features of data come from

Every operation but the union makes the features of its output out of those of its first input. It
keeps some of them, changes their envelopes, or cuts them into fragments; their attributes stay. So
where no union lies on the way to the primary leaf, each feature of the data carries the values of a
feature of the project layer there (`takesValues_of_evaluate`), however often it was derived and
whatever the secondary operands are.

An engine that numbers features afresh writes to one field. For any other field nothing changes.
-/

namespace MapQuery

open Memory

/-! ## Values that are taken along -/

/-- Each feature of the output has its value of the field from a feature of the input. -/
def TakesValues (field : String) (input output : FeatureCollection) : Prop :=
  ∀ feature ∈ output.features, ∃ source ∈ input.features, feature.value field = source.value field

namespace TakesValues

variable {field : String} {first second third : FeatureCollection}

theorem refl (field : String) (data : FeatureCollection) : TakesValues field data data :=
  fun feature h ↦ ⟨feature, h, rfl⟩

theorem trans (h : TakesValues field first second) (h' : TakesValues field second third) :
    TakesValues field first third := by
  intro feature hfeature
  obtain ⟨between, hbetween, heq⟩ := h' feature hfeature
  obtain ⟨source, hsource, heq'⟩ := h between hbetween
  exact ⟨source, hsource, heq.trans heq'⟩

theorem of_subset (h : second.features ⊆ first.features) : TakesValues field first second :=
  fun feature hfeature ↦ ⟨feature, h hfeature, rfl⟩

private theorem of_mapEnvelope {change : Envelope → Envelope}
    (h : second.features = first.features.map (·.mapEnvelope change)) :
    TakesValues field first second := by
  intro feature hfeature
  rw [h] at hfeature
  obtain ⟨source, hsource, rfl⟩ := List.mem_map.mp hfeature
  exact ⟨source, hsource, rfl⟩

end TakesValues

/-! ## One operation -/

namespace Memory.FeatureCollection

variable (field : String) (input overlay : FeatureCollection) (id : String)

private theorem takesValues_extractByAttribute (name : String) (wanted : FilterValue) :
    TakesValues field input (input.extractByAttribute id name wanted) :=
  .of_subset (List.filter_subset_self _)

private theorem takesValues_buffer (distance : Float) :
    TakesValues field input (input.buffer id distance) :=
  .of_mapEnvelope rfl

private theorem takesValues_reproject (target : Crs) :
    TakesValues field input (input.reproject id target) :=
  .of_mapEnvelope rfl

private theorem takesValues_difference : TakesValues field input (input.difference overlay id) :=
  .of_subset (List.filter_subset_self _)

private theorem takesValues_intersection :
    TakesValues field input (input.intersection overlay id) := by
  intro feature h
  obtain ⟨source, hsource, hfragment⟩ := List.mem_flatMap.mp h
  obtain ⟨other, -, rfl⟩ := List.mem_map.mp hfragment
  exact ⟨source, hsource, rfl⟩

private theorem takesValues_extractByLocation :
    TakesValues field input (input.extractByLocation overlay id) :=
  .of_subset (List.filter_subset_self _)

end Memory.FeatureCollection

/-! ## New numbers -/

namespace Memory.Engine

/-- The engine does not write to the field. -/
def Spares (engine : Engine) (field : String) : Prop :=
  engine.renumbers = false ∨ field ≠ numberField

variable {engine engine' : Engine} {field : String}

theorem Spares.of_keepsMode {α : Type} {x : Execution Engine α}
    {result : Except ExecutionError α} (hfield : engine.Spares field) (hx : KeepsMode x)
    (h : x engine = (result, engine')) : engine'.Spares field :=
  hfield.imp_left (hx.renumbers_eq h).trans

private theorem takesValues_handedOver (hfield : engine.Spares field) (output : FeatureCollection) :
    TakesValues field output (engine.handedOver output) := by
  rw [handedOver]
  split
  next hrenumbers =>
    have hne : field ≠ numberField := hfield.resolve_left (by simp [hrenumbers])
    intro feature h
    obtain ⟨i, hi, rfl⟩ := List.mem_mapIdx.mp h
    refine ⟨output.features[i], List.getElem_mem hi, ?_⟩
    rw [Feature.value, Feature.setNumber, Feature.value?_set_of_ne _ _ hne, Feature.value]
  next => exact .refl field output

theorem takesValues_of_ask {request : Request} {make : String → FeatureCollection}
    {input output : FeatureCollection} (hfield : engine.Spares field)
    (h : ask request make engine = (.ok output, engine'))
    (hmake : ∀ id, TakesValues field input (make id)) : TakesValues field input output := by
  obtain ⟨-, rfl, -⟩ := ask_eq_ok_iff.mp h
  exact (hmake engine.nextId).trans (takesValues_handedOver hfield _)

end Memory.Engine

/-! ## One node -/

open Engine FeatureCollection

section Steps

variable {settings : Settings} {data primary secondary output : FeatureCollection} {field : String}
  {engine engine' : Engine}

private theorem takesValues_of_filterData {name : String} {literal : Literal}
    (hfield : engine.Spares field)
    (h : filterData data name literal engine = (.ok output, engine')) :
    TakesValues field data output := by
  obtain ⟨native, -, hask⟩ := filterData_eq_ok_iff.mp h
  exact takesValues_of_ask hfield hask fun id ↦ takesValues_extractByAttribute field data id _ _

private theorem takesValues_of_bufferData {distance : Float} (hfield : engine.Spares field)
    (h : bufferData settings data distance engine = (.ok output, engine')) :
    TakesValues field data output := by
  rcases bufferData_eq_ok_iff.mp h with
    ⟨-, hask⟩ | ⟨-, projected, between, hproject, buffered, between', hbuffer, hback⟩
  · exact takesValues_of_ask hfield hask fun id ↦ takesValues_buffer field data id _
  · have hfield' : between.Spares field := hfield.of_keepsMode (keepsMode_ask _ _) hproject
    have hfield'' : between'.Spares field := hfield'.of_keepsMode (keepsMode_ask _ _) hbuffer
    have hprojected : TakesValues field data projected :=
      takesValues_of_ask hfield hproject fun id ↦ takesValues_reproject field data id _
    have hbuffered : TakesValues field projected buffered :=
      takesValues_of_ask hfield' hbuffer fun id ↦ takesValues_buffer field projected id _
    have houtput : TakesValues field buffered output :=
      takesValues_of_ask hfield'' hback fun id ↦ takesValues_reproject field buffered id _
    exact hprojected.trans (hbuffered.trans houtput)

private theorem takesValues_of_combineData {overlay : Overlay} (hunion : overlay ≠ .union)
    (hfield : engine.Spares field)
    (h : combineData overlay primary secondary engine = (.ok output, engine')) :
    TakesValues field primary output := by
  cases overlay with
  | union => exact absurd rfl hunion
  | difference =>
    exact takesValues_of_ask hfield h fun id ↦ takesValues_difference field primary secondary id
  | intersection =>
    obtain ⟨merged, between, hmerge, hask⟩ := intersectData_eq_ok_iff.mp h
    have hfield' : between.Spares field := hfield.of_keepsMode (keepsMode_ask _ _) hmerge
    split at hask
    · exact takesValues_of_ask hfield' hask fun id ↦
        takesValues_extractByLocation field primary merged id
    · exact takesValues_of_ask hfield' hask fun id ↦
        takesValues_intersection field primary merged id

end Steps

/-! ## A whole evaluation -/

/-- No node on the way to the primary leaf is a union. -/
def Layer.AvoidsUnion : Layer → Prop
  | source _ => True
  | filtered layer _ _ => layer.AvoidsUnion
  | buffered layer _ => layer.AvoidsUnion
  | combined overlay a _ => overlay ≠ .union ∧ a.AvoidsUnion

variable {settings : Settings} {layers : List FeatureCollection} {engine engine' : Engine}
  {field : String}

/-- **Features come from the origin.** Without a union on the way to the primary leaf, each feature
of the data has its values from a feature of the project layer there. -/
theorem takesValues_of_evaluate {layer : Layer} {resolved : Resolved FeatureCollection}
    (hunion : layer.AvoidsUnion) (hfield : engine.Spares field)
    (h : evaluate settings layers layer engine = (.ok resolved, engine')) :
    TakesValues field resolved.origin resolved.data := by
  induction layer generalizing engine engine' resolved with
  | source name =>
    obtain ⟨layer, -, rfl, -⟩ := evaluate_source_eq_ok_iff.mp h
    exact .refl field layer
  | filtered layer name value ih =>
    obtain ⟨source, between, hsource, data, hdata, rfl⟩ := evaluate_filtered_eq_ok_iff.mp h
    have hfield' := hfield.of_keepsMode (keepsMode_evaluate settings layers layer) hsource
    exact (ih hunion hfield hsource).trans (takesValues_of_filterData hfield' hdata)
  | buffered layer distance ih =>
    obtain ⟨source, between, hsource, data, hdata, rfl⟩ := evaluate_buffered_eq_ok_iff.mp h
    have hfield' := hfield.of_keepsMode (keepsMode_evaluate settings layers layer) hsource
    exact (ih hunion hfield hsource).trans (takesValues_of_bufferData hfield' hdata)
  | combined overlay a b iha _ =>
    obtain ⟨primary, between, hprimary, secondary, between', hsecondary, data, hdata, rfl⟩ :=
      evaluate_combined_eq_ok_iff.mp h
    -- The secondary operand is evaluated in between, and may do what it likes but for the mode.
    have hfield' := hfield.of_keepsMode (keepsMode_evaluate settings layers a) hprimary
    have hfield'' := hfield'.of_keepsMode (keepsMode_evaluate settings layers b) hsecondary
    exact (iha hunion.2 hfield hprimary).trans
      (takesValues_of_combineData hunion.1 hfield'' hdata)

end MapQuery
