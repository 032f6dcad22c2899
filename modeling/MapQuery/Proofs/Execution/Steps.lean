import MapQuery.Proofs.Memory.Requests

/-!
# The steps of an evaluation

A layer is evaluated to a result exactly if its operands are, one after the other, and the engine
then does what its root asks for. Every node asks the engine in memory for one thing or a few: a
filter for one extraction, a buffer for one buffer or for three things where the data have to be
projected and back, an intersection for a merged overlay and then for one of two things with it.

An evaluation is nothing but such requests, one after the other. What holds of every request and of
every computation that is put together of two others for which it holds, holds of every evaluation
(`IsCompositional.evaluate`); that it leaves the mode of the engine as it is, is a first example.
-/

namespace MapQuery

open Memory

/-! ## Steps of an evaluation -/

section Steps

variable {δ β : Type} [Dataset δ] [Processing β δ] {settings : Settings} {layers : List δ}
  {engine engine' : β} {resolved : Resolved δ}

theorem evaluate_source_eq_ok_iff {name : String} :
    evaluate settings layers (.source name) engine = (.ok resolved, engine') ↔
      ∃ layer, findLayer? layers name = some layer ∧ ⟨layer, layer⟩ = resolved ∧
        engine = engine' := by
  rw [evaluate]
  cases findLayer? layers name with
  | none => exact iff_of_false nofun nofun
  | some layer => simp [pure_apply_eq_ok_iff]

theorem evaluate_filtered_eq_ok_iff {layer : Layer} {field : String} {value : Literal} :
    evaluate settings layers (.filtered layer field value) engine = (.ok resolved, engine') ↔
      ∃ source between, evaluate settings layers layer engine = (.ok source, between) ∧
        ∃ data, filterData source.data field value between = (.ok data, engine') ∧
          ⟨source.origin, data⟩ = resolved := by
  rw [evaluate]
  simp [bind_apply_eq_ok_iff, map_apply_eq_ok_iff]

theorem evaluate_buffered_eq_ok_iff {layer : Layer} {distance : Float} :
    evaluate settings layers (.buffered layer distance) engine = (.ok resolved, engine') ↔
      ∃ source between, evaluate settings layers layer engine = (.ok source, between) ∧
        ∃ data, bufferData settings source.data distance between = (.ok data, engine') ∧
          ⟨source.origin, data⟩ = resolved := by
  rw [evaluate]
  simp [bind_apply_eq_ok_iff, map_apply_eq_ok_iff]

theorem evaluate_combined_eq_ok_iff {overlay : Overlay} {a b : Layer} :
    evaluate settings layers (.combined overlay a b) engine = (.ok resolved, engine') ↔
      ∃ primary between, evaluate settings layers a engine = (.ok primary, between) ∧
        ∃ secondary between', evaluate settings layers b between = (.ok secondary, between') ∧
          ∃ data, combineData overlay primary.data secondary.data between' = (.ok data, engine') ∧
            ⟨primary.origin, data⟩ = resolved := by
  rw [evaluate]
  simp [bind_apply_eq_ok_iff, map_apply_eq_ok_iff]

end Steps

/-! ## Steps on the engine in memory -/

section Memory

variable {settings : Settings} {data primary secondary output : FeatureCollection}
  {engine engine' : Engine} {name : String} {literal : Literal} {distance : Float}

theorem filterData_of_none (h : findField? data.fields name = none) :
    (filterData data name literal : Execution Engine FeatureCollection)
      = throw (.unknownField name) := by
  have hfield : findField? (Dataset.fields data) name = none := h
  rw [filterData, hfield]

theorem filterData_of_some {field : Field} (h : findField? data.fields name = some field) :
    (filterData data name literal : Execution Engine FeatureCollection)
      = Engine.ask (.extractByAttribute field.name (.forField field.type.isInteger literal))
        (data.extractByAttribute · field.name (.forField field.type.isInteger literal)) := by
  have hfield : findField? (Dataset.fields data) name = some field := h
  rw [filterData, hfield]
  rfl

/-- **A filter** asks for one extraction, by the field that its name stands for. -/
theorem filterData_eq_ok_iff :
    filterData data name literal engine = (.ok output, engine') ↔
      ∃ field, findField? data.fields name = some field ∧
        Engine.ask (.extractByAttribute field.name (.forField field.type.isInteger literal))
          (data.extractByAttribute · field.name (.forField field.type.isInteger literal)) engine
            = (.ok output, engine') := by
  cases h : findField? data.fields name with
  | none =>
    rw [filterData_of_none h]
    exact iff_of_false nofun nofun
  | some field => simp [filterData_of_some h]

theorem bufferData_of_metric (h : data.crs.isMetric = true) :
    (bufferData settings data distance : Execution Engine FeatureCollection)
      = Engine.ask (.buffer (settings.bufferParameters distance)) (data.buffer · distance) :=
  if_pos h

theorem bufferData_of_not_metric (h : data.crs.isMetric = false) :
    (bufferData settings data distance : Execution Engine FeatureCollection)
      = (do
        let projected ← Engine.ask (.reproject settings.metricSystem)
          (data.reproject · settings.metricSystem)
        let buffered ← Engine.ask (.buffer (settings.bufferParameters distance))
          (projected.buffer · distance)
        Engine.ask (.reproject data.crs) (buffered.reproject · data.crs)) :=
  if_neg (Bool.eq_false_iff.mp h)

/-- **A buffer** asks for one buffer, or else for a projection before it and one behind it. -/
theorem bufferData_eq_ok_iff :
    bufferData settings data distance engine = (.ok output, engine') ↔
      data.crs.isMetric = true ∧
        Engine.ask (.buffer (settings.bufferParameters distance)) (data.buffer · distance) engine
          = (.ok output, engine') ∨
      data.crs.isMetric = false ∧ ∃ projected between,
        Engine.ask (.reproject settings.metricSystem) (data.reproject · settings.metricSystem)
          engine = (.ok projected, between) ∧ ∃ buffered between',
        Engine.ask (.buffer (settings.bufferParameters distance)) (projected.buffer · distance)
          between = (.ok buffered, between') ∧
        Engine.ask (.reproject data.crs) (buffered.reproject · data.crs) between'
          = (.ok output, engine') := by
  cases h : data.crs.isMetric with
  | true => simp [bufferData_of_metric h]
  | false => simp [bufferData_of_not_metric h, bind_apply_eq_ok_iff]

theorem intersectData_eq (primary secondary : FeatureCollection) :
    (intersectData primary secondary : Execution Engine FeatureCollection)
      = (do
        let overlay ← Engine.ask (.dissolve true) (secondary.dissolve · true)
        if primary.kind = .polygon ∧ secondary.kind = .line then
          Engine.ask (.extractByLocation .intersects) (primary.extractByLocation overlay)
        else Engine.ask .intersection (primary.intersection overlay)) :=
  rfl

/-- **An intersection** asks for the merged overlay, and then for what touches it if that is all
there can be, or else for what the two have in common. -/
theorem intersectData_eq_ok_iff :
    intersectData primary secondary engine = (.ok output, engine') ↔
      ∃ overlay between,
        Engine.ask (.dissolve true) (secondary.dissolve · true) engine = (.ok overlay, between) ∧
        (if primary.kind = .polygon ∧ secondary.kind = .line then
          Engine.ask (.extractByLocation .intersects) (primary.extractByLocation overlay)
        else Engine.ask .intersection (primary.intersection overlay)) between
          = (.ok output, engine') := by
  rw [intersectData_eq, bind_apply_eq_ok_iff]

/-! ## What all evaluations have in common -/

open Engine

/-- A property of computations that every single request has, and that computations which are put
together of such ones have as well. -/
structure IsCompositional (P : ∀ {α : Type}, Execution Engine α → Prop) : Prop where
  pure {α : Type} (a : α) : P (pure a : Execution Engine α)
  throw {α : Type} (e : ExecutionError) : P (throw e : Execution Engine α)
  ask (request : Request) (make : String → FeatureCollection) : P (Engine.ask request make)
  bind {α β : Type} {x : Execution Engine α} {f : α → Execution Engine β} :
    P x → (∀ a, P (f a)) → P (x >>= f)

namespace IsCompositional

variable {P : ∀ {α : Type}, Execution Engine α → Prop}

theorem filterData (h : IsCompositional P) (data : FeatureCollection) (name : String)
    (literal : Literal) :
    P (MapQuery.filterData data name literal : Execution Engine FeatureCollection) := by
  cases hfield : findField? data.fields name with
  | none =>
    rw [filterData_of_none hfield]
    exact h.throw _
  | some field =>
    rw [filterData_of_some hfield]
    exact h.ask _ _

theorem bufferData (h : IsCompositional P) (settings : Settings) (data : FeatureCollection)
    (distance : Float) :
    P (MapQuery.bufferData settings data distance : Execution Engine FeatureCollection) := by
  cases hmetric : data.crs.isMetric with
  | true =>
    rw [bufferData_of_metric hmetric]
    exact h.ask _ _
  | false =>
    rw [bufferData_of_not_metric hmetric]
    exact h.bind (h.ask _ _) fun projected ↦ h.bind (h.ask _ _) fun buffered ↦ h.ask _ _

theorem combineData (h : IsCompositional P) (overlay : Overlay)
    (primary secondary : FeatureCollection) :
    P (MapQuery.combineData overlay primary secondary : Execution Engine FeatureCollection) := by
  cases overlay with
  | union => exact h.ask .union _
  | difference => exact h.ask .difference _
  | intersection =>
    change P (intersectData primary secondary)
    rw [intersectData_eq]
    refine h.bind (h.ask _ _) fun merged ↦ ?_
    split
    · exact h.ask _ _
    · exact h.ask _ _

/-- **An evaluation is put together of requests**, so it has each property that requests have and
that is kept when computations are put together. -/
theorem evaluate (h : IsCompositional P) (settings : Settings) (layers : List FeatureCollection)
    (layer : Layer) :
    P (MapQuery.evaluate settings layers layer :
      Execution Engine (Resolved FeatureCollection)) := by
  induction layer with
  | source name =>
    rw [MapQuery.evaluate]
    cases findLayer? layers name with
    | none => exact h.throw _
    | some layer => exact h.pure _
  | filtered layer field value ih =>
    rw [MapQuery.evaluate]
    exact h.bind ih fun source ↦ h.bind (h.filterData _ _ _) fun data ↦ h.pure _
  | buffered layer distance ih =>
    rw [MapQuery.evaluate]
    exact h.bind ih fun source ↦ h.bind (h.bufferData _ _ _) fun data ↦ h.pure _
  | combined overlay a b iha ihb =>
    rw [MapQuery.evaluate]
    exact h.bind iha fun primary ↦ h.bind ihb fun secondary ↦
      h.bind (h.combineData _ _ _) fun data ↦ h.pure _

end IsCompositional

/-- **An evaluation keeps the mode** of the engine, whether it goes through or not. -/
theorem keepsMode_evaluate (settings : Settings) (layers : List FeatureCollection)
    (layer : Layer) :
    KeepsMode (evaluate settings layers layer : Execution Engine (Resolved FeatureCollection)) :=
  have hmode : IsCompositional KeepsMode := ⟨keepsMode_pure, keepsMode_throw, keepsMode_ask, .bind⟩
  hmode.evaluate settings layers layer

end Memory

end MapQuery
