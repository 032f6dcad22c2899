import MapQuery.Execution.Lookup
import MapQuery.Settings

/-!
# Evaluating layers

A layer is evaluated from its leaves upwards, the primary operand of a combination before the
secondary one. Each node turns into requests to the engine; the same node in two places is evaluated
twice. Nothing is changed in the project, which is given by its layers.

The result keeps the project layer at the primary leaf beside the data. That layer is what an action
is about, also where the data are derived.

Two nodes need more than one request.
* A buffer measures in metres. Data in other units go to the metric coordinate reference system of
  the settings and come back afterwards.
* The secondary operand of an intersection is dissolved first, so that its overlaps do not give a
  feature twice. If polygons are intersected with lines nothing has an area, and the polygons that
  are met are kept as a whole.
-/

namespace MapQuery

inductive ExecutionError where
  | unknownLayer (name : String)
  | unknownField (name : String)
  /-- The layer with this name has no key field. -/
  | noKeyField (layer : String)
  | host (operation : Operation) (cause : HostError)
deriving Repr, DecidableEq

def ExecutionError.message : ExecutionError → String
  | unknownLayer name => "Unknown layer: " ++ name
  | unknownField name => "Unknown field: " ++ name
  | noKeyField layer => "Layer " ++ layer ++ " has no primary key; cannot select features on it"
  | host operation cause => operation.name ++ " failed: " ++ cause.message

/-- A computation that works on a host with state `σ`. -/
abbrev Execution (σ α : Type) := ExceptT ExecutionError (StateM σ) α

/-- Calls the host. An error is reported with the name of the operation. -/
def perform {σ α : Type} (operation : Operation) (call : HostCall σ α) : Execution σ α :=
  ExceptT.adapt (.host operation) call

/-- A layer that was evaluated. -/
structure Resolved (δ : Type) where
  /-- The project layer at the primary leaf. -/
  origin : δ
  data : δ

namespace Settings

/-- The coordinate reference system for distances in metres. -/
def metricSystem (settings : Settings) : Crs := ⟨settings.metricCrs, .meters⟩

/-- The parameters of a buffer with the given distance. -/
def bufferParameters (settings : Settings) (distance : Float) : BufferParameters where
  distance
  segments := settings.bufferSegments
  endCapStyle := .round
  joinStyle := .round
  miterLimit := 2
  dissolve := false

end Settings

section Evaluation

variable {δ β : Type} [Dataset δ] [Processing β δ]

/-- The features of a dataset whose field has the value of the literal. -/
def filterData (data : δ) (name : String) (literal : Literal) : Execution β δ :=
  match findField? (Dataset.fields data) name with
  | none => throw (.unknownField name)
  | some field =>
    perform .extractByAttribute (Processing.extractByAttribute data field.name
      (.forField field.type.isInteger literal))

/-- A dataset with each feature grown by a distance in metres. -/
def bufferData (settings : Settings) (data : δ) (distance : Float) : Execution β δ := do
  let crs := Dataset.crs data
  let parameters := settings.bufferParameters distance
  if crs.isMetric then
    perform .buffer (Processing.buffer data parameters)
  else
    let projected ← perform .reproject (Processing.reproject data settings.metricSystem)
    let buffered ← perform .buffer (Processing.buffer projected parameters)
    perform .reproject (Processing.reproject buffered crs)

def intersectData (primary secondary : δ) : Execution β δ := do
  let overlay ← perform .dissolve (Processing.dissolve secondary true)
  if Dataset.geometryKind primary = .polygon ∧ Dataset.geometryKind secondary = .line then
    perform .extractByLocation (Processing.extractByLocation primary overlay .intersects)
  else
    perform .intersection (Processing.intersection primary overlay .all)

def combineData (overlay : Overlay) (primary secondary : δ) : Execution β δ :=
  match overlay with
  | .union => perform .union (Processing.union primary secondary .all)
  | .intersection => intersectData primary secondary
  | .difference => perform .difference (Processing.difference primary secondary)

/-- Evaluates a layer on the layers of a project. -/
def evaluate (settings : Settings) (layers : List δ) : Layer → Execution β (Resolved δ)
  | .source name =>
    match findLayer? layers name with
    | none => throw (.unknownLayer name)
    | some layer => return ⟨layer, layer⟩
  | .filtered layer field value => do
    let source ← evaluate settings layers layer
    return ⟨source.origin, ← filterData source.data field value⟩
  | .buffered layer distance => do
    let source ← evaluate settings layers layer
    return ⟨source.origin, ← bufferData settings source.data distance⟩
  | .combined overlay a b => do
    let primary ← evaluate settings layers a
    let secondary ← evaluate settings layers b
    return ⟨primary.origin, ← combineData overlay primary.data secondary.data⟩

end Evaluation

end MapQuery
