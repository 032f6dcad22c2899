import MapQuery.Host.Value

/-!
# What a host can do

A host has datasets, a project that holds some of them as layers, and an engine that derives new
datasets. The engine and the project have a state, and an operation that fails may have changed it.
Operations never change a dataset.
-/

namespace MapQuery

/-- A failure that the host reports. Its message is passed on as it is. -/
structure HostError where
  message : String
deriving Repr, DecidableEq

/-- An operation on a host with state `σ`. -/
abbrev HostCall (σ α : Type) := ExceptT HostError (StateM σ) α

/-- The operations of a host that can fail. -/
inductive Operation where
  | extractByAttribute
  | buffer
  | reproject
  | union
  | difference
  | dissolve
  | intersection
  | extractByLocation
  | attributeValues
  | addLayer
  | selectByKeys
deriving Repr, DecidableEq

namespace Operation

def name : Operation → String
  | extractByAttribute => "extract_by_attribute"
  | buffer => "buffer"
  | reproject => "reproject"
  | union => "union"
  | difference => "difference"
  | dissolve => "dissolve"
  | intersection => "intersection"
  | extractByLocation => "extract_by_location"
  | attributeValues => "attribute_values"
  | addLayer => "add_layer"
  | selectByKeys => "select_by_primary_keys"

def all : List Operation :=
  [extractByAttribute, buffer, reproject, union, difference, dissolve, intersection,
    extractByLocation, attributeValues, addLayer, selectByKeys]

def ofName? (name : String) : Option Operation := all.find? (·.name = name)

end Operation

/-- A type of vector datasets: layers of a project, or data derived from them. -/
class Dataset (δ : Type) where
  id : δ → String
  name : δ → String
  shortName : δ → Option String
  fields : δ → List Field
  classification : δ → Option Classification
  geometryKind : δ → GeometryKind
  crs : δ → Crs
  featureCount : δ → Nat
  /-- The field that identifies the features, if there is one. -/
  keyField : δ → Option String
  /-- The value of a field for each feature. A feature without it has the value null. -/
  attributeValues : δ → String → Except HostError (List AttributeValue)

/-- A type of projects whose layers are datasets of type `δ`. -/
class Project (π : Type) (δ : outParam Type) where
  layers : π → List δ
  addLayer : δ → HostCall π Unit
  /-- Replaces the selection of a layer by the features whose key is among the given ones. -/
  selectByKeys : δ → List AttributeValue → HostCall π Unit
  selectedCount : π → δ → Nat

/-- A type of engines that derive datasets of type `δ`. -/
class Processing (β : Type) (δ : outParam Type) where
  extractByAttribute : δ → String → FilterValue → HostCall β δ
  buffer : δ → BufferParameters → HostCall β δ
  reproject : δ → Crs → HostCall β δ
  union : δ → δ → OverlayParameters → HostCall β δ
  difference : δ → δ → HostCall β δ
  /-- Merges the features; with `true`, features that do not meet stay apart. -/
  dissolve : δ → Bool → HostCall β δ
  intersection : δ → δ → OverlayParameters → HostCall β δ
  extractByLocation : δ → δ → SpatialPredicate → HostCall β δ

end MapQuery
