import MapQuery.Memory.FeatureCollection

/-!
# Projects in memory

A workspace is a project: its layers in their order, and for each layer id the keys of the features
that are selected. It can be told to fail at an operation. A failing operation changes nothing but
the record of what was asked for.
-/

namespace MapQuery.Memory

structure Workspace where
  layers : List FeatureCollection
  /-- The layers that were ever added. -/
  added : List FeatureCollection
  /-- The selections by layer id. Of two with one id the first one counts. -/
  selections : List (String × List AttributeValue)
  /-- The operation that fails. -/
  failing : Option Operation
  /-- The keys of all requests to select. -/
  requestedKeys : List (List AttributeValue)

namespace Workspace

/-- The project with the given layers and no selection. -/
def ofLayers (layers : List FeatureCollection) : Workspace := ⟨layers, [], [], none, []⟩

/-- The keys that are selected in a layer. -/
def selectedKeys (workspace : Workspace) (layerId : String) : List AttributeValue :=
  (workspace.selections.lookup layerId).getD []

/-- The keys of a layer that are among the given ones, in the order of the layer's features. -/
def matchingKeys (layer : FeatureCollection) (keyField : String) (keys : List AttributeValue) :
    List AttributeValue :=
  (layer.features.map (·.value keyField)).filter fun key ↦ keys.any (·.same key)

/-- The message of an operation of the project that fails when it was told to. -/
def failure (operation : Operation) : HostError := ⟨operation.name ++ ": project exploded"⟩

/-- Adds a layer behind the others. -/
def addLayer (layer : FeatureCollection) : HostCall Workspace Unit := do
  let workspace ← get
  if workspace.failing = some .addLayer then
    throw (failure .addLayer)
  set { workspace with
    layers := workspace.layers ++ [layer]
    added := workspace.added ++ [layer] }

/-- The selection that the given keys make in the first layer with the id. -/
def newSelection (layers : List FeatureCollection) (layerId : String)
    (keys : List AttributeValue) : Except HostError (List AttributeValue) :=
  match layers.find? (·.id = layerId) with
  | none => .error ⟨"layer " ++ layerId ++ " is not in the project"⟩
  | some layer =>
    match layer.keyField with
    | none => .error ⟨"layer " ++ layerId ++ " has no primary key"⟩
    | some keyField => .ok (matchingKeys layer keyField keys)

/-- Selects the features with the given keys. -/
def selectByKeys (layer : FeatureCollection) (keys : List AttributeValue) :
    HostCall Workspace Unit := do
  modify fun workspace ↦
    { workspace with requestedKeys := workspace.requestedKeys ++ [keys] }
  let workspace ← get
  if workspace.failing = some .selectByKeys then
    throw (failure .selectByKeys)
  let selection ← newSelection workspace.layers layer.id keys
  set { workspace with selections := (layer.id, selection) :: workspace.selections }

instance : Project Workspace FeatureCollection where
  layers := layers
  addLayer := addLayer
  selectByKeys := selectByKeys
  selectedCount workspace layer := (workspace.selectedKeys layer.id).length

end Workspace

end MapQuery.Memory
