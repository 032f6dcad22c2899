import MapQuery.Execution.Evaluation

/-!
# Carrying out actions

An action is carried out on a host, which is a project together with an engine. The engine evaluates
the layer, and what becomes of the data is the matter of the project. The outcome is told in one
sentence.

Features are selected on the project layer that the data come from. The data tell the keys of the
features to select; an empty key selects nothing, and a key that comes again is dropped.
-/

namespace MapQuery

/-- A project and the engine that works for it. -/
structure Host (π β : Type) where
  project : π
  engine : β

namespace Host

/-- Runs a computation on the engine of a host. -/
def onEngine {π β α : Type} (x : Execution β α) : Execution (Host π β) α := fun host ↦
  let (result, engine) := x host.engine
  (result, { host with engine })

/-- Runs a computation on the project of a host. -/
def onProject {π β α : Type} (x : Execution π α) : Execution (Host π β) α := fun host ↦
  let (result, project) := x host.project
  (result, { host with project })

end Host

/-! ## Sentences -/

def selectedSentence (count : Nat) : String :=
  if count = 1 then "Selected 1 item" else "Selected " ++ toString count ++ " items"

def countSentence (count : Nat) : String :=
  if count = 1 then "There is 1 matching feature"
  else "There are " ++ toString count ++ " matching features"

def addedSentence : String := "Added data as a new layer to the map"

/-! ## Actions -/

/-- Adds a key at the end unless it is null or already there. -/
def addKey (keys : List AttributeValue) (key : AttributeValue) : List AttributeValue :=
  if key = .null ∨ keys.any (·.same key) then keys else keys ++ [key]

/-- The keys without null and without repetitions, each where it comes first. -/
def distinctKeys (keys : List AttributeValue) : List AttributeValue := keys.foldl addKey []

section Actions

variable {π δ β : Type} [Dataset δ] [Project π δ] [Processing β δ]

/-- The keys by which the features of evaluated data are selected. -/
def keysToSelect (resolved : Resolved δ) : Except ExecutionError (List AttributeValue) :=
  match Dataset.keyField resolved.origin with
  | none => .error (.noKeyField (Dataset.name resolved.origin))
  | some keyField =>
    match Dataset.attributeValues resolved.data keyField with
    | .error cause => .error (.host .attributeValues cause)
    | .ok keys => .ok (distinctKeys keys)

/-- Selects the features of the project layer from which the data come. -/
def select (resolved : Resolved δ) : Execution π String := do
  let keys ← keysToSelect resolved
  perform .selectByKeys (Project.selectByKeys resolved.origin keys)
  return selectedSentence (Project.selectedCount (← get) resolved.origin)

/-- Adds the data to the project. -/
def addToMap (resolved : Resolved δ) : Execution π String := do
  perform .addLayer (Project.addLayer resolved.data)
  return addedSentence

/-- Carries out an action on data. -/
def conclude (verb : Verb) (resolved : Resolved δ) : Execution π String :=
  match verb with
  | .select => select resolved
  | .addToMap => addToMap resolved
  | .count => return countSentence (Dataset.featureCount resolved.data)

def Host.evaluate (settings : Settings) (layer : Layer) :
    Execution (Host π β) (Resolved δ) := do
  let host ← get
  onEngine (MapQuery.evaluate settings (Project.layers host.project) layer)

def Host.execute (settings : Settings) (action : Action) : Execution (Host π β) String := do
  let resolved ← Host.evaluate settings action.layer
  onProject (conclude action.verb resolved)

end Actions

end MapQuery
