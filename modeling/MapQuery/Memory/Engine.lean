import MapQuery.Memory.FeatureCollection
import MapQuery.Text.Blank

/-!
# Processing in memory

The engine keeps a record of all requests, also of those that it refuses. It can be told to refuse
every request for one operation. The outputs are numbered in their ids. Some hosts number the
features of each output afresh, and the engine can be told to do the same.
-/

namespace MapQuery.Memory

/-- What the engine is asked to do, apart from the datasets to do it with. -/
inductive Request where
  | extractByAttribute (field : String) (value : FilterValue)
  | buffer (parameters : BufferParameters)
  | reproject (target : Crs)
  | union
  | difference
  | dissolve (separately : Bool)
  | intersection
  | extractByLocation (predicate : SpatialPredicate)
deriving DecidableEq

namespace Request

def operation : Request → Operation
  | extractByAttribute .. => .extractByAttribute
  | buffer _ => .buffer
  | reproject _ => .reproject
  | union => .union
  | difference => .difference
  | dissolve _ => .dissolve
  | intersection => .intersection
  | extractByLocation _ => .extractByLocation

/-- What the record tells about the request beside the operation. -/
def detail : Request → String
  | extractByAttribute field value => field ++ "=" ++ value.display
  | buffer parameters => Decimal.plainText parameters.distance
  | reproject target => target.authorityId
  | dissolve separately => "separate_disjoint=" ++ (if separately then "true" else "false")
  | extractByLocation predicate => predicate.name
  | union | difference | intersection => ""

def text (request : Request) : String :=
  String.ofList (Text.trimEnd (request.operation.name ++ " " ++ request.detail).toList)

end Request

structure Engine where
  /-- All requests, in their order. -/
  requests : List Request
  /-- The requests that were not refused, in their order. -/
  accepted : List Request
  /-- The operation that is refused. -/
  failing : Option Operation
  /-- Whether the features of each output get new numbers. -/
  renumbers : Bool
  /-- How many requests got the id of an output. -/
  outputs : Nat
  /-- How many features got a new number. -/
  renumbered : Nat

namespace Engine

/-- The engine that has not done anything. -/
def new : Engine := ⟨[], [], none, false, 0, 0⟩

/-- The numbers that features get afresh are above this one. -/
def numberBase : Nat := 9000

/-- The filters that were run, with their fields. -/
def filters (engine : Engine) : List (String × FilterValue) :=
  engine.accepted.filterMap fun
    | .extractByAttribute field value => some (field, value)
    | _ => none

/-- The parameters of the buffers that were run. -/
def buffers (engine : Engine) : List BufferParameters :=
  engine.accepted.filterMap fun
    | .buffer parameters => some parameters
    | _ => none

/-- Records a request. Gives the id of the output, or refuses the request. -/
def accept (request : Request) : HostCall Engine String := do
  modify fun engine ↦ { engine with requests := engine.requests ++ [request] }
  let engine ← get
  if engine.failing = some request.operation then
    throw ⟨request.operation.name ++ ": backend exploded"⟩
  set { engine with
    accepted := engine.accepted ++ [request]
    outputs := engine.outputs + 1 }
  return "memory:" ++ toString (engine.outputs + 1)

/-- Hands an output over, with new numbers if the engine gives them. -/
def deliver (output : FeatureCollection) : HostCall Engine FeatureCollection := do
  let engine ← get
  if engine.renumbers then
    set { engine with renumbered := engine.renumbered + output.features.length }
    return { output with features := renumber (numberBase + engine.renumbered) output.features }
  else return output

/-- Carries a request out; `make` gives the output with the id that it is told. -/
def run (request : Request) (make : String → FeatureCollection) :
    HostCall Engine FeatureCollection := do
  let id ← accept request
  deliver (make id)

/-- Extracts by the only relation that envelopes can tell. -/
def runExtractByLocation (input overlay : FeatureCollection) (predicate : SpatialPredicate) :
    HostCall Engine FeatureCollection :=
  if predicate = .intersects then
    run (.extractByLocation predicate) (input.extractByLocation overlay)
  else do
    let _ ← accept (.extractByLocation predicate)
    throw ⟨"unsupported predicate " ++ predicate.name⟩

instance : Processing Engine FeatureCollection where
  extractByAttribute input field value :=
    run (.extractByAttribute field value) (input.extractByAttribute · field value)
  buffer input parameters := run (.buffer parameters) (input.buffer · parameters.distance)
  reproject input target := run (.reproject target) (input.reproject · target)
  union input overlay _ := run .union (input.union overlay)
  difference input overlay := run .difference (input.difference overlay)
  dissolve input separately := run (.dissolve separately) (input.dissolve · separately)
  intersection input overlay _ := run .intersection (input.intersection overlay)
  extractByLocation := runExtractByLocation

end Engine

end MapQuery.Memory
