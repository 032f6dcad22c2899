/-!
# Actions on map layers

An action says what is to be done with a layer: select its features, add it to the map, or count its
features. The layer is a tree. Its leaves name layers of the project; a node filters by the value of
a field, buffers by a distance in metres, or combines two layers. Building a tree never touches any
data.

The first operand of a combination is its *primary* operand: an action on the combination concerns
the project layer behind it, and the second operand lends its geometry only.
-/

namespace MapQuery

/-- A value that is written in a question's code: a name, a filter value or a distance. -/
inductive Literal where
  | text (value : String)
  | integer (value : Int64)
  | float (value : Float)
  | boolean (value : Bool)
deriving DecidableEq

inductive Overlay where
  | union
  | intersection
  | difference
deriving Repr, DecidableEq

/-- A layer, as a tree of operations on the layers of a project. -/
inductive Layer where
  /-- The project layer with this id, name or short name. -/
  | source (id : String)
  /-- The features of `layer` whose field has the given value. -/
  | filtered (layer : Layer) (field : String) (value : Literal)
  /-- The features of `layer`, each grown by a distance in metres. -/
  | buffered (layer : Layer) (distance : Float)
  /-- Two layers combined, the primary one first. -/
  | combined (overlay : Overlay) (primary secondary : Layer)
deriving DecidableEq

inductive Verb where
  | select
  | addToMap
  | count
deriving Repr, DecidableEq

structure Action where
  verb : Verb
  layer : Layer
deriving DecidableEq

/-! ## Names of the commands -/

def Overlay.command : Overlay → String
  | .union => "union"
  | .intersection => "intersection"
  | .difference => "difference"

def Verb.command : Verb → String
  | .select => "select"
  | .addToMap => "add_to_map"
  | .count => "count"

namespace Layer

def command : Layer → String
  | source _ => "get_layer"
  | filtered .. => "filter"
  | buffered .. => "buffer"
  | combined overlay _ _ => overlay.command

/-- The commands that build the tree, each before those of its operands. -/
def commands : Layer → List String
  | source id => [(source id).command]
  | filtered layer field value => (filtered layer field value).command :: layer.commands
  | buffered layer distance => (buffered layer distance).command :: layer.commands
  | combined overlay a b => overlay.command :: (a.commands ++ b.commands)

/-- The number of nodes on the longest way from the root to a leaf. -/
def height : Layer → Nat
  | source _ => 1
  | filtered layer _ _ => layer.height + 1
  | buffered layer _ => layer.height + 1
  | combined _ a b => max a.height b.height + 1

/-- The name at the leaf that is reached through primary operands. -/
def primarySource : Layer → String
  | source id => id
  | filtered layer _ _ => layer.primarySource
  | buffered layer _ => layer.primarySource
  | combined _ a _ => a.primarySource

/-- The union of two or more layers, grouped to the right: `a`, `b`, `c` become the union of `a`
with the union of `b` and `c`. Fewer than two layers have none. -/
def unionAll? : List Layer → Option Layer
  | [] => none
  | [_] => none
  | [a, b] => some (combined .union a b)
  | a :: b :: c :: rest => (unionAll? (b :: c :: rest)).map (combined .union a)

end Layer

def Action.commands (action : Action) : List String :=
  action.verb.command :: action.layer.commands

end MapQuery
