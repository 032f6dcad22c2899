import MapQuery.Action.Basic

/-!
# The catalog of constructors

The catalog lists the calls of the action language: for each its name, its parameters, what it
builds, and the documentation that the model is shown. A prompt shows the catalog as function
signatures, and the compiler resolves every call against it, so a name that is missing here never
occurs in a compiled tree.
-/

namespace MapQuery

inductive LiteralType where
  | text
  | float
  | integer
  | boolean
deriving Repr, DecidableEq

/-- What a parameter accepts: a layer, or a literal of one of several types. -/
inductive ParameterType where
  | layer
  | literal (types : List LiteralType)
deriving Repr, DecidableEq

structure Parameter where
  name : String
  type : ParameterType
deriving Repr, DecidableEq

inductive Node where
  | source
  | filtered
  | buffered
  | combined (overlay : Overlay)
  | action (verb : Verb)
deriving Repr, DecidableEq

inductive Product where
  | layer
  | action
deriving Repr, DecidableEq

/-- A piece of documentation: fixed text, or the names of the layers at hand. -/
inductive DocPart where
  | text (value : String)
  | layerNames
deriving Repr, DecidableEq

/-- A call of the action language: its name, what it builds, and how it is called. -/
structure Constructor where
  name : String
  node : Node
  parameters : List Parameter
  product : Product
  /-- Whether the last parameter may be repeated. -/
  isVariadic : Bool
  documentation : Option (List DocPart)
deriving Repr, DecidableEq

/-! ## Names -/

def LiteralType.name : LiteralType → String
  | text => "str"
  | float => "float"
  | integer => "int"
  | boolean => "bool"

def ParameterType.name : ParameterType → String
  | layer => "Layer"
  | literal [type] => type.name
  | literal types => "Union[" ++ ", ".intercalate (types.map LiteralType.name) ++ "]"

/-- The name by which the node is called. -/
def Node.command : Node → String
  | source => "get_layer"
  | filtered => "filter"
  | buffered => "buffer"
  | combined overlay => overlay.command
  | action verb => verb.command

def Node.name : Node → String
  | source => "SourceLayer"
  | filtered => "FilteredLayer"
  | buffered => "BufferedLayer"
  | combined .union => "UnionLayer"
  | combined .intersection => "IntersectionLayer"
  | combined .difference => "DifferenceLayer"
  | action .select => "SelectAction"
  | action .addToMap => "AddToMapAction"
  | action .count => "CountAction"

def Node.product : Node → Product
  | action _ => .action
  | _ => .layer

def Product.name : Product → String
  | layer => "Layer"
  | action => "Action"

/-! ## Signatures -/

namespace Constructor

/-- The mark that stands for the names of the layers where there are none to show. -/
def layerNamesMark : String := "\x7blayer_names\x7d"

/-- The documentation with the given text for the names of the layers. -/
def documentationText? (c : Constructor) (layerNames : String) : Option String :=
  c.documentation.map fun parts ↦
    String.join (parts.map fun
      | .text value => value
      | .layerNames => layerNames)

/-- The call as a function signature with its documentation. -/
def signatureWith (c : Constructor) (layerNames : String) : String :=
  let parameters := ", ".intercalate (c.parameters.map fun p ↦ p.name ++ ": " ++ p.type.name)
  let documentation :=
    match c.documentationText? layerNames with
    | some text => "\n    \"\"\"" ++ text ++ "\"\"\""
    | none => ""
  "def " ++ c.name ++ "(" ++ parameters ++ ") -> " ++ c.product.name ++ ":" ++ documentation
    ++ "\n    pass"

/-- The signature with the mark in place of the names of the layers. -/
def signature (c : Constructor) : String := c.signatureWith layerNamesMark

end Constructor

/-! ## The constructors -/

namespace Catalog

/-- The parameters of the calls that combine two layers. -/
def pairOfLayers : List Parameter := [⟨"source_a", .layer⟩, ⟨"source_b", .layer⟩]

/-- The types of the values by which a layer can be filtered. -/
def filterValueTypes : List LiteralType := [.text, .float, .integer, .boolean]

def combination (name : String) (overlay : Overlay) (isVariadic : Bool) : Constructor :=
  ⟨name, .combined overlay, pairOfLayers, .layer, isVariadic, none⟩

def action (name : String) (verb : Verb) (documentation : Option (List DocPart)) : Constructor :=
  ⟨name, .action verb, [⟨"layer", .layer⟩], .action, false, documentation⟩

/-- All constructors, in the order in which the model is shown them: layers first, then actions. -/
def constructors : List Constructor :=
  [⟨"get_layer", .source, [⟨"id", .literal [.text]⟩], .layer, false,
      some [.text "id must be one of: ", .layerNames]⟩,
    ⟨"filter", .filtered,
      [⟨"source", .layer⟩, ⟨"field", .literal [.text]⟩, ⟨"value", .literal filterValueTypes⟩],
      .layer, false, none⟩,
    ⟨"buffer", .buffered, [⟨"source", .layer⟩, ⟨"distance", .literal [.float]⟩], .layer, false,
      none⟩,
    combination "union" .union true,
    combination "intersection" .intersection false,
    combination "difference" .difference false,
    action "select" .select
      (some [.text
        "Use this if the user asks for data to be selected or where something is located."]),
    action "add_to_map" .addToMap none,
    action "count" .count none]

/-- In every row the name and the product are those of the node. -/
theorem eq_of_mem {c : Constructor} (hc : c ∈ constructors) :
    c.name = c.node.command ∧ c.product = c.node.product := by
  revert c
  decide

def find? (name : String) : Option Constructor := constructors.find? (·.name = name)

theorem mem_of_find? {name : String} {c : Constructor} (hc : find? name = some c) :
    c ∈ constructors :=
  List.mem_of_find?_eq_some hc

def actions : List Constructor := constructors.filter (·.product = .action)

/-- The signatures of all constructors, with the mark in place of the names of the layers. -/
def signatures : List String := constructors.map Constructor.signature

/-- The signatures of all constructors for a project with the given layers. -/
def signaturesFor (layerNames : List String) : String :=
  "\n".intercalate (constructors.map (·.signatureWith (", ".intercalate layerNames)))

end Catalog

end MapQuery
