import MapQuery.Host.Interface
import MapQuery.Schema.ValueSort

/-!
# Describing a project

The model is told which layers a project has, which fields the layers have, and what the values of a
field mean where the legend of the layer says so. A field of a type that has no place in questions
makes the whole description fail.

The labels of a field's values come from the categories of the legend, in their order. If two
categories hold the same value, the later label wins and the value stays where it was.
-/

namespace MapQuery

structure ValueLabel where
  value : AttributeValue
  label : String
deriving DecidableEq

structure FieldDescription where
  id : String
  name : String
  sort : ValueSort
  /-- The labels of the values, if the legend is about this field. -/
  values : Option (List ValueLabel)
deriving DecidableEq

structure LayerDescription where
  id : String
  name : String
  fields : List FieldDescription
deriving DecidableEq

structure Schema where
  layers : List LayerDescription
deriving DecidableEq

inductive SchemaError where
  | unsupportedFieldType (layer field : String) (type : FieldType)
deriving Repr, DecidableEq

def SchemaError.message : SchemaError → String
  | unsupportedFieldType layer field type =>
    let name := type.text
    s!"layer `{layer}`: field `{field}` has unsupported type `{name}`"

/-! ## Labels -/

def CategoryValue.values : CategoryValue → List AttributeValue
  | null => []
  | single value => [value]
  | list values => values

/-- The values of the categories that can be read as values of the sort, each with the label of its
category. -/
def Classification.labelledValues (classification : Classification) (sort : ValueSort) :
    List ValueLabel :=
  classification.categories.flatMap fun category ↦
    (category.value.values.filterMap sort.convert?).map fun value ↦ ⟨value, category.label⟩

/-- Gives a value its label: a value that is there already gets the new label in its place, any
other one goes to the end. -/
def addLabel (labels : List ValueLabel) (new : ValueLabel) : List ValueLabel :=
  match labels with
  | [] => [new]
  | first :: rest =>
    if first.value.same new.value then { first with label := new.label } :: rest
    else first :: addLabel rest new

/-- The labels of the values of a field of the given sort. -/
def Classification.labels (classification : Classification) (sort : ValueSort) :
    List ValueLabel :=
  (classification.labelledValues sort).foldl addLabel []

/-! ## Descriptions -/

def describeField (layer : String) (classification : Option Classification) (field : Field) :
    Except SchemaError FieldDescription :=
  match ValueSort.ofFieldType? field.type with
  | none => .error (.unsupportedFieldType layer field.name field.type)
  | some sort =>
    let values := (classification.filter (·.field = field.name)).map (·.labels sort)
    .ok ⟨field.name, field.displayName, sort, values⟩

def describeLayer {δ : Type} [Dataset δ] (layer : δ) : Except SchemaError LayerDescription := do
  let fields ← (Dataset.fields layer).mapM
    (describeField (Dataset.name layer) (Dataset.classification layer))
  return ⟨Dataset.id layer, Dataset.name layer, fields⟩

def describeProject {π δ : Type} [Dataset δ] [Project π δ] (project : π) :
    Except SchemaError Schema :=
  Schema.mk <$> (Project.layers project).mapM describeLayer

/-! ## The words of a description -/

/-- The elements of a list, each only where it occurs first. -/
def firstOccurrences {α : Type} [DecidableEq α] (xs : List α) : List α :=
  xs.foldl (fun seen x ↦ if x ∈ seen then seen else seen ++ [x]) []

namespace FieldDescription

/-- What is said about the values of the field: the labels if there are any, else the sort. -/
def valuesText (field : FieldDescription) : String :=
  match field.values with
  | some (first :: rest) =>
    "possible values are " ++
      ", ".intercalate (firstOccurrences ((first :: rest).map ValueLabel.label))
  | _ => "is a " ++ field.sort.name

/-- What is said about the field. Its name is mentioned if it is not the id, up to letter case. -/
def text (field : FieldDescription) : String :=
  if Text.sameName field.id field.name then field.id ++ " (" ++ field.valuesText ++ ")"
  else field.id ++ " (also known as " ++ field.name ++ ", " ++ field.valuesText ++ ")"

end FieldDescription

/-- What is said about a layer. -/
def LayerDescription.text (layer : LayerDescription) : String :=
  "* " ++ layer.name ++ " (has attributes "
    ++ ", ".intercalate (layer.fields.map FieldDescription.text) ++ ")"

def Schema.layerNames (schema : Schema) : List String := schema.layers.map (·.name)

/-- What is said about a project: one line for each layer. -/
def Schema.text (schema : Schema) : String :=
  "\n".intercalate (schema.layers.map LayerDescription.text)

end MapQuery
