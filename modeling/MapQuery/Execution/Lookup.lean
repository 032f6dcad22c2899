import MapQuery.Action.Basic
import MapQuery.Host.Interface
import MapQuery.Text.LetterCase

/-!
# Names and values from a question

A question may call a layer by its id, its name or its short name, and a field by its name or the
name that users see. The id of a layer counts exactly as it is; all else counts up to letter case.
The first layer that goes by the name in any of these ways is meant. For fields an exact name goes
before a name in another letter case, and that before a name that users see.

Fields of whole numbers often hold truth values as 1 and 0. A filter on such a field takes them for
what they mean.
-/

namespace MapQuery

/-! ## Layers and fields -/

/-- Whether a layer goes by a name. -/
def goesBy {δ : Type} [Dataset δ] (layer : δ) (name : String) : Bool :=
  Dataset.id layer == name || Text.sameName (Dataset.name layer) name
    || (Dataset.shortName layer).any (Text.sameName · name)

/-- The first layer that goes by the name. -/
def findLayer? {δ : Type} [Dataset δ] (layers : List δ) (name : String) : Option δ :=
  layers.find? (goesBy · name)

def findField? (fields : List Field) (name : String) : Option Field :=
  fields.find? (·.name = name)
    <|> fields.find? (Text.sameName ·.name name)
    <|> fields.find? (Text.sameName ·.displayName name)

/-! ## Filter values -/

/-- The whole number by which a field stores a truth value. -/
def numberOfTruth (value : Bool) : Int64 := if value then 1 else 0

/-- The truth value that a word stands for, in any letter case. -/
def truthOfWord? (word : String) : Option Bool :=
  let word := Text.lowercase word
  if word = "true" ∨ word = "yes" then some true
  else if word = "false" ∨ word = "no" then some false
  else none

namespace FilterValue

/-- The value of a literal as it stands. -/
def ofLiteral : Literal → FilterValue
  | .text value => text value
  | .integer value => integer value
  | .float value => float value
  | .boolean value => boolean value

/-- The value that a literal has in a filter on a field; `isInteger` tells whether the field holds
whole numbers. -/
def forField (isInteger : Bool) (literal : Literal) : FilterValue :=
  match isInteger, literal with
  | true, .boolean value => integer (numberOfTruth value)
  | true, .text word =>
    match truthOfWord? word with
    | some value => integer (numberOfTruth value)
    | none => text word
  | _, literal => ofLiteral literal

end FilterValue

end MapQuery
