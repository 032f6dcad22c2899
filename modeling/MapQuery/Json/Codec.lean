/-!
# JSON values and how types are written as such

A JSON value is null, a truth value, a number, a text, an array or an object. What a number is stays
open (`ν`), because libraries disagree about it: some keep the digits, others the float. An object
is the list of its members, and nothing keeps a key from standing in it twice.

A `Codec` writes the values of a type as JSON values and reads them again, where reading may refuse.
The codecs of the data model are not written by hand: each type declares how it is laid out, and a
library turns the declaration into a codec. There are three kinds of declaration.

* A `RecordLayout` is an object with one member for each field.
* A `NodeLayout` is one of the kinds of a tree: an object whose member `type` tells the kind, next
  to the fields of this kind.
* A `Variant` is one of the cases of a type, with at most one content. The case is told by its name,
  in one of two ways that the library offers.
-/

namespace MapQuery

/-- A JSON value whose numbers are of type `ν`. -/
inductive Json (ν : Type) where
  | null
  | bool (value : Bool)
  | number (value : ν)
  | text (value : String)
  | array (items : List (Json ν))
  | object (members : List (String × Json ν))

namespace Json

variable {ν : Type}

/-- The values of which an array or an object is made. -/
def parts : Json ν → List (Json ν)
  | array items => items
  | object members => members.map (·.2)
  | _ => []

mutual

/-- The number of arrays and objects on the longest way into a value. -/
def depth : Json ν → Nat
  | array items => depthOfItems items + 1
  | object members => depthOfMembers members + 1
  | _ => 0

def depthOfItems : List (Json ν) → Nat
  | [] => 0
  | item :: rest => max item.depth (depthOfItems rest)

def depthOfMembers : List (String × Json ν) → Nat
  | [] => 0
  | (_, value) :: rest => max value.depth (depthOfMembers rest)

end

end Json

/-! ## Codecs -/

/-- A way to write the values of a type as JSON values, and to read them. What stands inside the
node of a tree is *nested*, and some libraries read it more freely. -/
structure Codec (ν α : Type) where
  encode : α → Json ν
  decode? : (nested : Bool) → Json ν → Option α

variable {ν α β : Type}

/-- Reads every item, or none if one of them is refused. -/
def Codec.decodeItems? (codec : Codec ν α) (nested : Bool) : List (Json ν) → Option (List α)
  | [] => some []
  | item :: rest => do
    let value ← codec.decode? nested item
    let values ← codec.decodeItems? nested rest
    return value :: values

/-! ## Records -/

/-- How a field stands in an object: as a member that must be there, as one that is null where there
is no value, or as one that is left out where there is no value. -/
inductive Slot (ν : Type) : Type → Type 1 where
  | required {β : Type} (codec : Codec ν β) : Slot ν β
  | nullable {β : Type} (codec : Codec ν β) : Slot ν (Option β)
  | omitted {β : Type} (codec : Codec ν β) : Slot ν (Option β)

namespace Slot

def write : Slot ν β → β → Option (Json ν)
  | required codec, value => some (codec.encode value)
  | nullable codec, value => some ((value.map codec.encode).getD .null)
  | omitted codec, value => value.map codec.encode

/-- Reads the member, which may be missing. Where there may be no value, null stands for none as
well. -/
def read? (nested : Bool) : Slot ν β → Option (Json ν) → Option β
  | required codec, member => member.bind (codec.decode? nested)
  | nullable codec, member | omitted codec, member =>
    match member with
    | none | some .null => some none
    | some json => (codec.decode? nested json).map some

end Slot

/-- Keys with their slots, in order. The values of the fields are a tuple that ends in `()`. -/
inductive Fields (ν : Type) : Type → Type 1 where
  | nil : Fields ν Unit
  | member {β γ : Type} (key : String) (slot : Slot ν β) (rest : Fields ν γ) : Fields ν (β × γ)

namespace Fields

def keys : {τ : Type} → Fields ν τ → List String
  | _, nil => []
  | _, member key _ rest => key :: rest.keys

def write : {τ : Type} → Fields ν τ → τ → List (String × Json ν)
  | _, nil, () => []
  | _, member key slot rest, (value, values) =>
    match slot.write value with
    | none => rest.write values
    | some json => (key, json) :: rest.write values

/-- Reads all fields, where `part` tells what stands at a key. -/
def read? (nested : Bool) (part : String → Option (Json ν)) :
    {τ : Type} → Fields ν τ → Option τ
  | _, nil => some ()
  | _, member key slot rest => do
    let value ← slot.read? nested (part key)
    let values ← rest.read? nested part
    return (value, values)

end Fields

structure RecordLayout (ν α : Type) : Type 1 where
  /-- The tuple of the values of the fields. -/
  Parts : Type
  fields : Fields ν Parts
  parts : α → Parts
  make : Parts → α
  make_parts : ∀ value, make (parts value) = value := by exact fun _ ↦ rfl
  parts_make : ∀ values, parts (make values) = values := by exact fun _ ↦ rfl
  keys_nodup : fields.keys.Nodup := by simp [Fields.keys]

/-! ## Kinds of nodes, and cases -/

/-- The key of the member that tells the kind of a node. -/
def typeKey : String := "type"

/-- The layout of the nodes of one kind. -/
structure NodeLayout (ν α : Type) : Type 1 where
  kind : String
  /-- The tuple of the values of the fields. -/
  Parts : Type
  fields : Fields ν Parts
  /-- The values of the fields, if the node is of this kind. -/
  parts? : α → Option Parts
  make : Parts → α
  make_of_parts? : ∀ {value parts}, parts? value = some parts → make parts = value
  parts?_make : ∀ parts, parts? (make parts) = some parts
  keys_nodup : (typeKey :: fields.keys).Nodup := by simp [typeKey, Fields.keys]

/-- The members of a node of this kind. -/
def NodeLayout.write? (node : NodeLayout ν α) (value : α) : Option (List (String × Json ν)) :=
  (node.parts? value).map fun parts ↦ (typeKey, .text node.kind) :: node.fields.write parts

/-- The layout of one case of a type: a name alone, or a name with a content. -/
inductive Variant (ν α : Type) : Type 1 where
  | bare (name : String) (value : α) (isThis : α → Bool)
  | holding {β : Type} (name : String) (codec : Codec ν β) (make : β → α) (content? : α → Option β)

namespace Variant

def name : Variant ν α → String
  | bare name _ _ => name
  | holding name _ _ _ => name

/-- The name and the content of a value of this case. A bare name has no content. -/
def write? : Variant ν α → α → Option (String × Option (Json ν))
  | bare name _ isThis, value => if isThis value then some (name, none) else none
  | holding name codec _ content?, value =>
    (content? value).map fun content ↦ (name, some (codec.encode content))

/-- The value of this case with the given content. In the place of no content null may stand. -/
def read? (nested : Bool) : Variant ν α → Option (Json ν) → Option α
  | bare _ value _, none => some value
  | bare _ value _, some .null => some value
  | bare _ _ _, some _ => none
  | holding _ codec make _, content => (content.bind (codec.decode? nested)).map make

end Variant

end MapQuery
