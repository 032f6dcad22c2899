import MapQuery.Json.Codec

/-!
# What is taken from a JSON library

The library that turns declarations into codecs, and JSON values into text, is not part of this
project. `JsonLibrary` is what is taken from it: the codecs of plain types, a codec for each
declaration, and the two directions between values and text. `JsonLibrary.Lawful` is what it
promises about them.

A promise has up to three parts. The encoding is fixed in full. An object in which no key is
repeated and in which all that is asked for can be read is accepted; what else the object holds does
not matter. And what is accepted in any other form is made of parts of the JSON value all the same:
libraries differ in these forms, which may be arrays in the place of objects, numbers in the place
of names, or objects with a repeated key. This is enough to see that nothing is decoded that could
not have been encoded.

One promise stands apart (`JsonLibrary.FloatsComeBack`): that the number written for a finite float
is read as the same float. A library that writes too few digits, or rounds when it reads, does not
keep it.
-/

namespace MapQuery

/-- A library that reads and writes JSON whose numbers are of type `ν`. -/
structure JsonLibrary (ν : Type) : Type 1 where
  ofInt : Int → ν
  ofFloat : Float → ν
  /-- The value of a number without point and exponent. -/
  toInt? : ν → Option Int
  /-- The float that is nearest to a number, unless that is too large. -/
  toFloat? : ν → Option Float
  text : Codec ν String
  boolean : Codec ν Bool
  int64 : Codec ν Int64
  uint32 : Codec ν UInt32
  uint64 : Codec ν UInt64
  float : Codec ν Float
  list {α : Type} : Codec ν α → Codec ν (List α)
  record {α : Type} : RecordLayout ν α → Codec ν α
  /-- Trees, whose nodes tell their kind in a member. -/
  tree {α : Type} : List (NodeLayout ν α) → Codec ν α
  /-- Cases that are told by a member `tag`, next to which the content is the member `value`. -/
  tagged {α : Type} : List (Variant ν α) → Codec ν α
  /-- Cases that are texts, or objects whose only member is the content under the name. -/
  named {α : Type} : List (Variant ν α) → Codec ν α
  write : Json ν → String
  /-- Reads a text as a value of the codec's type. -/
  read? {α : Type} : Codec ν α → String → Option α
  /-- Texts nested this deep or deeper are refused. -/
  depthLimit : Nat

variable {ν α : Type}

/-- The JSON value is an array or an object, and what `part` gives are parts of it. -/
structure Json.Offers (json : Json ν) (part : String → Option (Json ν)) : Prop where
  depth_pos : 0 < json.depth
  mem_parts : ∀ {key value}, part key = some value → value ∈ json.parts

namespace Codec

variable (codec : Codec ν α)

structure IsRecord (layout : RecordLayout ν α) : Prop where
  encode_eq (value : α) : codec.encode value = .object (layout.fields.write (layout.parts value))
  decode?_object {nested : Bool} {members : List (String × Json ν)} {parts : layout.Parts} :
    (members.map (·.1)).Nodup →
    layout.fields.read? nested (members.lookup ·) = some parts →
    codec.decode? nested (.object members) = some (layout.make parts)
  of_decode? {nested : Bool} {json : Json ν} {value : α} : codec.decode? nested json = some value →
    ∃ part parts, json.Offers part ∧ layout.fields.read? nested part = some parts ∧
      layout.make parts = value

/-- What is promised for trees. The fields of a node are nested. -/
structure IsTree (kinds : List (NodeLayout ν α)) : Prop where
  encode_eq {value : α} {members : List (String × Json ν)} :
    kinds.findSome? (·.write? value) = some members → codec.encode value = .object members
  decode?_object {nested : Bool} {members : List (String × Json ν)} {name : String}
      {node : NodeLayout ν α} {parts : node.Parts} :
    (members.map (·.1)).Nodup →
    members.lookup typeKey = some (.text name) →
    kinds.find? (·.kind == name) = some node →
    node.fields.read? true (members.lookup ·) = some parts →
    codec.decode? nested (.object members) = some (node.make parts)
  of_decode? {nested : Bool} {json : Json ν} {value : α} : codec.decode? nested json = some value →
    ∃ node ∈ kinds, ∃ part parts, json.Offers part ∧
      node.fields.read? true part = some parts ∧ node.make parts = value

/-- What is promised for cases with a tag. A library may read the content as a nested value even
where the whole is not nested. -/
structure IsTagged (variants : List (Variant ν α)) : Prop where
  encode_eq {value : α} {name : String} {content : Option (Json ν)} :
    variants.findSome? (·.write? value) = some (name, content) →
    codec.encode value =
      .object (("tag", .text name) :: (content.map fun json ↦ ("value", json)).toList)
  decode?_object {nested : Bool} {members : List (String × Json ν)} {name : String}
      {variant : Variant ν α} {value : α} :
    (members.map (·.1)).Nodup →
    members.lookup "tag" = some (.text name) →
    variants.find? (·.name == name) = some variant →
    (∀ nested, variant.read? nested (members.lookup "value") = some value) →
    codec.decode? nested (.object members) = some value
  of_decode? {nested : Bool} {json : Json ν} {value : α} : codec.decode? nested json = some value →
    0 < json.depth ∧ ∃ variant ∈ variants, ∃ nested content,
      (∀ part, content = some part → part ∈ json.parts) ∧ variant.read? nested content = some value

structure IsNamed (variants : List (Variant ν α)) : Prop where
  encode_eq {value : α} {name : String} {content : Option (Json ν)} :
    variants.findSome? (·.write? value) = some (name, content) →
    codec.encode value = (content.map fun json ↦ .object [(name, json)]).getD (.text name)
  decode?_text {nested : Bool} {name : String} {variant : Variant ν α} {value : α} :
    variants.find? (·.name == name) = some variant →
    variant.read? nested none = some value →
    codec.decode? nested (.text name) = some value
  decode?_object {nested : Bool} {name : String} {content : Json ν} {variant : Variant ν α}
      {value : α} :
    variants.find? (·.name == name) = some variant →
    variant.read? nested (some content) = some value →
    codec.decode? nested (.object [(name, content)]) = some value
  of_decode? {nested : Bool} {json : Json ν} {value : α} : codec.decode? nested json = some value →
    ∃ variant ∈ variants, ∃ content,
      (∀ part, content = some part → part ∈ json.parts) ∧ variant.read? nested content = some value

end Codec

namespace JsonLibrary

variable (lib : JsonLibrary ν)

/-- What is promised for a type of integers. A number with a point or an exponent is refused, and so
is one that does not fit the type. -/
structure IsInteger (codec : Codec ν α) (toInt : α → Int) : Prop where
  encode_eq (value : α) : codec.encode value = .number (lib.ofInt (toInt value))
  decode?_eq_some_iff {nested : Bool} {json : Json ν} {value : α} :
    codec.decode? nested json = some value ↔
      ∃ number, json = .number number ∧ lib.toInt? number = some (toInt value)

/-- What the library promises. -/
structure Lawful : Prop where
  /-- Integers of 64 bits, with a sign or without one, keep their value. -/
  toInt?_ofInt {n : Int} : Int64.minValue.toInt ≤ n → n < UInt64.size →
    lib.toInt? (lib.ofInt n) = some n
  /-- The number of a float has a point or an exponent. -/
  toInt?_ofFloat {x : Float} : x.isFinite = true → lib.toInt? (lib.ofFloat x) = none
  /-- A number that is too large for a float is refused. -/
  isFinite_of_toFloat? {number : ν} {x : Float} : lib.toFloat? number = some x → x.isFinite = true
  encode_text (value : String) : lib.text.encode value = .text value
  decode?_text {nested : Bool} {json : Json ν} {value : String} :
    lib.text.decode? nested json = some value ↔ json = .text value
  encode_boolean (value : Bool) : lib.boolean.encode value = .bool value
  decode?_boolean {nested : Bool} {json : Json ν} {value : Bool} :
    lib.boolean.decode? nested json = some value ↔ json = .bool value
  int64 : lib.IsInteger lib.int64 Int64.toInt
  uint32 : lib.IsInteger lib.uint32 (·.toNat)
  uint64 : lib.IsInteger lib.uint64 (·.toNat)
  /-- JSON has no infinities, and no number that is not a number; they are written as null. -/
  encode_float (x : Float) :
    lib.float.encode x = if x.isFinite then .number (lib.ofFloat x) else .null
  decode?_float {nested : Bool} {json : Json ν} {x : Float} :
    lib.float.decode? nested json = some x ↔
      ∃ number, json = .number number ∧ lib.toFloat? number = some x
  encode_list {α : Type} (item : Codec ν α) (values : List α) :
    (lib.list item).encode values = .array (values.map item.encode)
  decode?_list {α : Type} {item : Codec ν α} {nested : Bool} {json : Json ν} {values : List α} :
    (lib.list item).decode? nested json = some values ↔
      ∃ items, json = .array items ∧ item.decodeItems? nested items = some values
  record {α : Type} (layout : RecordLayout ν α) : (lib.record layout).IsRecord layout
  tree {α : Type} (kinds : List (NodeLayout ν α)) : (lib.tree kinds).IsTree kinds
  tagged {α : Type} (variants : List (Variant ν α)) : (lib.tagged variants).IsTagged variants
  named {α : Type} (variants : List (Variant ν α)) : (lib.named variants).IsNamed variants
  /-- The text of a value that is not nested too deep is read as its encoding is decoded. -/
  read?_write {α : Type} {codec : Codec ν α} {value : α} :
    (codec.encode value).depth < lib.depthLimit →
    lib.read? codec (lib.write (codec.encode value)) = codec.decode? false (codec.encode value)
  /-- Only texts that are not nested too deep are read. -/
  of_read? {α : Type} {codec : Codec ν α} {text : String} {value : α} :
    lib.read? codec text = some value →
    ∃ json, json.depth < lib.depthLimit ∧ codec.decode? false json = some value

/-- The number written for a finite float is read as the same float. -/
def FloatsComeBack : Prop :=
  ∀ x : Float, x.isFinite = true → lib.toFloat? (lib.ofFloat x) = some x

end JsonLibrary

end MapQuery
