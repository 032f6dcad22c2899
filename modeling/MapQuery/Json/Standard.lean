import MapQuery.Json.Library
import MapQuery.Json.Text

/-!
# A library in full

`JsonLibrary.standard` keeps the digits of numbers and reads the forms that its users expect. Where
an object is written, the array of its parts is read as well. Inside a tree names may be given by
their numbers. An object is refused if a key that matters stands in it twice; other members do not
matter at all.
-/

namespace MapQuery

/-- The number of parts that an array must have in the place of the object. The last fields may be
missing if they are left out in the object as well. -/
def Fields.leastLength {ν : Type} : {τ : Type} → Fields ν τ → Nat
  | _, nil => 0
  | _, member _ (.omitted _) rest => if rest.leastLength = 0 then 0 else rest.leastLength + 1
  | _, member _ _ rest => rest.leastLength + 1

namespace JsonStandard

variable {α : Type}

/-! ## Plain values -/

def text : Codec JsonNumber String where
  encode := .text
  decode? _
    | .text value => some value
    | _ => none

def boolean : Codec JsonNumber Bool where
  encode := .bool
  decode? _
    | .bool value => some value
    | _ => none

/-- Integers of a type, where `ofInt` may be anything for an integer that does not fit the type. -/
def integer (toInt : α → Int) (ofInt : Int → α) : Codec JsonNumber α where
  encode value := .number (.ofInt (toInt value))
  decode? _
    | .number number =>
      number.toInt?.bind fun n ↦ if toInt (ofInt n) = n then some (ofInt n) else none
    | _ => none

def float : Codec JsonNumber Float where
  encode x := if x.isFinite then .number (.ofFloat x) else .null
  decode? _
    | .number number => number.toFloat?
    | _ => none

def list (item : Codec JsonNumber α) : Codec JsonNumber (List α) where
  encode values := .array (values.map item.encode)
  decode? nested
    | .array items => item.decodeItems? nested items
    | _ => none

/-! ## Objects, and arrays in their place -/

def repeatsNone (keys : List String) (members : List (String × Json JsonNumber)) : Bool :=
  keys.all fun key ↦ (members.filter (·.1 == key)).length ≤ 1

/-- What stands at the keys of the fields: the members of an object, or the items of an array in the
order of the fields. -/
def partsAt? {τ : Type} (fields : Fields JsonNumber τ) :
    Json JsonNumber → Option (String → Option (Json JsonNumber))
  | .object members => if repeatsNone fields.keys members then some (members.lookup ·) else none
  | .array items =>
    if fields.leastLength ≤ items.length ∧ items.length ≤ fields.keys.length then
      some ((fields.keys.zip items).lookup ·)
    else none
  | _ => none

def record (layout : RecordLayout JsonNumber α) : Codec JsonNumber α where
  encode value := .object (layout.fields.write (layout.parts value))
  decode? nested json :=
    (partsAt? layout.fields json).bind fun part ↦
      (layout.fields.read? nested part).map layout.make

/-- The choice that a JSON value tells by its name or, inside a tree, by its number. -/
def choice? {β : Type 1} (name : β → String) (choices : List β) (nested : Bool) :
    Json JsonNumber → Option β
  | .text text => choices.find? (name · == text)
  | .number number =>
    match nested, number.toInt? with
    | true, some (.ofNat n) => choices[n]?
    | _, _ => none
  | _ => none

/-- The node of a tree whose fields are given as an object or an array. -/
def readNode? (node : NodeLayout JsonNumber α) (json : Json JsonNumber) : Option α :=
  (partsAt? node.fields json).bind fun part ↦ (node.fields.read? true part).map node.make

def tree (kinds : List (NodeLayout JsonNumber α)) : Codec JsonNumber α where
  encode value := .object ((kinds.findSome? (·.write? value)).getD [])
  decode? nested
    | .object members =>
      if repeatsNone [typeKey] members then
        (members.lookup typeKey).bind fun kind ↦
          (choice? (·.kind) kinds nested kind).bind (readNode? · (.object members))
      else none
    | .array (kind :: items) =>
      (choice? (·.kind) kinds nested kind).bind (readNode? · (.array items))
    | _ => none

/-! ## Cases -/

/-- The name that a tag consists of. It may be given as the key of an object with nothing in it. -/
def bareName? (nested : Bool) : Json JsonNumber → Option String
  | .text name => some name
  | .object [(name, .null)] => some name
  | .object [(name, .object [])] => if nested then some name else none
  | _ => none

def tagged (variants : List (Variant JsonNumber α)) : Codec JsonNumber α where
  encode value :=
    match variants.findSome? (·.write? value) with
    | none => .null
    | some (name, content) =>
      .object (("tag", .text name) :: (content.map fun json ↦ ("value", json)).toList)
  decode? nested
    | .object members =>
      if repeatsNone ["tag", "value"] members then
        ((members.lookup "tag").bind (bareName? nested)).bind fun name ↦
          (variants.find? (·.name == name)).bind (·.read? nested (members.lookup "value"))
      else none
    | .array [tag, content] =>
      (choice? (·.name) variants nested tag).bind (·.read? nested (some content))
    | _ => none

def named (variants : List (Variant JsonNumber α)) : Codec JsonNumber α where
  encode value :=
    match variants.findSome? (·.write? value) with
    | none => .null
    | some (name, content) => (content.map fun json ↦ .object [(name, json)]).getD (.text name)
  decode? nested
    | .text name => (variants.find? (·.name == name)).bind (·.read? nested none)
    | .object [(name, content)] =>
      (variants.find? (·.name == name)).bind (·.read? nested (some content))
    | _ => none

end JsonStandard

/-- A library that keeps all promises (`JsonLibrary.standard_lawful`). -/
def JsonLibrary.standard : JsonLibrary JsonNumber where
  ofInt := .ofInt
  ofFloat := .ofFloat
  toInt? := JsonNumber.toInt?
  toFloat? := JsonNumber.toFloat?
  text := JsonStandard.text
  boolean := JsonStandard.boolean
  int64 := JsonStandard.integer Int64.toInt Int64.ofInt
  uint32 := JsonStandard.integer (·.toNat) fun n ↦ UInt32.ofNat n.toNat
  uint64 := JsonStandard.integer (·.toNat) fun n ↦ UInt64.ofNat n.toNat
  float := JsonStandard.float
  list := JsonStandard.list
  record := JsonStandard.record
  tree := JsonStandard.tree
  tagged := JsonStandard.tagged
  named := JsonStandard.named
  write json := String.ofList (JsonText.write json)
  read? codec text := (JsonText.read? text).bind (codec.decode? false)
  depthLimit := JsonText.depthLimit

/-! ## Trees that hold trees -/

namespace JsonStandard

variable {α : Type} (height : α → Nat)
  (kinds : Codec JsonNumber α → List (NodeLayout JsonNumber α))

/-- The encoding of a tree by those of the lower trees in it. -/
def encodeTree (value : α) : Json JsonNumber :=
  let lower : Codec JsonNumber α :=
    { encode part := if height part < height value then encodeTree part else .null
      decode? _ _ := none }
  (tree (kinds lower)).encode value
termination_by height value

/-- Reads a tree by reading the trees in it from values that are nested less deep. -/
def decodeTree? (nested : Bool) (json : Json JsonNumber) : Option α :=
  let lower : Codec JsonNumber α :=
    { encode _ := .null
      decode? nested part := if part.depth < json.depth then decodeTree? nested part else none }
  (tree (kinds lower)).decode? nested json
termination_by json.depth

/-- The codec of trees whose nodes have these kinds, given the codec of the trees in them. -/
def recursiveTree : Codec JsonNumber α := ⟨encodeTree height kinds, decodeTree? kinds⟩

end JsonStandard

end MapQuery
