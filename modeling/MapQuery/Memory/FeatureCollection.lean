import MapQuery.Host.Interface
import MapQuery.Memory.Envelope

/-!
# Features in memory

A feature has attributes and an envelope. A feature collection is a dataset: features in their
order, with the fields that can be asked for, the kind of their geometry and their coordinate
reference system.

Each operation of the host makes one collection out of one or two. The collection that it makes is
called `output` and has no short name, no key field and no legend. It keeps the fields of the first
collection, also where it has features of both.

One degree measures 100 km, whatever the latitude.
-/

namespace MapQuery

/-- Whether a filter value matches a value. Numbers match if they are equal as floats; a missing
value matches nothing. -/
def FilterValue.matches (wanted : FilterValue) (value : Option AttributeValue) : Bool :=
  match value, wanted with
  | some (.text a), .text b => a == b
  | some (.integer a), .integer b => a == b
  | some (.integer a), .float b => Float.ofInt a.toInt == b
  | some (.real a), .float b => a == b
  | some (.real a), .integer b => a == Float.ofInt b.toInt
  | some (.boolean a), .boolean b => a == b
  | _, _ => false

namespace Memory

/-! ## Features -/

/-- A feature. Of two attributes with one name the first one counts. -/
structure Feature where
  attributes : List (String × AttributeValue)
  envelope : Envelope
deriving DecidableEq

/-- The field by which features are numbered. -/
def numberField : String := "fid"

namespace Feature

/-- The value of a field, if the feature has one. -/
def value? (feature : Feature) (field : String) : Option AttributeValue :=
  feature.attributes.lookup field

/-- The value of a field, which is null if the feature has none. -/
def value (feature : Feature) (field : String) : AttributeValue :=
  (feature.value? field).getD .null

def set (feature : Feature) (field : String) (value : AttributeValue) : Feature :=
  { feature with attributes := (field, value) :: feature.attributes }

def setNumber (feature : Feature) (number : Nat) : Feature :=
  feature.set numberField (.integer (.ofNat number))

/-- The feature that has nothing but a number and an envelope. -/
def ofNumber (number : Nat) (envelope : Envelope) : Feature :=
  setNumber ⟨[], envelope⟩ number

def mapEnvelope (feature : Feature) (change : Envelope → Envelope) : Feature :=
  { feature with envelope := change feature.envelope }

/-- Whether the feature meets one of the others. -/
def meetsAny (feature : Feature) (others : List Feature) : Bool :=
  others.any fun other ↦ other.envelope.meets feature.envelope

/-- The feature once for each of the others that it meets, cut down to it. -/
def fragments (feature : Feature) (others : List Feature) : List Feature :=
  (others.filter fun other ↦ feature.envelope.meets other.envelope).map fun other ↦
    feature.mapEnvelope (·.clip other.envelope)

theorem value?_set_of_ne (feature : Feature) {field other : String} (value : AttributeValue)
    (h : other ≠ field) : (feature.set field value).value? other = feature.value? other := by
  simp [value?, set, List.lookup_cons, beq_false_of_ne h]

end Feature

/-- Numbers features in their order, beginning after the given number. -/
def renumber (start : Nat) (features : List Feature) : List Feature :=
  features.mapIdx fun i feature ↦ feature.setNumber (start + i + 1)

/-! ## Collections -/

structure FeatureCollection where
  id : String
  name : String
  shortName : Option String
  keyField : Option String
  fields : List Field
  classification : Option Classification
  kind : GeometryKind
  crs : Crs
  features : List Feature

namespace FeatureCollection

/-- The collection that an operation makes out of its first input. -/
def derive (input : FeatureCollection) (id : String) (kind : GeometryKind)
    (features : List Feature) : FeatureCollection where
  id
  name := "output"
  shortName := none
  keyField := none
  fields := input.fields
  classification := none
  kind
  crs := input.crs
  features

/-- The factor between the coordinates of two units. -/
def unitFactor : MapUnit → MapUnit → Float
  | .degrees, .meters => 100000
  | .meters, .degrees => 1 / 100000
  | _, _ => 1

section Operations

variable (input overlay : FeatureCollection) (id : String)

/-- The features whose field matches the filter value. -/
def extractByAttribute (field : String) (wanted : FilterValue) : FeatureCollection :=
  input.derive id input.kind
    (input.features.filter fun feature ↦ wanted.matches (feature.value? field))

/-- All features, each grown by a distance. -/
def buffer (distance : Float) : FeatureCollection :=
  input.derive id .polygon (input.features.map (·.mapEnvelope (·.grow distance)))

/-- All features in another coordinate reference system. -/
def reproject (target : Crs) : FeatureCollection :=
  let factor := unitFactor input.crs.mapUnit target.mapUnit
  { input.derive id input.kind (input.features.map (·.mapEnvelope (·.scale factor))) with
    crs := target }

/-- The features of both collections. -/
def union : FeatureCollection :=
  input.derive id input.kind (input.features ++ overlay.features)

/-- The features that meet none of the overlay. -/
def difference : FeatureCollection :=
  input.derive id input.kind
    (input.features.filter fun feature ↦ !feature.meetsAny overlay.features)

/-- The features merged to numbered ones; `separately` tells whether only those merge that meet. -/
def dissolve (separately : Bool) : FeatureCollection :=
  let envelopes := input.features.map (·.envelope)
  let parts :=
    if separately then Envelope.mergeMeeting envelopes else Envelope.mergeAll envelopes
  input.derive id input.kind (parts.mapIdx fun i part ↦ .ofNumber (i + 1) part)

/-- The features, each cut down to the features of the overlay that it meets. -/
def intersection : FeatureCollection :=
  input.derive id input.kind (input.features.flatMap (·.fragments overlay.features))

/-- The features that meet one of the overlay. -/
def extractByLocation : FeatureCollection :=
  input.derive id input.kind (input.features.filter (·.meetsAny overlay.features))

end Operations

/-- The value of a field for each feature; the field must be one of the collection's. -/
def attributeValues (collection : FeatureCollection) (field : String) :
    Except HostError (List AttributeValue) :=
  if collection.fields.any (·.name = field) then
    .ok (collection.features.map (·.value field))
  else .error ⟨collection.id ++ ": no field " ++ field⟩

instance : Dataset FeatureCollection where
  id := id
  name := name
  shortName := shortName
  fields := fields
  classification := classification
  geometryKind := kind
  crs := crs
  featureCount collection := collection.features.length
  keyField := keyField
  attributeValues := attributeValues

end FeatureCollection

end Memory

end MapQuery
