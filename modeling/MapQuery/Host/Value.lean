import MapQuery.Decimal.Layout

/-!
# What a host tells about its data

The *host* is the program that owns the layers and processes them. This file holds the vocabulary in
which it describes them: fields and their types, attribute values, categories of a map legend, kinds
of geometry and coordinate reference systems; and the parameters of its operations.
-/

namespace MapQuery

/-! ## Fields -/

inductive FieldType where
  | string
  | int32
  | uint32
  | int64
  | uint64
  | double
  | boolean
  | date
  | dateTime
  | binary
  /-- A type of the host's own, with its name. -/
  | other (name : String)
deriving Repr, DecidableEq

namespace FieldType

/-- Whether the values are whole numbers. -/
def isInteger : FieldType → Bool
  | int32 | uint32 | int64 | uint64 => true
  | _ => false

/-- Whether the values are numbers. -/
def isNumeric (type : FieldType) : Bool := type.isInteger || type = double

def text : FieldType → String
  | string => "string"
  | int32 => "int32"
  | uint32 => "uint32"
  | int64 => "int64"
  | uint64 => "uint64"
  | double => "double"
  | boolean => "bool"
  | date => "date"
  | dateTime => "datetime"
  | binary => "binary"
  | other name => name

end FieldType

structure Field where
  name : String
  /-- The name that users see. -/
  displayName : String
  type : FieldType
deriving Repr, DecidableEq

/-! ## Values -/

inductive AttributeValue where
  | null
  | boolean (value : Bool)
  | integer (value : Int64)
  | real (value : Float)
  | text (value : String)
deriving DecidableEq

namespace AttributeValue

/-- Whether the host takes two values for the same. Values of different kinds are never the same.
Reals are compared as floats are: NaN is not the same as itself, and the two zeros are. -/
def same : AttributeValue → AttributeValue → Bool
  | null, null => true
  | boolean a, boolean b => a == b
  | integer a, integer b => a == b
  | real a, real b => a == b
  | text a, text b => a == b
  | _, _ => false

/-- The value in messages. -/
def display : AttributeValue → String
  | null => "NULL"
  | boolean value => if value then "true" else "false"
  | integer value => toString value.toInt
  | real value => Decimal.plainText value
  | text value => value

end AttributeValue

inductive FilterValue where
  | text (value : String)
  | integer (value : Int64)
  | float (value : Float)
  | boolean (value : Bool)
deriving DecidableEq

def FilterValue.display : FilterValue → String
  | text value => value
  | integer value => toString value.toInt
  | float value => Decimal.plainText value
  | boolean value => if value then "true" else "false"

/-! ## Legends -/

/-- The values that a category of a legend stands for: one, several, or all that no other category
has. -/
inductive CategoryValue where
  | null
  | single (value : AttributeValue)
  | list (values : List AttributeValue)
deriving DecidableEq

structure Category where
  value : CategoryValue
  label : String
deriving DecidableEq

/-- A legend that sorts features into categories by the value of one field. -/
structure Classification where
  field : String
  categories : List Category
deriving DecidableEq

/-! ## Geometry -/

inductive GeometryKind where
  | point
  | line
  | polygon
  | unknown
  | null
deriving Repr, DecidableEq

inductive MapUnit where
  | meters
  | kilometers
  | feet
  | degrees
  | other (name : String)
deriving Repr, DecidableEq

/-- A coordinate reference system, known by the id that an authority gave it. -/
structure Crs where
  authorityId : String
  mapUnit : MapUnit
deriving Repr, DecidableEq

/-- Whether distances in metres can be used as they are. -/
def Crs.isMetric (crs : Crs) : Bool := crs.mapUnit = .meters

inductive SpatialPredicate where
  | intersects
  | contains
  | disjoint
  | equals
  | touches
  | overlaps
  | within
  | crosses
deriving Repr, DecidableEq

def SpatialPredicate.name : SpatialPredicate → String
  | intersects => "Intersects"
  | contains => "Contains"
  | disjoint => "Disjoint"
  | equals => "Equals"
  | touches => "Touches"
  | overlaps => "Overlaps"
  | within => "Within"
  | crosses => "Crosses"

/-! ## Parameters of operations -/

inductive EndCapStyle where
  | round
  | flat
  | square
deriving Repr, DecidableEq

inductive JoinStyle where
  | round
  | miter
  | bevel
deriving Repr, DecidableEq

structure BufferParameters where
  /-- The distance in the units of the data. -/
  distance : Float
  /-- The number of segments in a quarter of a circle. -/
  segments : UInt32
  endCapStyle : EndCapStyle
  joinStyle : JoinStyle
  miterLimit : Float
  dissolve : Bool
deriving DecidableEq

/-- The fields that a combination of two datasets keeps. An empty list keeps all. -/
structure OverlayParameters where
  inputFields : List String
  overlayFields : List String
  overlayFieldsPrefix : String
deriving Repr, DecidableEq

/-- Keeps all fields under their own names. -/
def OverlayParameters.all : OverlayParameters := ⟨[], [], ""⟩

end MapQuery
