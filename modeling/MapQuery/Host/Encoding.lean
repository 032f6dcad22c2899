import MapQuery.Host.Value
import MapQuery.Json.Library

/-!
# Host data in JSON

Kinds and styles are their names, records are objects, and values have a tag. A type or a unit of
the host's own is an object with the one member `other`.
-/

namespace MapQuery

variable {ν : Type} (lib : JsonLibrary ν)

/-- The case that consists of this value. -/
def Variant.ofName {α : Type} [DecidableEq α] (name : α → String) (value : α) : Variant ν α :=
  .bare (name value) value (decide <| · = value)

/-! ## Names -/

namespace FieldType

def code : FieldType → String
  | string => "string"
  | int32 => "int32"
  | uint32 => "u_int32"
  | int64 => "int64"
  | uint64 => "u_int64"
  | double => "double"
  | boolean => "bool"
  | date => "date"
  | dateTime => "date_time"
  | binary => "binary"
  | other _ => "other"

def variants : List (Variant ν FieldType) :=
  [string, int32, uint32, int64, uint64, double, boolean, date, dateTime, binary].map (.ofName code)
    ++ [.holding "other" lib.text other fun | other name => some name | _ => none]

def codec : Codec ν FieldType := lib.named (variants lib)

end FieldType

namespace MapUnit

def code : MapUnit → String
  | meters => "meters"
  | kilometers => "kilometers"
  | feet => "feet"
  | degrees => "degrees"
  | other _ => "other"

def variants : List (Variant ν MapUnit) :=
  [meters, kilometers, feet, degrees].map (.ofName code)
    ++ [.holding "other" lib.text other fun | other name => some name | _ => none]

def codec : Codec ν MapUnit := lib.named (variants lib)

end MapUnit

namespace GeometryKind

def code : GeometryKind → String
  | point => "point"
  | line => "line"
  | polygon => "polygon"
  | unknown => "unknown"
  | null => "null"

def codec : Codec ν GeometryKind :=
  lib.named ([point, line, polygon, unknown, null].map (.ofName code))

end GeometryKind

namespace SpatialPredicate

def code : SpatialPredicate → String
  | intersects => "intersects"
  | contains => "contains"
  | disjoint => "disjoint"
  | equals => "equals"
  | touches => "touches"
  | overlaps => "overlaps"
  | within => "within"
  | crosses => "crosses"

def codec : Codec ν SpatialPredicate :=
  lib.named ([intersects, contains, disjoint, equals, touches, overlaps, within, crosses].map
    (.ofName code))

end SpatialPredicate

namespace EndCapStyle

def code : EndCapStyle → String
  | round => "round"
  | flat => "flat"
  | square => "square"

def variants : List (Variant ν EndCapStyle) := [round, flat, square].map (.ofName code)

def codec : Codec ν EndCapStyle := lib.named variants

end EndCapStyle

namespace JoinStyle

def code : JoinStyle → String
  | round => "round"
  | miter => "miter"
  | bevel => "bevel"

def variants : List (Variant ν JoinStyle) := [round, miter, bevel].map (.ofName code)

def codec : Codec ν JoinStyle := lib.named variants

end JoinStyle

/-! ## Values -/

namespace AttributeValue

def variants : List (Variant ν AttributeValue) :=
  [.bare "null" null (decide <| · = null),
    .holding "bool" lib.boolean boolean fun | boolean value => some value | _ => none,
    .holding "integer" lib.int64 integer fun | integer value => some value | _ => none,
    .holding "real" lib.float real fun | real value => some value | _ => none,
    .holding "text" lib.text text fun | text value => some value | _ => none]

def codec : Codec ν AttributeValue := lib.tagged (variants lib)

end AttributeValue

namespace FilterValue

def variants : List (Variant ν FilterValue) :=
  [.holding "text" lib.text text fun | text value => some value | _ => none,
    .holding "integer" lib.int64 integer fun | integer value => some value | _ => none,
    .holding "float" lib.float float fun | float value => some value | _ => none,
    .holding "bool" lib.boolean boolean fun | boolean value => some value | _ => none]

def codec : Codec ν FilterValue := lib.tagged (variants lib)

end FilterValue

namespace CategoryValue

def variants : List (Variant ν CategoryValue) :=
  [.bare "null" null (decide <| · = null),
    .holding "single" (AttributeValue.codec lib) single fun
      | single value => some value
      | _ => none,
    .holding "list" (lib.list (AttributeValue.codec lib)) list fun
      | list values => some values
      | _ => none]

def codec : Codec ν CategoryValue := lib.named (variants lib)

end CategoryValue

/-! ## Records -/

def Field.layout : RecordLayout ν Field where
  Parts := String × String × FieldType × Unit
  fields :=
    .member "name" (.required lib.text) <| .member "display_name" (.required lib.text) <|
    .member "ty" (.required (FieldType.codec lib)) .nil
  parts field := (field.name, field.displayName, field.type, ())
  make := fun (name, displayName, type, ()) ↦ ⟨name, displayName, type⟩

def Field.codec : Codec ν Field := lib.record (layout lib)

def labelled {β : Type} (value : Codec ν β) : Fields ν (β × String × Unit) :=
  .member "value" (.required value) <| .member "label" (.required lib.text) .nil

theorem nodup_keys_labelled {β : Type} (value : Codec ν β) : (labelled lib value).keys.Nodup := by
  simp [labelled, Fields.keys]

def Category.layout : RecordLayout ν Category where
  Parts := CategoryValue × String × Unit
  fields := labelled lib (CategoryValue.codec lib)
  parts category := (category.value, category.label, ())
  make := fun (value, label, ()) ↦ ⟨value, label⟩
  keys_nodup := nodup_keys_labelled lib _

def Category.codec : Codec ν Category := lib.record (layout lib)

def Classification.layout : RecordLayout ν Classification where
  Parts := String × List Category × Unit
  fields :=
    .member "class_attribute" (.required lib.text) <|
    .member "categories" (.required (lib.list (Category.codec lib))) .nil
  parts classification := (classification.field, classification.categories, ())
  make := fun (field, categories, ()) ↦ ⟨field, categories⟩

def Classification.codec : Codec ν Classification := lib.record (layout lib)

def Crs.layout : RecordLayout ν Crs where
  Parts := String × MapUnit × Unit
  fields :=
    .member "auth_id" (.required lib.text) <|
    .member "map_units" (.required (MapUnit.codec lib)) .nil
  parts crs := (crs.authorityId, crs.mapUnit, ())
  make := fun (authorityId, mapUnit, ()) ↦ ⟨authorityId, mapUnit⟩

def Crs.codec : Codec ν Crs := lib.record (layout lib)

def BufferParameters.layout : RecordLayout ν BufferParameters where
  Parts := Float × UInt32 × EndCapStyle × JoinStyle × Float × Bool × Unit
  fields :=
    .member "distance" (.required lib.float) <| .member "segments" (.required lib.uint32) <|
    .member "end_cap_style" (.required (EndCapStyle.codec lib)) <|
    .member "join_style" (.required (JoinStyle.codec lib)) <|
    .member "miter_limit" (.required lib.float) <| .member "dissolve" (.required lib.boolean) .nil
  parts parameters :=
    (parameters.distance, parameters.segments, parameters.endCapStyle, parameters.joinStyle,
      parameters.miterLimit, parameters.dissolve, ())
  make := fun (distance, segments, endCapStyle, joinStyle, miterLimit, dissolve, ()) ↦
    ⟨distance, segments, endCapStyle, joinStyle, miterLimit, dissolve⟩

def BufferParameters.codec : Codec ν BufferParameters := lib.record (layout lib)

def OverlayParameters.layout : RecordLayout ν OverlayParameters where
  Parts := List String × List String × String × Unit
  fields :=
    .member "input_fields" (.required (lib.list lib.text)) <|
    .member "overlay_fields" (.required (lib.list lib.text)) <|
    .member "overlay_fields_prefix" (.required lib.text) .nil
  parts parameters :=
    (parameters.inputFields, parameters.overlayFields, parameters.overlayFieldsPrefix, ())
  make := fun (inputFields, overlayFields, overlayFieldsPrefix, ()) ↦
    ⟨inputFields, overlayFields, overlayFieldsPrefix⟩

def OverlayParameters.codec : Codec ν OverlayParameters := lib.record (layout lib)

end MapQuery
