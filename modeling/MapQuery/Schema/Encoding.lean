import MapQuery.Host.Encoding
import MapQuery.Schema.Description
import MapQuery.Settings

/-!
# Descriptions and settings in JSON

The labels of a field are left out where the legend says nothing about the field; an empty list of
labels is kept. A capacity that is not set is null.
-/

namespace MapQuery

variable {ν : Type} (lib : JsonLibrary ν)

/-! ## Descriptions -/

namespace ValueSort

def variants : List (Variant ν ValueSort) := [string, number, boolean].map (.ofName name)

def codec : Codec ν ValueSort := lib.named variants

end ValueSort

def ValueLabel.layout : RecordLayout ν ValueLabel where
  Parts := AttributeValue × String × Unit
  fields := labelled lib (AttributeValue.codec lib)
  parts entry := (entry.value, entry.label, ())
  make := fun (value, label, ()) ↦ ⟨value, label⟩
  keys_nodup := nodup_keys_labelled lib _

def ValueLabel.codec : Codec ν ValueLabel := lib.record (layout lib)

def FieldDescription.layout : RecordLayout ν FieldDescription where
  Parts := String × String × ValueSort × Option (List ValueLabel) × Unit
  fields :=
    .member "id" (.required lib.text) <| .member "name" (.required lib.text) <|
    .member "ty" (.required (ValueSort.codec lib)) <|
    .member "values" (.omitted (lib.list (ValueLabel.codec lib))) .nil
  parts field := (field.id, field.name, field.sort, field.values, ())
  make := fun (id, name, sort, values, ()) ↦ ⟨id, name, sort, values⟩

def FieldDescription.codec : Codec ν FieldDescription := lib.record (layout lib)

def LayerDescription.layout : RecordLayout ν LayerDescription where
  Parts := String × String × List FieldDescription × Unit
  fields :=
    .member "id" (.required lib.text) <| .member "name" (.required lib.text) <|
    .member "fields" (.required (lib.list (FieldDescription.codec lib))) .nil
  parts layer := (layer.id, layer.name, layer.fields, ())
  make := fun (id, name, fields, ()) ↦ ⟨id, name, fields⟩

def LayerDescription.codec : Codec ν LayerDescription := lib.record (layout lib)

def Schema.layout : RecordLayout ν Schema where
  Parts := List LayerDescription × Unit
  fields := .member "layers" (.required (lib.list (LayerDescription.codec lib))) .nil
  parts schema := (schema.layers, ())
  make := fun (layers, ()) ↦ ⟨layers⟩

def Schema.codec : Codec ν Schema := lib.record (layout lib)

/-! ## Settings -/

def Settings.layout : RecordLayout ν Settings where
  Parts := String × UInt32 × Option UInt64 × Unit
  fields :=
    .member "metric_crs" (.required lib.text) <|
    .member "buffer_segments" (.required lib.uint32) <|
    .member "response_cache_capacity" (.nullable lib.uint64) .nil
  parts settings := (settings.metricCrs, settings.bufferSegments, settings.cacheCapacity, ())
  make := fun (metricCrs, bufferSegments, cacheCapacity, ()) ↦
    ⟨metricCrs, bufferSegments, cacheCapacity⟩

def Settings.codec : Codec ν Settings := lib.record (layout lib)

end MapQuery
