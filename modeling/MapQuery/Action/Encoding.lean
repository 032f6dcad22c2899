import MapQuery.Action.Basic
import MapQuery.Json.Standard

/-!
# Actions in JSON

A literal is a value with a tag. Layers and actions are trees: the kind of a node stands in the
member `type`, its operands and parameters in the other members. Since layers stand inside layers,
the layout of their nodes has the codec of layers in it (`Layer.kinds`).
-/

namespace MapQuery

variable {ν : Type} (lib : JsonLibrary ν)

namespace Literal

def variants : List (Variant ν Literal) :=
  [.holding "text" lib.text text fun | text value => some value | _ => none,
    .holding "integer" lib.int64 integer fun | integer value => some value | _ => none,
    .holding "float" lib.float float fun | float value => some value | _ => none,
    .holding "bool" lib.boolean boolean fun | boolean value => some value | _ => none]

def codec : Codec ν Literal := lib.tagged (variants lib)

end Literal

/-! ## Layers -/

namespace Layer

variable (layer : Codec ν Layer)

def sourceNode : NodeLayout ν Layer where
  kind := "source"
  Parts := String × Unit
  fields := .member "id" (.required lib.text) .nil
  parts? := fun | source id => some (id, ()) | _ => none
  make := fun (id, ()) ↦ source id
  make_of_parts? {value parts} h := by
    cases value <;> cases h
    rfl
  parts?_make _ := rfl

def filteredNode : NodeLayout ν Layer where
  kind := "filtered"
  Parts := Layer × String × Literal × Unit
  fields :=
    .member "source" (.required layer) <| .member "field" (.required lib.text) <|
    .member "value" (.required (Literal.codec lib)) .nil
  parts? := fun | filtered layer field value => some (layer, field, value, ()) | _ => none
  make := fun (layer, field, value, ()) ↦ filtered layer field value
  make_of_parts? {value parts} h := by
    cases value <;> cases h
    rfl
  parts?_make _ := rfl

def bufferedNode : NodeLayout ν Layer where
  kind := "buffered"
  Parts := Layer × Float × Unit
  fields := .member "source" (.required layer) <| .member "distance" (.required lib.float) .nil
  parts? := fun | buffered layer distance => some (layer, distance, ()) | _ => none
  make := fun (layer, distance, ()) ↦ buffered layer distance
  make_of_parts? {value parts} h := by
    cases value <;> cases h
    rfl
  parts?_make _ := rfl

def combinedNode (overlay : Overlay) : NodeLayout ν Layer where
  kind := overlay.command
  Parts := Layer × Layer × Unit
  fields := .member "source_a" (.required layer) <| .member "source_b" (.required layer) .nil
  parts? := fun
    | combined overlay' a b => if overlay' = overlay then some (a, b, ()) else none
    | _ => none
  make := fun (a, b, ()) ↦ combined overlay a b
  make_of_parts? {value parts} h := by
    cases value with
    | combined overlay' a b =>
      dsimp only at h
      split at h
      · rename_i heq
        cases h
        rw [heq]
      · cases h
    | _ => cases h
  parts?_make _ := if_pos rfl

def kinds : List (NodeLayout ν Layer) :=
  [sourceNode lib, filteredNode lib layer, bufferedNode lib layer, combinedNode layer .union,
    combinedNode layer .intersection, combinedNode layer .difference]

def standardCodec : Codec JsonNumber Layer := JsonStandard.recursiveTree height (kinds .standard)

end Layer

/-! ## Actions -/

def Action.node (layer : Codec ν Layer) (verb : Verb) : NodeLayout ν Action where
  kind := verb.command
  Parts := Layer × Unit
  fields := .member "layer" (.required layer) .nil
  parts? action := if action.verb = verb then some (action.layer, ()) else none
  make := fun (layer, ()) ↦ ⟨verb, layer⟩
  make_of_parts? {action parts} h := by
    split at h
    · rename_i heq
      cases h
      rw [← heq]
    · cases h
  parts?_make _ := if_pos rfl

def Action.codec (layer : Codec ν Layer) : Codec ν Action :=
  lib.tree ([Verb.select, .addToMap, .count].map (Action.node layer))

end MapQuery
