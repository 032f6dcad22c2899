import MapQuery.Proofs.Action.Encoding
import MapQuery.Proofs.Host.Encoding
import MapQuery.Proofs.Json.Standard
import MapQuery.Schema.Encoding

/-!
# The data model round-trips

All data that a host exchanges with the assistant comes back from JSON, whatever library writes and
reads it (`dataModel_roundTrips`): actions and their layers, literals and filter values, what the
host tells about its layers, the description of a project, and the settings.

JSON values come back without exception. Their texts do as well, but a library refuses texts that
are nested too deep. No data is nested deeper than eight levels, trees apart, so the limit concerns
layers and actions only; and for them it is a limit on the height of the tree.

Two parts of a record can be missing, and in different ways. Labels that are not there have no
member, so that an empty list of them is something else; a capacity that is not there is null, so
that it is not zero.
-/

namespace MapQuery

variable {ν : Type} {lib : JsonLibrary ν}

/-! ## Descriptions and settings -/

namespace ValueSort

theorem separates : Separates (variants : List (Variant ν _)) Variant.name Variant.write? :=
  Variant.separates_ofName (by decide) (by rintro (_ | _ | _) <;> decide)

theorem roundTrips (hlib : lib.Lawful) : (codec lib).RoundTrips fun _ ↦ True :=
  (hlib.named _).roundTrips separates fun _ ↦ List.forall_mem_map.mpr fun _ _ ↦ .ofName

theorem nestedWithin (hlib : lib.Lawful) : (codec lib).NestedWithin 1 :=
  (hlib.named _).nestedWithin separates (List.forall_mem_map.mpr fun _ _ ↦ .bare)

end ValueSort

namespace ValueLabel

def isFinite (entry : ValueLabel) : Bool := entry.value.isFinite

theorem roundTrips (hlib : lib.Lawful) (hfloats : lib.FloatsComeBack) :
    (codec lib).RoundTrips fun entry ↦ entry.isFinite = true :=
  (hlib.record (layout lib)).roundTrips
    (fun n ↦ .member (.required (AttributeValue.roundTrips hlib hfloats n)) <|
      .member (.required (hlib.roundTrips_text n)) .nil)
    (by simp [layout, isFinite])

theorem nestedWithin (hlib : lib.Lawful) : (codec lib).NestedWithin 2 :=
  (hlib.record (layout lib)).nestedWithin <|
    .member (.required (AttributeValue.nestedWithin hlib)) <|
    .member (.required (hlib.nestedWithin_text.mono (by decide))) .nil

end ValueLabel

namespace FieldDescription

def isFinite (field : FieldDescription) : Bool :=
  field.values.all (List.all · ValueLabel.isFinite)

theorem roundTrips (hlib : lib.Lawful) (hfloats : lib.FloatsComeBack) :
    (codec lib).RoundTrips fun field ↦ field.isFinite = true := by
  have hlabels := hlib.roundTrips_list (ValueLabel.roundTrips hlib hfloats)
  refine (hlib.record (layout lib)).roundTrips
    (fun n ↦ .member (.required (hlib.roundTrips_text n)) <|
      .member (.required (hlib.roundTrips_text n)) <|
      .member (.required (ValueSort.roundTrips hlib n)) <|
      .member (.omitted (hlabels n) fun values ↦ ?_) .nil) ?_
  · rw [hlib.encode_list]
    exact nofun
  · rintro ⟨id, name, sort, _ | values⟩ <;> simp [layout, isFinite]

theorem nestedWithin (hlib : lib.Lawful) : (codec lib).NestedWithin 4 := by
  have htext := hlib.nestedWithin_text.mono (Nat.zero_le 3)
  exact (hlib.record (layout lib)).nestedWithin <|
    .member (.required htext) <| .member (.required htext) <|
    .member (.required ((ValueSort.nestedWithin hlib).mono (by decide))) <|
    .member (.omitted (hlib.nestedWithin_list (ValueLabel.nestedWithin hlib))) .nil

theorem lookup_values_encode (hlib : lib.Lawful) (field : FieldDescription) :
    ∃ members, (codec lib).encode field = .object members ∧
      members.lookup "values" = field.values.map (lib.list (ValueLabel.codec lib)).encode := by
  refine ⟨_, (hlib.record (layout lib)).encode_eq field, ?_⟩
  obtain ⟨id, name, sort, _ | values⟩ := field <;> rfl

end FieldDescription

namespace LayerDescription

def isFinite (layer : LayerDescription) : Bool := layer.fields.all FieldDescription.isFinite

theorem roundTrips (hlib : lib.Lawful) (hfloats : lib.FloatsComeBack) :
    (codec lib).RoundTrips fun layer ↦ layer.isFinite = true := by
  have hfields := hlib.roundTrips_list (FieldDescription.roundTrips hlib hfloats)
  exact (hlib.record (layout lib)).roundTrips
    (fun n ↦ .member (.required (hlib.roundTrips_text n)) <|
      .member (.required (hlib.roundTrips_text n)) <| .member (.required (hfields n)) .nil)
    (by simp [layout, isFinite])

theorem nestedWithin (hlib : lib.Lawful) : (codec lib).NestedWithin 6 := by
  have htext := hlib.nestedWithin_text.mono (Nat.zero_le 5)
  exact (hlib.record (layout lib)).nestedWithin <|
    .member (.required htext) <| .member (.required htext) <|
    .member (.required (hlib.nestedWithin_list (FieldDescription.nestedWithin hlib))) .nil

end LayerDescription

namespace Schema

def isFinite (schema : Schema) : Bool := schema.layers.all LayerDescription.isFinite

theorem roundTrips (hlib : lib.Lawful) (hfloats : lib.FloatsComeBack) :
    (codec lib).RoundTrips fun schema ↦ schema.isFinite = true := by
  have hlayers := hlib.roundTrips_list (LayerDescription.roundTrips hlib hfloats)
  exact (hlib.record (layout lib)).roundTrips
    (fun n ↦ .member (.required (hlayers n)) .nil) (by simp [layout, isFinite])

theorem nestedWithin (hlib : lib.Lawful) : (codec lib).NestedWithin 8 :=
  (hlib.record (layout lib)).nestedWithin <|
    .member (.required (hlib.nestedWithin_list (LayerDescription.nestedWithin hlib))) .nil

end Schema

namespace Settings

theorem roundTrips (hlib : lib.Lawful) : (codec lib).RoundTrips fun _ ↦ True := by
  have hsegments := hlib.roundTrips_natural hlib.uint32 fun n ↦ n.toNat_lt.trans (by decide)
  have hcapacity := hlib.roundTrips_natural hlib.uint64 UInt64.toNat_lt
  refine (hlib.record (layout lib)).roundTrips
    (fun n ↦ .member (.required (hlib.roundTrips_text n)) <|
      .member (.required (hsegments n)) <| .member (.nullable (hcapacity n) fun capacity ↦ ?_) .nil)
    (by simp)
  rw [hlib.uint64.encode_eq]
  exact nofun

theorem nestedWithin (hlib : lib.Lawful) : (codec lib).NestedWithin 1 :=
  (hlib.record (layout lib)).nestedWithin <|
    .member (.required hlib.nestedWithin_text) <|
    .member (.required hlib.uint32.nestedWithin) <|
    .member (.nullable hlib.uint64.nestedWithin) .nil

theorem lookup_capacity_encode (hlib : lib.Lawful) (settings : Settings) :
    ∃ members, (codec lib).encode settings = .object members ∧
      members.lookup "response_cache_capacity" =
        some ((settings.cacheCapacity.map lib.uint64.encode).getD .null) :=
  ⟨_, (hlib.record (layout lib)).encode_eq settings, rfl⟩

end Settings

/-! ## All data -/

/-- Of the values of a type, exactly those with the first property come back from their encoding,
and exactly those with the second one from the text of their encoding. Whatever is decoded from a
JSON value comes back, and so does whatever is read from a text. -/
structure JsonLibrary.BringsBack (lib : JsonLibrary ν) {α : Type} (codec : Codec ν α)
    (P Q : α → Prop) : Prop where
  decode_encode_iff (value : α) :
    codec.decode? false (codec.encode value) = some value ↔ P value
  decode_encode_of_decode {json : Json ν} {value : α} : codec.decode? false json = some value →
    codec.decode? false (codec.encode value) = some value
  read_write_iff (value : α) :
    lib.read? codec (lib.write (codec.encode value)) = some value ↔ Q value
  read_write_of_read {text : String} {value : α} : lib.read? codec text = some value →
    lib.read? codec (lib.write (codec.encode value)) = some value

namespace Codec.RoundTrips

variable {α : Type} {codec : Codec ν α} {P : α → Prop}

theorem decode_encode (h : codec.RoundTrips P) {value : α} (hvalue : P value) :
    codec.decode? false (codec.encode value) = some value :=
  (h _).decode_encode hvalue (Nat.lt_succ_self _)

theorem of_decode (h : codec.RoundTrips P) {json : Json ν} {value : α}
    (hdecode : codec.decode? false json = some value) :
    P value ∧ (codec.encode value).depth ≤ json.depth :=
  (h _).of_decode hdecode (Nat.lt_succ_self _)

/-- A text is not nested too deep exactly if the encoding is not, so the limit stands in the place
of the text. -/
theorem read?_write_iff (h : codec.RoundTrips P) (hlib : lib.Lawful) (value : α) :
    lib.read? codec (lib.write (codec.encode value)) = some value ↔
      P value ∧ (codec.encode value).depth < lib.depthLimit := by
  constructor
  · intro hread
    obtain ⟨json, hdepth, hdecode⟩ := hlib.of_read? hread
    obtain ⟨hP, hle⟩ := h.of_decode hdecode
    exact ⟨hP, hle.trans_lt hdepth⟩
  · rintro ⟨hP, hdepth⟩
    rw [hlib.read?_write hdepth, h.decode_encode hP]

theorem bringsBack (h : codec.RoundTrips P) (hlib : lib.Lawful) {Q : α → Prop}
    (hQ : ∀ value, P value ∧ (codec.encode value).depth < lib.depthLimit ↔ Q value) :
    lib.BringsBack codec P Q where
  decode_encode_iff _ := ⟨fun hdecode ↦ (h.of_decode hdecode).1, h.decode_encode⟩
  decode_encode_of_decode hdecode := h.decode_encode (h.of_decode hdecode).1
  read_write_iff value := (h.read?_write_iff hlib value).trans (hQ value)
  read_write_of_read {text value} hread := by
    obtain ⟨json, hdepth, hdecode⟩ := hlib.of_read? hread
    obtain ⟨hP, hle⟩ := h.of_decode hdecode
    exact (h.read?_write_iff hlib value).mpr ⟨hP, hle.trans_lt hdepth⟩

theorem bringsBack_of_nestedWithin (h : codec.RoundTrips P) (hlib : lib.Lawful) {d : ℕ}
    (hwithin : codec.NestedWithin d) (hd : d < lib.depthLimit) : lib.BringsBack codec P P :=
  h.bringsBack hlib fun value ↦ and_iff_left ((hwithin value).trans_lt hd)

end Codec.RoundTrips

theorem Codec.IsTagged.encode_ne {α : Type} {codec : Codec ν α} {variants : List (Variant ν α)}
    (h : codec.IsTagged variants) {a b : α} {name name' : String}
    {content content' : Option (Json ν)}
    (ha : variants.findSome? (·.write? a) = some (name, content))
    (hb : variants.findSome? (·.write? b) = some (name', content')) (hne : name ≠ name') :
    codec.encode a ≠ codec.encode b := by
  rw [h.encode_eq ha, h.encode_eq hb]
  intro heq
  have hmembers := Json.object.inj heq
  simp only [List.cons.injEq, Prod.mk.injEq, Json.text.injEq] at hmembers
  exact hne hmembers.1.2

/-- **The data model round-trips**, for every library that keeps its promises and the floats. Of
each type, exactly the values whose floats are all finite come back from JSON, and whatever is
decoded comes back as well. From their texts the same values come back; only a tree must not be
higher than the limit on nesting lets through. An integer is never encoded as a float is, and is not
read from the number of one; labels are a member exactly if there are any or an empty list of them,
and a missing capacity is null where zero is a number. -/
theorem dataModel_roundTrips (hlib : lib.Lawful) (hfloats : lib.FloatsComeBack)
    (hlimit : 8 < lib.depthLimit) {layer : Codec ν Layer}
    (hlayer : layer.IsTree (Layer.kinds lib layer)) :
    lib.BringsBack layer (·.isFinite) (fun tree ↦ tree.isFinite ∧ tree.height < lib.depthLimit)
      ∧ lib.BringsBack (Action.codec lib layer) (·.layer.isFinite)
        (fun action ↦ action.layer.isFinite ∧ action.layer.height + 1 < lib.depthLimit)
      ∧ lib.BringsBack (Literal.codec lib) (·.isFinite) (·.isFinite)
      ∧ lib.BringsBack (AttributeValue.codec lib) (·.isFinite) (·.isFinite)
      ∧ lib.BringsBack (FilterValue.codec lib) (·.isFinite) (·.isFinite)
      ∧ lib.BringsBack (CategoryValue.codec lib) (·.isFinite) (·.isFinite)
      ∧ lib.BringsBack (Classification.codec lib) (·.isFinite) (·.isFinite)
      ∧ lib.BringsBack (Field.codec lib) (fun _ ↦ True) (fun _ ↦ True)
      ∧ lib.BringsBack (Crs.codec lib) (fun _ ↦ True) (fun _ ↦ True)
      ∧ lib.BringsBack (BufferParameters.codec lib) (·.isFinite) (·.isFinite)
      ∧ lib.BringsBack (Settings.codec lib) (fun _ ↦ True) (fun _ ↦ True)
      ∧ lib.BringsBack (Schema.codec lib) (·.isFinite) (·.isFinite)
      ∧ (∀ n x, (Literal.codec lib).encode (.integer n) ≠ (Literal.codec lib).encode (.float x))
      ∧ (∀ n x, (AttributeValue.codec lib).encode (.integer n) ≠
          (AttributeValue.codec lib).encode (.real x))
      ∧ (∀ n x, (FilterValue.codec lib).encode (.integer n) ≠
          (FilterValue.codec lib).encode (.float x))
      ∧ (∀ x, x.isFinite → lib.int64.decode? false (lib.float.encode x) = none)
      ∧ (∀ field : FieldDescription, ∃ members,
          (FieldDescription.codec lib).encode field = .object members ∧
          members.lookup "values" = field.values.map (lib.list (ValueLabel.codec lib)).encode)
      ∧ ∀ settings : Settings, ∃ members, (Settings.codec lib).encode settings = .object members ∧
          members.lookup "response_cache_capacity" =
            some ((settings.cacheCapacity.map lib.uint64.encode).getD .null) := by
  have hlayers := Layer.roundTrips hlib hfloats hlayer
  refine ⟨?layer, ?action, ?literal, ?stored, ?filter, ?category, ?legend, ?field, ?crs, ?buffer,
    ?settings, ?schema, ?literal_ne, ?stored_ne, ?filter_ne, ?refused,
    FieldDescription.lookup_values_encode hlib, Settings.lookup_capacity_encode hlib⟩
  case layer =>
    exact hlayers.bringsBack hlib fun value ↦ by rw [Layer.depth_encode hlib hlayer]
  case action =>
    exact (Action.roundTrips hlib hlayers).bringsBack hlib fun action ↦ by
      rw [Action.depth_encode hlib hlayer]
  case literal =>
    exact (Literal.roundTrips hlib hfloats).bringsBack_of_nestedWithin hlib
      (Literal.nestedWithin hlib) (by omega)
  case stored =>
    exact (AttributeValue.roundTrips hlib hfloats).bringsBack_of_nestedWithin hlib
      (AttributeValue.nestedWithin hlib) (by omega)
  case filter =>
    exact (FilterValue.roundTrips hlib hfloats).bringsBack_of_nestedWithin hlib
      (FilterValue.nestedWithin hlib) (by omega)
  case category =>
    exact (CategoryValue.roundTrips hlib hfloats).bringsBack_of_nestedWithin hlib
      (CategoryValue.nestedWithin hlib) (by omega)
  case legend =>
    exact (Classification.roundTrips hlib hfloats).bringsBack_of_nestedWithin hlib
      (Classification.nestedWithin hlib) (by omega)
  case field =>
    exact (Field.roundTrips hlib).bringsBack_of_nestedWithin hlib (Field.nestedWithin hlib)
      (by omega)
  case crs =>
    exact (Crs.roundTrips hlib).bringsBack_of_nestedWithin hlib (Crs.nestedWithin hlib) (by omega)
  case buffer =>
    exact (BufferParameters.roundTrips hlib hfloats).bringsBack_of_nestedWithin hlib
      (BufferParameters.nestedWithin hlib) (by omega)
  case settings =>
    exact (Settings.roundTrips hlib).bringsBack_of_nestedWithin hlib (Settings.nestedWithin hlib)
      (by omega)
  case schema =>
    exact (Schema.roundTrips hlib hfloats).bringsBack_of_nestedWithin hlib
      (Schema.nestedWithin hlib) hlimit
  case literal_ne => exact fun n x ↦ (hlib.tagged _).encode_ne rfl rfl (by decide)
  case stored_ne => exact fun n x ↦ (hlib.tagged _).encode_ne rfl rfl (by decide)
  case filter_ne => exact fun n x ↦ (hlib.tagged _).encode_ne rfl rfl (by decide)
  case refused =>
    intro x hx
    rw [hlib.encode_float, if_pos hx]
    refine Option.eq_none_iff_forall_ne_some.mpr fun n hn ↦ ?_
    obtain ⟨number, hnumber, htoInt⟩ := hlib.int64.decode?_eq_some_iff.mp hn
    rw [← Json.number.inj hnumber, hlib.toInt?_ofFloat hx] at htoInt
    cases htoInt

/-- The standard library is such a library, and counting an overlay of a filtered layer and a
buffered one is read back from the text of the action. -/
theorem dataModel_roundTrips_standard :
    JsonLibrary.standard.Lawful ∧ JsonLibrary.standard.FloatsComeBack
      ∧ 8 < JsonLibrary.standard.depthLimit
      ∧ Layer.standardCodec.IsTree (Layer.kinds .standard Layer.standardCodec)
      ∧ let codec := Action.codec .standard Layer.standardCodec
        let action := ⟨.count, .combined .union (.filtered (.source "a") "n" (.float 5))
          (.buffered (.source "b") 2.5)⟩
        JsonLibrary.standard.read? codec (JsonLibrary.standard.write (codec.encode action)) =
          some action :=
  ⟨JsonLibrary.standard_lawful, JsonLibrary.standard_floatsComeBack, by decide,
    Layer.standardCodec_isTree,
    ((dataModel_roundTrips JsonLibrary.standard_lawful JsonLibrary.standard_floatsComeBack
      (by decide) Layer.standardCodec_isTree).2.1.read_write_iff _).mpr ⟨by decide, by decide⟩⟩

end MapQuery
