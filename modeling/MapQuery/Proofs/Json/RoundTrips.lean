import MapQuery.Proofs.Json.Depth

/-!
# Values that come back

A codec *round-trips* for the values with a property if these come back when they are encoded and
decoded again, and if nothing else is decoded. Numbers make the property necessary: a float that is
not finite has no number in JSON, and is encoded as null. An encoding is also never nested deeper
than what it was decoded from, so that the text of what was read from a text is not nested too deep
to be read.

Trees contain trees, so this is shown for JSON values up to a depth first
(`Codec.RoundTripsBelow`): what is made of parts round-trips one level deeper than its parts do. For
each kind of declaration there is one lemma that says so, from what the library promises about it.
-/

namespace MapQuery

variable {ν α β γ τ : Type}

/-! ## Codecs -/

/-- Among JSON values of less than the given depth, the values with the property come back from
their encoding, and nothing else is decoded. -/
structure Codec.RoundTripsBelow (codec : Codec ν α) (n : ℕ) (P : α → Prop) : Prop where
  decode_encode {nested : Bool} {value : α} : P value → (codec.encode value).depth < n →
    codec.decode? nested (codec.encode value) = some value
  of_decode {nested : Bool} {json : Json ν} {value : α} :
    codec.decode? nested json = some value → json.depth < n →
    P value ∧ (codec.encode value).depth ≤ json.depth

/-- The values with the property come back from their encoding, and nothing else is decoded. -/
def Codec.RoundTrips (codec : Codec ν α) (P : α → Prop) : Prop :=
  ∀ n, codec.RoundTripsBelow n P

namespace Codec

variable {codec : Codec ν α} {P : α → Prop} {n : ℕ}

theorem roundTripsBelow_zero : codec.RoundTripsBelow 0 P :=
  ⟨fun _ h ↦ absurd h (Nat.not_lt_zero _), fun _ h ↦ absurd h (Nat.not_lt_zero _)⟩

theorem RoundTrips.intro
    (hback : ∀ {nested value}, P value → codec.decode? nested (codec.encode value) = some value)
    (honly : ∀ {nested json value}, codec.decode? nested json = some value →
      P value ∧ (codec.encode value).depth ≤ json.depth) :
    codec.RoundTrips P :=
  fun _ ↦ ⟨fun h _ ↦ hback h, fun h _ ↦ honly h⟩

/-- If nothing is decoded below a depth without a property, it is enough to look at the property. -/
theorem RoundTripsBelow.congr {Q : α → Prop} (h : codec.RoundTripsBelow n P)
    (hPQ : ∀ value, P value ↔ Q value) : codec.RoundTripsBelow n Q := by
  obtain rfl : P = Q := funext fun value ↦ propext (hPQ value)
  exact h

end Codec

/-! ## Plain values -/

namespace JsonLibrary.Lawful

variable {lib : JsonLibrary ν} (hlib : lib.Lawful)

include hlib

theorem roundTrips_text : lib.text.RoundTrips fun _ ↦ True := by
  refine .intro (fun _ ↦ hlib.decode?_text.mpr (hlib.encode_text _)) fun h ↦ ⟨trivial, ?_⟩
  rw [hlib.decode?_text.mp h, hlib.encode_text]

theorem roundTrips_boolean : lib.boolean.RoundTrips fun _ ↦ True := by
  refine .intro (fun _ ↦ hlib.decode?_boolean.mpr (hlib.encode_boolean _)) fun h ↦ ⟨trivial, ?_⟩
  rw [hlib.decode?_boolean.mp h, hlib.encode_boolean]

theorem roundTrips_integer {codec : Codec ν α} {toInt : α → Int} (h : lib.IsInteger codec toInt)
    (hmin : ∀ value, Int64.minValue.toInt ≤ toInt value)
    (hmax : ∀ value, toInt value < UInt64.size) : codec.RoundTrips fun _ ↦ True := by
  refine .intro (fun {nested value} _ ↦ ?_) fun {nested json value} _ ↦ ⟨trivial, ?_⟩
  · exact h.decode?_eq_some_iff.mpr
      ⟨_, h.encode_eq value, hlib.toInt?_ofInt (hmin value) (hmax value)⟩
  · rw [h.encode_eq]
    exact Nat.zero_le _

theorem roundTrips_int64 : lib.int64.RoundTrips fun _ ↦ True :=
  hlib.roundTrips_integer hlib.int64 Int64.minValue_le_toInt fun value ↦
    (Int64.toInt_lt value).trans (by decide)

theorem roundTrips_natural {codec : Codec ν α} {toNat : α → Nat}
    (h : lib.IsInteger codec (toNat ·)) (hmax : ∀ value, toNat value < UInt64.size) :
    codec.RoundTrips fun _ ↦ True :=
  hlib.roundTrips_integer h (fun _ ↦ (by decide : _ ≤ (0 : Int)).trans (Int.natCast_nonneg _))
    fun value ↦ Int.ofNat_lt.mpr (hmax value)

theorem roundTrips_float (hfloats : lib.FloatsComeBack) :
    lib.float.RoundTrips fun x ↦ x.isFinite = true := by
  refine .intro (fun {nested x} hx ↦ ?_) fun {nested json x} h ↦ ?_
  · rw [hlib.encode_float, if_pos hx]
    exact hlib.decode?_float.mpr ⟨_, rfl, hfloats x hx⟩
  · obtain ⟨number, rfl, hx⟩ := hlib.decode?_float.mp h
    have hfinite := hlib.isFinite_of_toFloat? hx
    rw [hlib.encode_float, if_pos hfinite]
    exact ⟨hfinite, le_rfl⟩

end JsonLibrary.Lawful

/-! ## Lists -/

section Lists

variable {codec : Codec ν α} {P : α → Prop} {n : ℕ}

private theorem decodeItems?_encode (h : codec.RoundTripsBelow n P) {nested : Bool}
    {values : List α} (hvalues : ∀ value ∈ values, P value)
    (hdepth : ∀ value ∈ values, (codec.encode value).depth < n) :
    codec.decodeItems? nested (values.map codec.encode) = some values := by
  induction values with
  | nil => rfl
  | cons value values ih =>
    obtain ⟨hvalue, hvalues⟩ := List.forall_mem_cons.mp hvalues
    obtain ⟨hfirst, hrest⟩ := List.forall_mem_cons.mp hdepth
    rw [List.map_cons, Codec.decodeItems?, h.decode_encode hvalue hfirst, ih hvalues hrest]
    rfl

private theorem of_decodeItems? (h : codec.RoundTripsBelow n P) {nested : Bool}
    {items : List (Json ν)} {values : List α}
    (hdecode : codec.decodeItems? nested items = some values)
    (hdepth : ∀ item ∈ items, item.depth < n) :
    ∀ value ∈ values, P value ∧ (codec.encode value).depth ≤ Json.depthOfItems items := by
  induction items generalizing values with
  | nil =>
    obtain rfl : [] = values := Option.some.inj hdecode
    exact nofun
  | cons item items ih =>
    simp only [Codec.decodeItems?, Option.bind_eq_bind, Option.bind_eq_some_iff] at hdecode
    obtain ⟨value, hvalue, rest, hrest, heq⟩ := hdecode
    obtain rfl := Option.some.inj heq
    obtain ⟨hfirst, hitems⟩ := List.forall_mem_cons.mp hdepth
    obtain ⟨hP, hle⟩ := h.of_decode hvalue hfirst
    refine List.forall_mem_cons.mpr ⟨⟨hP, hle.trans (le_max_left _ _)⟩, fun other hother ↦ ?_⟩
    obtain ⟨hP, hle⟩ := ih hrest hitems other hother
    exact ⟨hP, hle.trans (le_max_right _ _)⟩

private theorem JsonLibrary.Lawful.roundTripsBelow_list {lib : JsonLibrary ν} (hlib : lib.Lawful)
    (h : codec.RoundTripsBelow n P) :
    (lib.list codec).RoundTripsBelow (n + 1) fun values ↦ ∀ value ∈ values, P value where
  decode_encode {nested values} hvalues hdepth := by
    rw [hlib.encode_list] at hdepth ⊢
    refine hlib.decode?_list.mpr ⟨_, rfl, decodeItems?_encode h hvalues fun value hvalue ↦ ?_⟩
    exact Json.depth_part_lt hdepth (List.mem_map_of_mem hvalue)
  of_decode {nested json values} hdecode hdepth := by
    obtain ⟨items, rfl, hitems⟩ := hlib.decode?_list.mp hdecode
    have hparts := of_decodeItems? h hitems fun item ↦ Json.depth_part_lt hdepth
    refine ⟨fun value hvalue ↦ (hparts value hvalue).1, ?_⟩
    rw [hlib.encode_list]
    exact Json.depth_array_le
      (List.forall_mem_map.mpr fun value hvalue ↦ (hparts value hvalue).2)

theorem JsonLibrary.Lawful.roundTrips_list {lib : JsonLibrary ν} (hlib : lib.Lawful)
    (h : codec.RoundTrips P) :
    (lib.list codec).RoundTrips fun values ↦ ∀ value ∈ values, P value
  | 0 => Codec.roundTripsBelow_zero
  | n + 1 => hlib.roundTripsBelow_list (h n)

end Lists

/-! ## Records -/

/-- A slot round-trips for the values with a property: what is written at its place comes back, and
what is read has the property and is written no deeper than it was read. -/
structure Slot.RoundTripsBelow (slot : Slot ν β) (n : ℕ) (P : β → Prop) : Prop where
  read?_write {nested : Bool} {value : β} : P value →
    (∀ json, slot.write value = some json → json.depth < n) →
    slot.read? nested (slot.write value) = some value
  of_read? {nested : Bool} {member : Option (Json ν)} {value : β} :
    slot.read? nested member = some value → (∀ json, member = some json → json.depth < n) →
    P value ∧ ∀ d, 0 < d → (∀ json, member = some json → json.depth < d) →
      ∀ json, slot.write value = some json → json.depth < d

namespace Slot

variable {codec : Codec ν β} {P : β → Prop} {n : ℕ}

theorem RoundTripsBelow.required (h : codec.RoundTripsBelow n P) :
    (required codec).RoundTripsBelow n P where
  read?_write hvalue hdepth := h.decode_encode hvalue (hdepth _ rfl)
  of_read? {nested member value} hread hdepth := by
    obtain ⟨json, rfl, hdecode⟩ := Option.bind_eq_some_iff.mp hread
    obtain ⟨hP, hle⟩ := h.of_decode hdecode (hdepth json rfl)
    refine ⟨hP, fun d _ hd written hwritten ↦ ?_⟩
    obtain rfl : codec.encode value = written := Option.some.inj hwritten
    exact hle.trans_lt (hd json rfl)

/-- No value is told from a value by null, or by a missing member. So no value of the type may be
encoded as null. -/
private theorem read?_nullable_some {nested : Bool} {json : Json ν} (h : json ≠ .null) :
    (nullable codec).read? nested (some json) = (codec.decode? nested json).map some := by
  cases json with
  | null => exact absurd rfl h
  | _ => rfl

private theorem of_read?_nullable (h : codec.RoundTripsBelow n P) {nested : Bool}
    {member : Option (Json ν)} {value : Option β}
    (hread : (nullable codec).read? nested member = some value)
    (hdepth : ∀ json, member = some json → json.depth < n) :
    value = none ∨ ∃ content json, value = some content ∧ P content ∧ member = some json ∧
      (codec.encode content).depth ≤ json.depth := by
  rcases member with _ | json
  · exact .inl (Option.some.inj hread).symm
  · by_cases hnull : json = .null
    · rw [hnull] at hread
      exact .inl (Option.some.inj hread).symm
    · rw [read?_nullable_some hnull] at hread
      obtain ⟨content, hcontent, rfl⟩ := Option.map_eq_some_iff.mp hread
      obtain ⟨hP, hle⟩ := h.of_decode hcontent (hdepth json rfl)
      exact .inr ⟨content, json, rfl, hP, rfl, hle⟩

/-- A slot for an optional value, whichever way it is written that there is none. -/
private theorem RoundTripsBelow.optional (h : codec.RoundTripsBelow n P)
    (hnull : ∀ value, codec.encode value ≠ .null) {slot : Slot ν (Option β)}
    (hread : ∀ nested member, slot.read? nested member = (nullable codec).read? nested member)
    (hsome : ∀ content, slot.write (some content) = some (codec.encode content))
    (hnone : slot.write none = none ∨ slot.write none = some .null) :
    slot.RoundTripsBelow n fun value ↦ ∀ content ∈ value, P content where
  read?_write {nested value} hvalue hdepth := by
    rw [hread]
    cases value with
    | none => rcases hnone with h | h <;> rw [h] <;> rfl
    | some content =>
      rw [hsome] at hdepth ⊢
      rw [read?_nullable_some (hnull content),
        h.decode_encode (hvalue content rfl) (hdepth _ rfl), Option.map_some]
  of_read? {nested member value} hvalue hdepth := by
    rw [hread] at hvalue
    obtain rfl | ⟨content, json, rfl, hP, rfl, hle⟩ := of_read?_nullable h hvalue hdepth
    · refine ⟨nofun, fun d hpos _ written hwritten ↦ ?_⟩
      obtain rfl : .null = written := by
        rcases hnone with h | h <;> rw [h] at hwritten
        · cases hwritten
        · exact Option.some.inj hwritten
      exact hpos
    · refine ⟨fun _ hcontent ↦ Option.some.inj hcontent ▸ hP, fun d _ hd written hwritten ↦ ?_⟩
      obtain rfl : codec.encode content = written := Option.some.inj ((hsome _).symm.trans hwritten)
      exact hle.trans_lt (hd json rfl)

theorem RoundTripsBelow.nullable (h : codec.RoundTripsBelow n P)
    (hnull : ∀ value, codec.encode value ≠ .null) :
    (nullable codec).RoundTripsBelow n fun value ↦ ∀ content ∈ value, P content :=
  RoundTripsBelow.optional h hnull (fun _ _ ↦ rfl) (fun _ ↦ rfl) (.inr rfl)

theorem RoundTripsBelow.omitted (h : codec.RoundTripsBelow n P)
    (hnull : ∀ value, codec.encode value ≠ .null) :
    (omitted codec).RoundTripsBelow n fun value ↦ ∀ content ∈ value, P content :=
  RoundTripsBelow.optional h hnull (fun _ member ↦ by rcases member with _ | _ | _ <;> rfl)
    (fun _ ↦ rfl) (.inl rfl)

end Slot

structure Fields.RoundTripsBelow (fields : Fields ν τ) (n : ℕ) (P : τ → Prop) : Prop where
  read?_eq {nested : Bool} {part : String → Option (Json ν)} {values : τ} : P values →
    fields.keys.Nodup → (∀ member ∈ fields.write values, member.2.depth < n) →
    (∀ key ∈ fields.keys, part key = (fields.write values).lookup key) →
    fields.read? nested part = some values
  of_read? {nested : Bool} {part : String → Option (Json ν)} {values : τ} :
    fields.read? nested part = some values → (∀ key json, part key = some json → json.depth < n) →
    P values ∧ ∀ d, 0 < d → (∀ key json, part key = some json → json.depth < d) →
      ∀ member ∈ fields.write values, member.2.depth < d

namespace Fields

variable {n : ℕ}

theorem mem_keys_of_mem_write {fields : Fields ν τ} {values : τ} {member : String × Json ν}
    (h : member ∈ fields.write values) : member.1 ∈ fields.keys := by
  induction fields with
  | nil => cases h
  | member key slot rest ih =>
    obtain ⟨value, values⟩ := values
    obtain ⟨json, -, rfl⟩ | h := mem_write_member_iff.mp h
    · exact List.mem_cons_self
    · exact List.mem_cons_of_mem _ (ih h)

private theorem nodup_map_write {fields : Fields ν τ} (h : fields.keys.Nodup) (values : τ) :
    ((fields.write values).map (·.1)).Nodup := by
  induction fields with
  | nil => exact List.nodup_nil
  | member key slot rest ih =>
    obtain ⟨value, values⟩ := values
    obtain ⟨hkey, hrest⟩ := List.nodup_cons.mp h
    rw [write]
    split
    · exact ih hrest values
    · refine List.nodup_cons.mpr ⟨fun hmem ↦ ?_, ih hrest values⟩
      obtain ⟨member, hmember, heq⟩ := List.mem_map.mp hmem
      obtain rfl : member.1 = key := heq
      exact hkey (mem_keys_of_mem_write hmember)

private theorem lookup_write_self {key : String} {slot : Slot ν β} {rest : Fields ν γ}
    (h : key ∉ rest.keys) (value : β) (values : γ) :
    ((member key slot rest).write (value, values)).lookup key = slot.write value := by
  rw [write]
  split
  · rename_i hnone
    rw [hnone]
    refine List.lookup_eq_none_iff.mpr fun member hmember ↦ bne_iff_ne.mpr ?_
    rintro rfl
    exact h (mem_keys_of_mem_write hmember)
  · rename_i json hsome
    rw [hsome, List.lookup_cons_self]

private theorem lookup_write_rest {key other : String} {slot : Slot ν β} {rest : Fields ν γ}
    (h : other ≠ key) (value : β) (values : γ) :
    ((member key slot rest).write (value, values)).lookup other =
      (rest.write values).lookup other := by
  rw [write]
  split
  · rfl
  · rw [List.lookup_cons, beq_false_of_ne h]

theorem RoundTripsBelow.nil : (nil : Fields ν Unit).RoundTripsBelow n fun _ ↦ True :=
  ⟨fun _ _ _ _ ↦ rfl, fun _ _ ↦ ⟨trivial, fun _ _ _ _ ↦ nofun⟩⟩

theorem RoundTripsBelow.member {key : String} {slot : Slot ν β} {rest : Fields ν γ}
    {P : β → Prop} {Q : γ → Prop} (hslot : slot.RoundTripsBelow n P)
    (hrest : rest.RoundTripsBelow n Q) :
    (member key slot rest).RoundTripsBelow n fun values ↦ P values.1 ∧ Q values.2 where
  read?_eq {nested part} := by
    rintro ⟨value, values⟩ ⟨hvalue, hvalues⟩ hnodup hdepth hpart
    obtain ⟨hkey, hkeys⟩ := List.nodup_cons.mp hnodup
    obtain ⟨hfirst, hothers⟩ := List.forall_mem_cons.mp hpart
    rw [lookup_write_self hkey] at hfirst
    have hmembers : ∀ member ∈ rest.write values, member.2.depth < n := fun written hwritten ↦
      hdepth written (mem_write_member_iff.mpr (.inr hwritten))
    have hown : ∀ json, slot.write value = some json → json.depth < n := fun json hjson ↦
      hdepth (key, json) (mem_write_member_iff.mpr (.inl ⟨json, hjson, rfl⟩))
    have hlater : ∀ other ∈ rest.keys, part other = (rest.write values).lookup other :=
      fun other hother ↦ by
        rw [hothers other hother, lookup_write_rest (ne_of_mem_of_not_mem hother hkey)]
    rw [read?, hfirst, hslot.read?_write hvalue hown, hrest.read?_eq hvalues hkeys hmembers hlater]
    rfl
  of_read? {nested part} := by
    rintro ⟨value, values⟩ hread hdepth
    simp only [read?, Option.bind_eq_bind, Option.bind_eq_some_iff] at hread
    obtain ⟨_, hvalue, _, hvalues, heq⟩ := hread
    cases heq
    obtain ⟨hP, hle⟩ := hslot.of_read? hvalue (hdepth key)
    obtain ⟨hQ, hles⟩ := hrest.of_read? hvalues hdepth
    refine ⟨⟨hP, hQ⟩, fun d hpos hd written hwritten ↦ ?_⟩
    obtain ⟨json, hjson, rfl⟩ | hwritten := mem_write_member_iff.mp hwritten
    · exact hle d hpos (hd key) json hjson
    · exact hles d hpos hd written hwritten

theorem RoundTripsBelow.congr {fields : Fields ν τ} {P Q : τ → Prop}
    (h : fields.RoundTripsBelow n P) (hPQ : ∀ values, P values ↔ Q values) :
    fields.RoundTripsBelow n Q := by
  obtain rfl : P = Q := funext fun values ↦ propext (hPQ values)
  exact h

end Fields

namespace Codec

variable {codec : Codec ν α} {n : ℕ}

/-- A record round-trips one level deeper than its fields. -/
theorem IsRecord.roundTripsBelow {layout : RecordLayout ν α} (h : codec.IsRecord layout)
    {P : layout.Parts → Prop} (hfields : layout.fields.RoundTripsBelow n P) :
    codec.RoundTripsBelow (n + 1) fun value ↦ P (layout.parts value) where
  decode_encode {nested value} hvalue hdepth := by
    rw [h.encode_eq] at hdepth ⊢
    have hread : layout.fields.read? nested
        ((layout.fields.write (layout.parts value)).lookup ·) = some (layout.parts value) :=
      hfields.read?_eq hvalue layout.keys_nodup (fun _ ↦ Json.depth_member_lt hdepth)
        fun _ _ ↦ rfl
    rw [h.decode?_object (Fields.nodup_map_write layout.keys_nodup _) hread, layout.make_parts]
  of_decode {nested json value} hdecode hdepth := by
    obtain ⟨part, parts, hoffers, hread, rfl⟩ := h.of_decode? hdecode
    obtain ⟨hP, hlt⟩ := hfields.of_read? hread fun _ _ hpart ↦
      Json.depth_part_lt hdepth (hoffers.mem_parts hpart)
    rw [layout.parts_make, h.encode_eq, layout.parts_make]
    exact ⟨hP, Json.depth_object_le hoffers.depth_pos
      (hlt json.depth hoffers.depth_pos fun _ _ hpart ↦
        Json.depth_lt_of_mem_parts (hoffers.mem_parts hpart))⟩

theorem IsRecord.roundTrips {layout : RecordLayout ν α} (h : codec.IsRecord layout)
    {P : layout.Parts → Prop} {Q : α → Prop}
    (hfields : ∀ n, layout.fields.RoundTripsBelow n P)
    (hPQ : ∀ value, P (layout.parts value) ↔ Q value) : codec.RoundTrips Q
  | 0 => roundTripsBelow_zero
  | n + 1 => (h.roundTripsBelow (hfields n)).congr hPQ

end Codec

/-! ## Cases -/

structure Variant.RoundTripsBelow (variant : Variant ν α) (n : ℕ) (P : α → Prop) : Prop where
  read?_of_write? {nested : Bool} {value : α} {name : String} {content : Option (Json ν)} :
    P value → variant.write? value = some (name, content) →
    (∀ json, content = some json → json.depth < n) → variant.read? nested content = some value
  of_read? {nested : Bool} {content : Option (Json ν)} {value : α} :
    variant.read? nested content = some value → (∀ json, content = some json → json.depth < n) →
    P value ∧ ∃ written, variant.write? value = some (variant.name, written) ∧
      ∀ inner, written = some inner → ∃ json, content = some json ∧ inner.depth ≤ json.depth

namespace Variant

variable {n : ℕ} {P : α → Prop}

theorem RoundTripsBelow.bare {name : String} {this : α} {isThis : α → Bool}
    (hthis : ∀ value, isThis value = true ↔ value = this) (hP : P this) :
    (bare name this isThis : Variant ν α).RoundTripsBelow n P where
  read?_of_write? {nested value _ content} _ hwrite _ := by
    rw [write?] at hwrite
    split at hwrite
    · rename_i h
      cases hwrite
      rw [(hthis value).mp h]
      rfl
    · cases hwrite
  of_read? {nested content value} hread _ := by
    obtain rfl : this = value := by
      rcases content with _ | json
      · exact Option.some.inj hread
      · cases json with
        | null => exact Option.some.inj hread
        | _ => cases hread
    refine ⟨hP, none, if_pos ((hthis this).mpr rfl), fun inner hinner ↦ ?_⟩
    cases hinner

theorem RoundTripsBelow.holding {name : String} {codec : Codec ν β} {make : β → α}
    {content? : α → Option β} {Q : β → Prop} (h : codec.RoundTripsBelow n Q)
    (hcontent : ∀ value content, content? value = some content ↔ value = make content)
    (hPQ : ∀ content, P (make content) ↔ Q content) :
    (holding name codec make content? : Variant ν α).RoundTripsBelow n P where
  read?_of_write? {nested value _ content} hvalue hwrite hdepth := by
    obtain ⟨inner, hinner, heq⟩ := Option.map_eq_some_iff.mp hwrite
    cases heq
    obtain rfl := (hcontent value inner).mp hinner
    rw [read?, Option.bind_some, h.decode_encode ((hPQ inner).mp hvalue) (hdepth _ rfl),
      Option.map_some]
  of_read? {nested content value} hread hdepth := by
    obtain ⟨inner, hinner, rfl⟩ := Option.map_eq_some_iff.mp hread
    obtain ⟨json, rfl, hdecode⟩ := Option.bind_eq_some_iff.mp hinner
    obtain ⟨hQ, hle⟩ := h.of_decode hdecode (hdepth json rfl)
    refine ⟨(hPQ inner).mpr hQ, some (codec.encode inner), ?_, fun _ heq ↦ ⟨json, rfl, ?_⟩⟩
    · rw [write?, (hcontent _ _).mpr rfl]
      rfl
    · cases heq
      exact hle

end Variant

namespace Codec

variable {codec : Codec ν α} {n : ℕ} {P : α → Prop}

theorem IsTree.roundTripsBelow {kinds : List (NodeLayout ν α)} (h : codec.IsTree kinds)
    (hkinds : Separates kinds NodeLayout.kind NodeLayout.write?)
    (hfields : ∀ node ∈ kinds,
      node.fields.RoundTripsBelow n fun parts ↦ P (node.make parts)) :
    codec.RoundTripsBelow (n + 1) P where
  decode_encode {nested value} hvalue hdepth := by
    obtain ⟨node, hnode, members, hmembers⟩ := hkinds.exists_write value
    rw [h.encode_eq (hkinds.findSome?_eq hnode hmembers)] at hdepth ⊢
    obtain ⟨parts, hparts, rfl⟩ := Option.map_eq_some_iff.mp hmembers
    obtain rfl := node.make_of_parts? hparts
    obtain ⟨hkey, hkeys⟩ := List.nodup_cons.mp node.keys_nodup
    have hread : node.fields.read? true
        (((typeKey, .text node.kind) :: node.fields.write parts).lookup ·) = some parts :=
      (hfields node hnode).read?_eq hvalue hkeys
        (fun _ hmember ↦ Json.depth_member_lt hdepth (List.mem_cons_of_mem _ hmember))
        fun key hkey' ↦ by
          rw [List.lookup_cons, beq_false_of_ne (ne_of_mem_of_not_mem hkey' hkey)]
    refine h.decode?_object ?_ List.lookup_cons_self (hkinds.find?_eq hnode) hread
    refine List.nodup_cons.mpr ⟨fun hmem ↦ ?_, Fields.nodup_map_write hkeys parts⟩
    obtain ⟨member, hmember, heq⟩ := List.mem_map.mp hmem
    obtain heq : member.1 = typeKey := heq
    exact hkey (heq ▸ Fields.mem_keys_of_mem_write hmember)
  of_decode {nested json value} hdecode hdepth := by
    obtain ⟨node, hnode, part, parts, hoffers, hread, rfl⟩ := h.of_decode? hdecode
    obtain ⟨hP, hlt⟩ := (hfields node hnode).of_read? hread fun _ _ hpart ↦
      Json.depth_part_lt hdepth (hoffers.mem_parts hpart)
    have hwrite : node.write? (node.make parts) =
        some ((typeKey, .text node.kind) :: node.fields.write parts) := by
      rw [NodeLayout.write?, node.parts?_make]
      rfl
    rw [h.encode_eq (hkinds.findSome?_eq hnode hwrite)]
    refine ⟨hP, Json.depth_object_le hoffers.depth_pos (List.forall_mem_cons.mpr ⟨?_, ?_⟩)⟩
    · exact hoffers.depth_pos
    · exact hlt json.depth hoffers.depth_pos fun _ _ hpart ↦
        Json.depth_lt_of_mem_parts (hoffers.mem_parts hpart)

theorem IsTree.roundTrips {kinds : List (NodeLayout ν α)} (h : codec.IsTree kinds)
    (hkinds : Separates kinds NodeLayout.kind NodeLayout.write?)
    (hfields : ∀ n, ∀ node ∈ kinds,
      node.fields.RoundTripsBelow n fun parts ↦ P (node.make parts)) : codec.RoundTrips P
  | 0 => roundTripsBelow_zero
  | n + 1 => h.roundTripsBelow hkinds (hfields n)

section Variants

variable {variants : List (Variant ν α)}

/-- Where a content was read, the content that is written for the value is nested less deep than the
JSON value that the read one is a part of. -/
private theorem depth_written_lt {json : Json ν} {content written : Option (Json ν)}
    (hparts : ∀ part, content = some part → part ∈ json.parts)
    (hle : ∀ inner, written = some inner →
      ∃ part, content = some part ∧ inner.depth ≤ part.depth) (inner : Json ν)
    (hinner : written = some inner) : inner.depth < json.depth := by
  obtain ⟨part, hpart, hinner⟩ := hle inner hinner
  exact hinner.trans_lt (Json.depth_lt_of_mem_parts (hparts part hpart))

theorem IsTagged.roundTripsBelow (h : codec.IsTagged variants)
    (hvariants : Separates variants Variant.name Variant.write?)
    (hcontents : ∀ variant ∈ variants, variant.RoundTripsBelow n P) :
    codec.RoundTripsBelow (n + 1) P where
  decode_encode {nested value} hvalue hdepth := by
    obtain ⟨variant, hvariant, ⟨name, content⟩, hwrite⟩ := hvariants.exists_write value
    rw [h.encode_eq (hvariants.findSome?_eq hvariant hwrite)] at hdepth ⊢
    obtain rfl := Variant.name_of_write? hwrite
    have hread : ∀ nested, variant.read? nested content = some value := fun nested ↦ by
      refine (hcontents variant hvariant).read?_of_write? hvalue hwrite fun json hjson ↦ ?_
      subst hjson
      exact Json.depth_member_lt hdepth (List.mem_cons_of_mem _ List.mem_cons_self)
    refine h.decode?_object ?_ List.lookup_cons_self (hvariants.find?_eq hvariant) ?_
    · cases content <;> simp
    · cases content <;> exact hread
  of_decode {nested json value} hdecode hdepth := by
    obtain ⟨hpos, variant, hvariant, nested', content, hparts, hread⟩ := h.of_decode? hdecode
    obtain ⟨hP, written, hwrite, hle⟩ :=
      (hcontents variant hvariant).of_read? hread fun part hpart ↦
        Json.depth_part_lt hdepth (hparts part hpart)
    rw [h.encode_eq (hvariants.findSome?_eq hvariant hwrite)]
    refine ⟨hP, Json.depth_object_le hpos (List.forall_mem_cons.mpr ⟨hpos, ?_⟩)⟩
    intro member hmember
    obtain ⟨inner, hinner, rfl⟩ := Option.map_eq_some_iff.mp (Option.mem_toList.mp hmember)
    exact depth_written_lt hparts hle inner hinner

theorem IsTagged.roundTrips (h : codec.IsTagged variants)
    (hvariants : Separates variants Variant.name Variant.write?)
    (hcontents : ∀ n, ∀ variant ∈ variants, variant.RoundTripsBelow n P) : codec.RoundTrips P
  | 0 => roundTripsBelow_zero
  | n + 1 => h.roundTripsBelow hvariants (hcontents n)

theorem IsNamed.roundTripsBelow (h : codec.IsNamed variants)
    (hvariants : Separates variants Variant.name Variant.write?)
    (hcontents : ∀ variant ∈ variants, variant.RoundTripsBelow n P) :
    codec.RoundTripsBelow (n + 1) P where
  decode_encode {nested value} hvalue hdepth := by
    obtain ⟨variant, hvariant, ⟨name, content⟩, hwrite⟩ := hvariants.exists_write value
    rw [h.encode_eq (hvariants.findSome?_eq hvariant hwrite)] at hdepth ⊢
    obtain rfl := Variant.name_of_write? hwrite
    have hread : (∀ json, content = some json → json.depth < n) →
        variant.read? nested content = some value :=
      (hcontents variant hvariant).read?_of_write? hvalue hwrite
    cases content with
    | none => exact h.decode?_text (hvariants.find?_eq hvariant) (hread nofun)
    | some json =>
      refine h.decode?_object (hvariants.find?_eq hvariant) (hread fun other heq ↦ ?_)
      obtain rfl := Option.some.inj heq
      exact Json.depth_member_lt hdepth List.mem_cons_self
  of_decode {nested json value} hdecode hdepth := by
    obtain ⟨variant, hvariant, content, hparts, hread⟩ := h.of_decode? hdecode
    obtain ⟨hP, written, hwrite, hle⟩ :=
      (hcontents variant hvariant).of_read? hread fun part hpart ↦
        Json.depth_part_lt hdepth (hparts part hpart)
    rw [h.encode_eq (hvariants.findSome?_eq hvariant hwrite)]
    refine ⟨hP, ?_⟩
    cases written with
    | none => exact Nat.zero_le _
    | some inner =>
      have hlt := depth_written_lt hparts hle inner rfl
      exact Json.depth_object_le (Nat.zero_lt_of_lt hlt) (List.forall_mem_singleton.mpr hlt)

theorem IsNamed.roundTrips (h : codec.IsNamed variants)
    (hvariants : Separates variants Variant.name Variant.write?)
    (hcontents : ∀ n, ∀ variant ∈ variants, variant.RoundTripsBelow n P) : codec.RoundTrips P
  | 0 => roundTripsBelow_zero
  | n + 1 => h.roundTripsBelow hvariants (hcontents n)

end Variants

end Codec

end MapQuery
