import MapQuery.Json.Library
import Mathlib.Data.List.Nodup
import Mathlib.Order.Lattice
import Mathlib.Tactic.Common

/-!
# How deep an encoding is nested

A part of a JSON value is nested less deep than the value. The encodings of a type that does not
contain itself are nested at most some number of levels, and the number is told by the declaration:
a record and a case with a tag are one level deeper than what they hold, and so is a list
(`Codec.NestedWithin`).
-/

namespace MapQuery

variable {ν α β γ τ : Type}

/-! ## Parts -/

namespace Json

private theorem depth_le_depthOfItems {items : List (Json ν)} {item : Json ν} (h : item ∈ items) :
    item.depth ≤ depthOfItems items := by
  induction items with
  | nil => cases h
  | cons first rest ih =>
    rw [depthOfItems]
    rcases List.mem_cons.mp h with rfl | h
    · exact le_max_left _ _
    · exact (ih h).trans (le_max_right _ _)

private theorem depthOfMembers_eq (members : List (String × Json ν)) :
    depthOfMembers members = depthOfItems (members.map (·.2)) := by
  induction members with
  | nil => rfl
  | cons member rest ih => rw [depthOfMembers, List.map_cons, depthOfItems, ih]

private theorem depthOfItems_le {items : List (Json ν)} {d : ℕ}
    (h : ∀ item ∈ items, item.depth ≤ d) : depthOfItems items ≤ d := by
  induction items with
  | nil => exact Nat.zero_le d
  | cons first rest ih =>
    obtain ⟨hfirst, hrest⟩ := List.forall_mem_cons.mp h
    exact max_le hfirst (ih hrest)

theorem depth_lt_of_mem_parts {json part : Json ν} (h : part ∈ json.parts) :
    part.depth < json.depth := by
  cases json with
  | array items => exact Nat.lt_succ_of_le (depth_le_depthOfItems h)
  | object members =>
    rw [depth, depthOfMembers_eq]
    exact Nat.lt_succ_of_le (depth_le_depthOfItems h)
  | _ => cases h

theorem depth_part_lt {json part : Json ν} {n : ℕ} (h : json.depth < n + 1)
    (hpart : part ∈ json.parts) : part.depth < n :=
  Nat.lt_of_lt_of_le (depth_lt_of_mem_parts hpart) (Nat.le_of_lt_succ h)

theorem depth_member_lt {members : List (String × Json ν)} {member : String × Json ν} {n : ℕ}
    (h : (object members).depth < n + 1) (hmember : member ∈ members) : member.2.depth < n :=
  depth_part_lt h (List.mem_map_of_mem hmember)

theorem depth_array_le {items : List (Json ν)} {d : ℕ} (h : ∀ item ∈ items, item.depth ≤ d) :
    (array items).depth ≤ d + 1 :=
  Nat.succ_le_succ (depthOfItems_le h)

theorem depth_object_le {members : List (String × Json ν)} {d : ℕ} (hd : 0 < d)
    (h : ∀ member ∈ members, member.2.depth < d) : (object members).depth ≤ d := by
  rw [depth, depthOfMembers_eq]
  have hmembers : depthOfItems (members.map (·.2)) ≤ d - 1 :=
    depthOfItems_le (List.forall_mem_map.mpr fun member hmember ↦
      Nat.le_sub_one_of_lt (h member hmember))
  omega

end Json

/-! ## Cases -/

/-- The names are different, and each value is written by exactly one of the cases. -/
structure Separates {κ : Type*} {δ : Type} (cases : List κ) (name : κ → String)
    (write? : κ → α → Option δ) : Prop where
  nodup : (cases.map name).Nodup
  exists_name (value : α) : ∃ this ∈ cases.map name, ∀ case ∈ cases,
    (write? case value).isSome = true ↔ name case = this

namespace Separates

variable {κ : Type*} {δ : Type} {cases : List κ} {name : κ → String} {write? : κ → α → Option δ}

theorem exists_write (h : Separates cases name write?) (value : α) :
    ∃ case ∈ cases, ∃ written, write? case value = some written := by
  obtain ⟨this, hthis, hiff⟩ := h.exists_name value
  obtain ⟨case, hcase, rfl⟩ := List.mem_map.mp hthis
  exact ⟨case, hcase, Option.isSome_iff_exists.mp ((hiff case hcase).mpr rfl)⟩

theorem findSome?_eq (h : Separates cases name write?) {case : κ} (hcase : case ∈ cases)
    {value : α} {written : δ} (hwritten : write? case value = some written) :
    cases.findSome? (write? · value) = some written := by
  obtain ⟨this, -, hiff⟩ := h.exists_name value
  have hsome : (cases.findSome? (write? · value)).isSome = true :=
    List.findSome?_isSome_iff.mpr ⟨case, hcase, hwritten ▸ rfl⟩
  obtain ⟨found, hfound⟩ := Option.isSome_iff_exists.mp hsome
  obtain ⟨other, hother, heq⟩ := List.exists_of_findSome?_eq_some hfound
  have hname := (hiff case hcase).mp (hwritten ▸ rfl)
  have hname' := (hiff other hother).mp (heq ▸ rfl)
  obtain rfl := List.inj_on_of_nodup_map h.nodup hother hcase (hname'.trans hname.symm)
  rw [hfound, ← heq, hwritten]

theorem find?_eq (h : Separates cases name write?) {case : κ} (hcase : case ∈ cases) :
    cases.find? (name · == name case) = some case := by
  have hsome : (cases.find? (name · == name case)).isSome = true :=
    List.find?_isSome.mpr ⟨case, hcase, beq_self_eq_true (name case)⟩
  obtain ⟨found, hfound⟩ := Option.isSome_iff_exists.mp hsome
  have heq := List.find?_some hfound
  rw [beq_iff_eq] at heq
  rw [hfound, List.inj_on_of_nodup_map h.nodup (List.mem_of_find?_eq_some hfound) hcase heq]

end Separates

namespace Variant

theorem name_of_write? {variant : Variant ν α} {value : α} {name : String}
    {content : Option (Json ν)} (h : variant.write? value = some (name, content)) :
    variant.name = name := by
  cases variant with
  | bare _ _ isThis =>
    rw [write?] at h
    split at h
    · cases h
      rfl
    · cases h
  | holding =>
    obtain ⟨_, _, heq⟩ := Option.map_eq_some_iff.mp h
    cases heq
    rfl

end Variant

theorem Fields.mem_write_member_iff {key : String} {slot : Slot ν β} {rest : Fields ν γ}
    {value : β} {values : γ} {written : String × Json ν} :
    written ∈ (member key slot rest).write (value, values) ↔
      (∃ json, slot.write value = some json ∧ written = (key, json)) ∨
        written ∈ rest.write values := by
  rw [write]
  cases slot.write value with
  | none => simp
  | some json => simp

/-! ## Bounds for codecs -/

/-- The encodings are nested at most this deep. -/
def Codec.NestedWithin (codec : Codec ν α) (d : ℕ) : Prop :=
  ∀ value, (codec.encode value).depth ≤ d

def Slot.NestedWithin (slot : Slot ν β) (d : ℕ) : Prop :=
  ∀ value json, slot.write value = some json → json.depth ≤ d

def Fields.NestedWithin (fields : Fields ν τ) (d : ℕ) : Prop :=
  ∀ values, ∀ member ∈ fields.write values, member.2.depth ≤ d

def Variant.NestedWithin (variant : Variant ν α) (d : ℕ) : Prop :=
  ∀ value name json, variant.write? value = some (name, some json) → json.depth ≤ d

section Bounds

variable {d : ℕ}

namespace Slot.NestedWithin

variable {codec : Codec ν β}

theorem required (h : codec.NestedWithin d) : (Slot.required codec).NestedWithin d :=
  fun value _ heq ↦ Option.some.inj heq ▸ h value

theorem omitted (h : codec.NestedWithin d) : (Slot.omitted codec).NestedWithin d := by
  intro value json heq
  obtain ⟨content, -, rfl⟩ := Option.map_eq_some_iff.mp heq
  exact h content

theorem nullable (h : codec.NestedWithin d) : (Slot.nullable codec).NestedWithin d := by
  rintro (_ | content) json heq
  · obtain rfl : .null = json := Option.some.inj heq
    exact Nat.zero_le d
  · obtain rfl : codec.encode content = json := Option.some.inj heq
    exact h content

end Slot.NestedWithin

namespace Fields.NestedWithin

theorem nil : (Fields.nil : Fields ν Unit).NestedWithin d :=
  fun _ _ ↦ nofun

theorem member {key : String} {slot : Slot ν β} {rest : Fields ν γ} (hslot : slot.NestedWithin d)
    (hrest : rest.NestedWithin d) : (Fields.member key slot rest).NestedWithin d := by
  rintro ⟨value, values⟩ written hwritten
  obtain ⟨json, hjson, rfl⟩ | hwritten := mem_write_member_iff.mp hwritten
  · exact hslot value json hjson
  · exact hrest values written hwritten

end Fields.NestedWithin

namespace Variant.NestedWithin

theorem bare {name : String} {this : α} {isThis : α → Bool} :
    (Variant.bare name this isThis : Variant ν α).NestedWithin d := by
  intro value _ json heq
  rw [write?] at heq
  split at heq <;> cases heq

theorem holding {name : String} {codec : Codec ν β} {make : β → α} {content? : α → Option β}
    (h : codec.NestedWithin d) :
    (Variant.holding name codec make content? : Variant ν α).NestedWithin d := by
  intro value _ json heq
  obtain ⟨content, -, heq⟩ := Option.map_eq_some_iff.mp heq
  cases heq
  exact h content

end Variant.NestedWithin

namespace Codec

variable {codec : Codec ν α} {variants : List (Variant ν α)}

theorem NestedWithin.mono {d' : ℕ} (h : codec.NestedWithin d) (hd : d ≤ d') :
    codec.NestedWithin d' :=
  fun value ↦ (h value).trans hd

theorem IsRecord.nestedWithin {layout : RecordLayout ν α} (h : codec.IsRecord layout)
    (hfields : layout.fields.NestedWithin d) : codec.NestedWithin (d + 1) := by
  intro value
  rw [h.encode_eq]
  exact Json.depth_object_le d.succ_pos fun member hmember ↦
    Nat.lt_succ_of_le (hfields _ member hmember)

theorem IsTagged.nestedWithin (h : codec.IsTagged variants)
    (hvariants : Separates variants Variant.name Variant.write?)
    (hcontents : ∀ variant ∈ variants, variant.NestedWithin d) : codec.NestedWithin (d + 1) := by
  intro value
  obtain ⟨variant, hvariant, ⟨name, content⟩, hwrite⟩ := hvariants.exists_write value
  rw [h.encode_eq (hvariants.findSome?_eq hvariant hwrite)]
  refine Json.depth_object_le d.succ_pos (List.forall_mem_cons.mpr ⟨d.succ_pos, ?_⟩)
  intro member hmember
  obtain ⟨inner, rfl, rfl⟩ := Option.map_eq_some_iff.mp (Option.mem_toList.mp hmember)
  exact Nat.lt_succ_of_le (hcontents variant hvariant value name inner hwrite)

theorem IsNamed.nestedWithin (h : codec.IsNamed variants)
    (hvariants : Separates variants Variant.name Variant.write?)
    (hcontents : ∀ variant ∈ variants, variant.NestedWithin d) : codec.NestedWithin (d + 1) := by
  intro value
  obtain ⟨variant, hvariant, ⟨name, content⟩, hwrite⟩ := hvariants.exists_write value
  rw [h.encode_eq (hvariants.findSome?_eq hvariant hwrite)]
  cases content with
  | none => exact Nat.zero_le _
  | some inner =>
    exact Json.depth_object_le d.succ_pos (List.forall_mem_singleton.mpr
      (Nat.lt_succ_of_le (hcontents variant hvariant value name inner hwrite)))

end Codec

end Bounds

/-! ## Plain values and lists -/

theorem JsonLibrary.IsInteger.nestedWithin {lib : JsonLibrary ν} {codec : Codec ν α}
    {toInt : α → Int} (h : lib.IsInteger codec toInt) : codec.NestedWithin 0 :=
  fun value ↦ by rw [h.encode_eq]; exact le_rfl

namespace JsonLibrary.Lawful

variable {lib : JsonLibrary ν} (hlib : lib.Lawful)

include hlib

theorem nestedWithin_text : lib.text.NestedWithin 0 :=
  fun value ↦ by rw [hlib.encode_text]; exact le_rfl

theorem nestedWithin_boolean : lib.boolean.NestedWithin 0 :=
  fun value ↦ by rw [hlib.encode_boolean]; exact le_rfl

theorem nestedWithin_float : lib.float.NestedWithin 0 :=
  fun x ↦ by rw [hlib.encode_float]; split <;> exact le_rfl

theorem nestedWithin_list {codec : Codec ν α} {d : ℕ} (h : codec.NestedWithin d) :
    (lib.list codec).NestedWithin (d + 1) := by
  intro values
  rw [hlib.encode_list]
  exact Json.depth_array_le (List.forall_mem_map.mpr fun value _ ↦ h value)

end JsonLibrary.Lawful

end MapQuery
