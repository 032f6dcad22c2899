import MapQuery.Action.Encoding
import MapQuery.Proofs.Json.Text
import Mathlib.Data.List.Count

/-!
# The standard library keeps its promises

`JsonLibrary.standard` is lawful, and floats come back from it (`JsonLibrary.standard_lawful`,
`JsonLibrary.standard_floatsComeBack`). Its codec of trees is defined by recursion on the depth of
what it reads, and yet is the codec of the nodes whose trees it reads itself
(`JsonStandard.recursiveTree_eq`), because no more than the parts of a value is looked at.
-/

namespace MapQuery.JsonStandard

variable {α : Type}

/-! ## Plain values -/

theorem integer_isInteger {toInt : α → ℤ} {ofInt : ℤ → α}
    (h : ∀ value, ofInt (toInt value) = value) :
    JsonLibrary.standard.IsInteger (integer toInt ofInt) toInt where
  encode_eq _ := rfl
  decode?_eq_some_iff {nested json value} := by
    constructor
    · intro hdecode
      cases json with
      | number number =>
        obtain ⟨n, hn, hvalue⟩ := Option.bind_eq_some_iff.mp hdecode
        split at hvalue
        · rename_i hback
          cases hvalue
          exact ⟨number, rfl, hn.trans (congrArg some hback.symm)⟩
        · cases hvalue
      | _ => cases hdecode
    · rintro ⟨number, rfl, hnumber⟩
      change number.toInt?.bind _ = _
      rw [show number.toInt? = some (toInt value) from hnumber, Option.bind_some, h, if_pos rfl]

/-! ## Objects, and arrays in their place -/

private theorem mem_of_lookup_eq_some {members : List (String × Json JsonNumber)} {key : String}
    {value : Json JsonNumber} (h : members.lookup key = some value) : (key, value) ∈ members := by
  obtain ⟨before, behind, rfl, -⟩ := List.lookup_eq_some_iff.mp h
  exact List.mem_append_right _ List.mem_cons_self

theorem repeatsNone_of_nodup {members : List (String × Json JsonNumber)}
    (h : (members.map (·.1)).Nodup) (keys : List String) : repeatsNone keys members = true := by
  refine List.all_eq_true.mpr fun key _ ↦ decide_eq_true ?_
  have hcount := List.nodup_iff_count_le_one.mp h key
  rwa [List.count, List.countP_map, List.countP_eq_length_filter] at hcount

private theorem offers_object (members : List (String × Json JsonNumber)) :
    (Json.object members).Offers (members.lookup ·) where
  depth_pos := Nat.succ_pos _
  mem_parts h := List.mem_map_of_mem (f := Prod.snd) (mem_of_lookup_eq_some h)

private theorem offers_array (keys : List String) (items : List (Json JsonNumber)) :
    (Json.array items).Offers ((keys.zip items).lookup ·) where
  depth_pos := Nat.succ_pos _
  mem_parts h := (List.of_mem_zip (mem_of_lookup_eq_some h)).2

theorem offers_of_partsAt? {τ : Type} {fields : Fields JsonNumber τ} {json : Json JsonNumber}
    {part : String → Option (Json JsonNumber)} (h : partsAt? fields json = some part) :
    json.Offers part := by
  cases json with
  | object members =>
    rw [partsAt?] at h
    split at h
    · cases h
      exact offers_object members
    · cases h
  | array items =>
    rw [partsAt?] at h
    split at h
    · cases h
      exact offers_array _ items
    · cases h
  | _ => cases h

private theorem partsAt?_object {τ : Type} (fields : Fields JsonNumber τ)
    {members : List (String × Json JsonNumber)} (h : (members.map (·.1)).Nodup) :
    partsAt? fields (.object members) = some (members.lookup ·) := by
  rw [partsAt?, if_pos (repeatsNone_of_nodup h _)]

theorem record_isRecord (layout : RecordLayout JsonNumber α) : (record layout).IsRecord layout where
  encode_eq _ := rfl
  decode?_object {nested members parts} hnodup hread := by
    change (partsAt? layout.fields (.object members)).bind _ = _
    rw [partsAt?_object layout.fields hnodup, Option.bind_some, hread, Option.map_some]
  of_decode? {nested json value} h := by
    obtain ⟨part, hpart, h⟩ := Option.bind_eq_some_iff.mp h
    obtain ⟨parts, hparts, hvalue⟩ := Option.map_eq_some_iff.mp h
    exact ⟨part, parts, offers_of_partsAt? hpart, hparts, hvalue⟩

/-! ## Choices and nodes -/

theorem mem_of_choice? {β : Type 1} {name : β → String} {choices : List β} {nested : Bool}
    {json : Json JsonNumber} {choice : β} (h : choice? name choices nested json = some choice) :
    choice ∈ choices := by
  unfold choice? at h
  split at h
  · exact List.mem_of_find?_eq_some h
  · split at h
    · exact List.mem_of_getElem? h
    · cases h
  · cases h

private theorem of_readNode? {node : NodeLayout JsonNumber α} {json : Json JsonNumber} {value : α}
    (h : readNode? node json = some value) : ∃ part parts, json.Offers part ∧
      node.fields.read? true part = some parts ∧ node.make parts = value := by
  obtain ⟨part, hpart, h⟩ := Option.bind_eq_some_iff.mp h
  obtain ⟨parts, hparts, hvalue⟩ := Option.map_eq_some_iff.mp h
  exact ⟨part, parts, offers_of_partsAt? hpart, hparts, hvalue⟩

theorem tree_isTree (kinds : List (NodeLayout JsonNumber α)) : (tree kinds).IsTree kinds where
  encode_eq {value members} h := by
    change Json.object ((kinds.findSome? (·.write? value)).getD []) = _
    rw [h, Option.getD_some]
  decode?_object {nested members name node parts} hnodup htype hnode hread := by
    change (if repeatsNone [typeKey] members then _ else _) = _
    rw [if_pos (repeatsNone_of_nodup hnodup _), htype, Option.bind_some, choice?, hnode,
      Option.bind_some, readNode?, partsAt?_object node.fields hnodup, Option.bind_some, hread,
      Option.map_some]
  of_decode? {nested json value} h := by
    cases json with
    | object members =>
      change (if repeatsNone [typeKey] members then _ else _) = _ at h
      split at h
      · obtain ⟨kind, -, h⟩ := Option.bind_eq_some_iff.mp h
        obtain ⟨node, hnode, h⟩ := Option.bind_eq_some_iff.mp h
        exact ⟨node, mem_of_choice? hnode, of_readNode? h⟩
      · cases h
    | array items =>
      cases items with
      | nil => cases h
      | cons kind items =>
        obtain ⟨node, hnode, h⟩ := Option.bind_eq_some_iff.mp h
        obtain ⟨part, parts, hoffers, hparts⟩ := of_readNode? h
        exact ⟨node, mem_of_choice? hnode, part, parts,
          ⟨Nat.succ_pos _, fun hpart ↦ List.mem_cons_of_mem _ (hoffers.mem_parts hpart)⟩, hparts⟩
    | _ => cases h

/-! ## Cases -/

theorem tagged_isTagged (variants : List (Variant JsonNumber α)) :
    (tagged variants).IsTagged variants where
  encode_eq h := by simp only [tagged, h]
  decode?_object {nested members name variant value} hnodup htag hvariant hread := by
    change (if repeatsNone ["tag", "value"] members then _ else _) = _
    rw [if_pos (repeatsNone_of_nodup hnodup _), htag, Option.bind_some, bareName?, Option.bind_some,
      hvariant, Option.bind_some, hread]
  of_decode? {nested json value} h := by
    simp only [tagged] at h
    split at h
    · rename_i members
      split at h
      · obtain ⟨name, -, h⟩ := Option.bind_eq_some_iff.mp h
        obtain ⟨variant, hvariant, h⟩ := Option.bind_eq_some_iff.mp h
        exact ⟨Nat.succ_pos _, variant, List.mem_of_find?_eq_some hvariant, nested, _,
          fun part hpart ↦ (offers_object members).mem_parts hpart, h⟩
      · cases h
    · rename_i tag content
      obtain ⟨variant, hvariant, h⟩ := Option.bind_eq_some_iff.mp h
      refine ⟨Nat.succ_pos _, variant, mem_of_choice? hvariant, nested, _, ?_, h⟩
      rintro part ⟨⟩
      exact List.mem_cons_of_mem _ List.mem_cons_self
    · cases h

theorem named_isNamed (variants : List (Variant JsonNumber α)) :
    (named variants).IsNamed variants where
  encode_eq h := by simp only [named, h]
  decode?_text {nested name variant value} hvariant hread := by
    change (variants.find? (·.name == name)).bind _ = _
    rw [hvariant, Option.bind_some, hread]
  decode?_object {nested name content variant value} hvariant hread := by
    change (variants.find? (·.name == name)).bind _ = _
    rw [hvariant, Option.bind_some, hread]
  of_decode? {nested json value} h := by
    simp only [named] at h
    split at h
    · obtain ⟨variant, hvariant, h⟩ := Option.bind_eq_some_iff.mp h
      exact ⟨variant, List.mem_of_find?_eq_some hvariant, none, nofun, h⟩
    · obtain ⟨variant, hvariant, h⟩ := Option.bind_eq_some_iff.mp h
      refine ⟨variant, List.mem_of_find?_eq_some hvariant, _, ?_, h⟩
      rintro part ⟨⟩
      exact List.mem_singleton_self _
    · cases h

/-! ## Trees that hold trees -/

theorem choice?_bind_congr {β : Type 1} {name : β → String} {xs ys : List β} {f g : β → Option α}
    (h : List.Forall₂ (fun x y ↦ name x = name y ∧ f x = g y) xs ys) (nested : Bool)
    (json : Json JsonNumber) :
    (choice? name xs nested json).bind f = (choice? name ys nested json).bind g := by
  unfold choice?
  split
  · rename_i text
    induction h with
    | nil => rfl
    | @cons x y xs ys hxy _ ih =>
      rw [List.find?_cons, List.find?_cons, hxy.1]
      cases name y == text with
      | true => exact hxy.2
      | false => exact ih
  · split
    · rename_i n hn
      clear hn
      induction h generalizing n with
      | nil => rfl
      | cons hxy _ ih =>
        cases n with
        | zero => exact hxy.2
        | succ n => simpa using ih n
    · rfl
  · rfl

theorem readNode?_congr {node node' : NodeLayout JsonNumber α} {json : Json JsonNumber}
    (hparts : partsAt? node.fields json = partsAt? node'.fields json)
    (hread : ∀ part, json.Offers part →
      (node.fields.read? true part).map node.make = (node'.fields.read? true part).map node'.make) :
    readNode? node json = readNode? node' json := by
  rw [readNode?, readNode?, hparts]
  cases h : partsAt? node'.fields json with
  | none => rfl
  | some part => exact hread part (offers_of_partsAt? h)

/-- The kinds have the same names, and the same nodes are read with them from the value. -/
def ReadAlike (kinds kinds' : List (NodeLayout JsonNumber α)) (json : Json JsonNumber) : Prop :=
  List.Forall₂
    (fun node node' ↦ node.kind = node'.kind ∧ readNode? node json = readNode? node' json)
    kinds kinds'

/-- The codec of the trees in a node is used for nothing else than lower trees, and for parts of the
value that the node is read from. -/
structure IsRecursive (height : α → ℕ)
    (kinds : Codec JsonNumber α → List (NodeLayout JsonNumber α)) : Prop where
  encode_congr {c c' : Codec JsonNumber α} {value : α} :
    (∀ part, height part < height value → c.encode part = c'.encode part) →
    (tree (kinds c)).encode value = (tree (kinds c')).encode value
  readNode?_congr {c c' : Codec JsonNumber α} {json : Json JsonNumber} :
    (∀ part ∈ json.parts, c.decode? true part = c'.decode? true part) →
    ReadAlike (kinds c) (kinds c') json

/-- An array of the fields lacks the first item, which tells the kind. -/
theorem decode?_tree_congr {kinds kinds' : List (NodeLayout JsonNumber α)} {json : Json JsonNumber}
    (nested : Bool)
    (h : ∀ fields : Json JsonNumber, fields.parts ⊆ json.parts → ReadAlike kinds kinds' fields) :
    (tree kinds).decode? nested json = (tree kinds').decode? nested json := by
  cases json with
  | object members =>
    change (if repeatsNone [typeKey] members then _ else _) = ite _ _ _
    simp only [choice?_bind_congr (h _ (List.Subset.refl _))]
  | array items =>
    cases items with
    | nil => rfl
    | cons kind items => exact choice?_bind_congr (h (.array items) (List.subset_cons_self _ _)) _ _
  | _ => rfl

variable {height : α → ℕ} {kinds : Codec JsonNumber α → List (NodeLayout JsonNumber α)}

/-- The codec of trees is that of the nodes in which it stands itself. -/
theorem recursiveTree_eq (h : IsRecursive height kinds) :
    recursiveTree height kinds = tree (kinds (recursiveTree height kinds)) := by
  have hencode : encodeTree height kinds = (tree (kinds (recursiveTree height kinds))).encode := by
    funext value
    rw [encodeTree]
    exact h.encode_congr fun part hpart ↦ if_pos hpart
  have hdecode : decodeTree? kinds = (tree (kinds (recursiveTree height kinds))).decode? := by
    funext nested json
    rw [decodeTree?]
    refine decode?_tree_congr nested fun fields hsubset ↦ h.readNode?_congr fun part hpart ↦ ?_
    exact if_pos (Json.depth_lt_of_mem_parts (hsubset hpart))
  exact congrArg₂ Codec.mk hencode hdecode

private theorem recursiveTree_isTree (h : IsRecursive height kinds) :
    (recursiveTree height kinds).IsTree (kinds (recursiveTree height kinds)) := by
  have htree := tree_isTree (kinds (recursiveTree height kinds))
  rwa [← recursiveTree_eq h] at htree

end MapQuery.JsonStandard

namespace MapQuery

/-! ## The library -/

namespace JsonLibrary

theorem standard_lawful : standard.Lawful where
  toInt?_ofInt := JsonNumber.toInt?_ofInt
  toInt?_ofFloat := JsonNumber.toInt?_ofFloat
  isFinite_of_toFloat? {number x} h := by
    change (if number.numeral.toFloat.isFinite then _ else _) = _ at h
    split at h
    · cases h
      assumption
    · cases h
  encode_text _ := rfl
  decode?_text {nested json value} := by cases json <;> simp [standard, JsonStandard.text]
  encode_boolean _ := rfl
  decode?_boolean {nested json value} := by cases json <;> simp [standard, JsonStandard.boolean]
  int64 := JsonStandard.integer_isInteger Int64.ofInt_toInt
  uint32 := JsonStandard.integer_isInteger fun n ↦ UInt32.ofNat_toNat
  uint64 := JsonStandard.integer_isInteger fun n ↦ UInt64.ofNat_toNat
  encode_float _ := rfl
  decode?_float {nested json x} := by cases json <;> simp [standard, JsonStandard.float]
  encode_list _ _ := rfl
  decode?_list {α item nested json values} := by
    cases json <;> simp [standard, JsonStandard.list]
  record := JsonStandard.record_isRecord
  tree := JsonStandard.tree_isTree
  tagged := JsonStandard.tagged_isTagged
  named := JsonStandard.named_isNamed
  read?_write h := by
    change (JsonText.read? (String.ofList (JsonText.write _))).bind _ = _
    rw [JsonText.read?_write h, Option.bind_some]
  of_read? h := by
    obtain ⟨json, hjson, h⟩ := Option.bind_eq_some_iff.mp h
    exact ⟨json, JsonText.depth_lt_of_read? hjson, h⟩

theorem standard_floatsComeBack : standard.FloatsComeBack := fun _ ↦ JsonNumber.toFloat?_ofFloat

end JsonLibrary

/-! ## Layers -/

namespace Layer

open JsonStandard

private theorem isRecursive_kinds : IsRecursive height (kinds .standard) where
  encode_congr {c c' value} h := by
    cases value with
    | source id => rfl
    | filtered layer field value =>
      have hlayer := h layer (Nat.lt_succ_self _)
      simp [tree, kinds, sourceNode, filteredNode, NodeLayout.write?, Fields.write, Slot.write,
        hlayer]
    | buffered layer distance =>
      have hlayer := h layer (Nat.lt_succ_self _)
      simp [tree, kinds, sourceNode, filteredNode, bufferedNode, NodeLayout.write?, Fields.write,
        Slot.write, hlayer]
    | combined overlay a b =>
      have ha := h a (Nat.lt_succ_of_le (le_max_left _ _))
      have hb := h b (Nat.lt_succ_of_le (le_max_right _ _))
      cases overlay <;>
        simp [tree, kinds, sourceNode, filteredNode, bufferedNode, combinedNode, NodeLayout.write?,
          Fields.write, Slot.write, ha, hb]
  readNode?_congr {c c' json} h := by
    have hlayer {part : String → Option (Json JsonNumber)} (hpart : json.Offers part)
        (key : String) : (part key).bind (c.decode? true) = (part key).bind (c'.decode? true) := by
      cases hkey : part key with
      | none => rfl
      | some value => exact h value (hpart.mem_parts hkey)
    have hfiltered : readNode? (filteredNode .standard c) json =
        readNode? (filteredNode .standard c') json :=
      readNode?_congr rfl fun part hpart ↦ by
        simp only [filteredNode, Fields.read?, Slot.read?, hlayer hpart]
    have hbuffered : readNode? (bufferedNode .standard c) json =
        readNode? (bufferedNode .standard c') json :=
      readNode?_congr rfl fun part hpart ↦ by
        simp only [bufferedNode, Fields.read?, Slot.read?, hlayer hpart]
    have hcombined (overlay : Overlay) : readNode? (combinedNode c overlay) json =
        readNode? (combinedNode c' overlay) json :=
      readNode?_congr rfl fun part hpart ↦ by
        simp only [combinedNode, Fields.read?, Slot.read?, hlayer hpart]
    exact .cons ⟨rfl, rfl⟩ <| .cons ⟨rfl, hfiltered⟩ <| .cons ⟨rfl, hbuffered⟩ <|
      .cons ⟨rfl, hcombined _⟩ <| .cons ⟨rfl, hcombined _⟩ <| .cons ⟨rfl, hcombined _⟩ .nil

theorem standardCodec_isTree : standardCodec.IsTree (kinds .standard standardCodec) :=
  recursiveTree_isTree isRecursive_kinds

end Layer

end MapQuery
