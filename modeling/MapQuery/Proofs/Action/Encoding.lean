import MapQuery.Action.Encoding
import MapQuery.Proofs.Action.WrittenForm
import MapQuery.Proofs.Json.RoundTrips

/-!
# Actions round-trip

A layer comes back from JSON exactly if all its numbers are finite, and so does an action. The codec
of layers is made from itself, so this is an induction on the depth of JSON values: if layers
round-trip up to some depth, the fields of a node do, and so do layers one level deeper.

A tree is the one thing in the data that can be nested without bound. In JSON it is nested as deep
as it is high (`Layer.depth_encode`).
-/

namespace MapQuery

variable {ν : Type} {lib : JsonLibrary ν}

namespace Literal

theorem separates : Separates (variants lib) Variant.name Variant.write? where
  nodup := by simp [variants, Variant.name]
  exists_name value := by cases value <;> simp [variants, Variant.name, Variant.write?]

theorem roundTrips (hlib : lib.Lawful) (hfloats : lib.FloatsComeBack) :
    (codec lib).RoundTrips fun value ↦ value.isFinite = true := by
  refine (hlib.tagged _).roundTrips separates fun n ↦ ?_
  simp only [variants, List.forall_mem_cons, List.not_mem_nil, false_imp_iff, implies_true,
    and_true]
  exact ⟨.holding (hlib.roundTrips_text n) (by intro value _; cases value <;> simp)
      (by simp [isFinite]),
    .holding (hlib.roundTrips_int64 n) (by intro value _; cases value <;> simp)
      (by simp [isFinite]),
    .holding (hlib.roundTrips_float hfloats n) (by intro value _; cases value <;> simp)
      (by simp [isFinite]),
    .holding (hlib.roundTrips_boolean n) (by intro value _; cases value <;> simp)
      (by simp [isFinite])⟩

theorem nestedWithin (hlib : lib.Lawful) : (codec lib).NestedWithin 1 := by
  refine (hlib.tagged _).nestedWithin separates ?_
  simp only [variants, List.forall_mem_cons, List.not_mem_nil, false_imp_iff, implies_true,
    and_true]
  exact ⟨.holding hlib.nestedWithin_text, .holding hlib.int64.nestedWithin,
    .holding hlib.nestedWithin_float, .holding hlib.nestedWithin_boolean⟩

end Literal

/-! ## Layers -/

namespace Layer

variable {layer : Codec ν Layer}

theorem separates : Separates (kinds lib layer) NodeLayout.kind NodeLayout.write? where
  nodup := by simp [kinds, sourceNode, filteredNode, bufferedNode, combinedNode, Overlay.command]
  exists_name value := by
    cases value with
    | combined overlay a b =>
      cases overlay <;>
        simp [kinds, NodeLayout.write?, sourceNode, filteredNode, bufferedNode, combinedNode,
          Overlay.command]
    | _ =>
      simp [kinds, NodeLayout.write?, sourceNode, filteredNode, bufferedNode, combinedNode,
        Overlay.command]

theorem roundTripsBelow_fields (hlib : lib.Lawful) (hfloats : lib.FloatsComeBack) {n : ℕ}
    (h : layer.RoundTripsBelow n fun layer ↦ layer.isFinite = true) :
    ∀ node ∈ kinds lib layer,
      node.fields.RoundTripsBelow n fun parts ↦ (node.make parts).isFinite = true := by
  have htext := hlib.roundTrips_text n
  have hvalue := Literal.roundTrips hlib hfloats n
  have hdistance := hlib.roundTrips_float hfloats n
  have hcombined (overlay : Overlay) :
      (combinedNode layer overlay).fields.RoundTripsBelow n
        fun parts ↦ ((combinedNode layer overlay).make parts).isFinite = true :=
    (Fields.RoundTripsBelow.member (.required h) <| .member (.required h) .nil).congr
      (by simp [combinedNode, isFinite])
  simp only [kinds, List.forall_mem_cons, List.not_mem_nil, false_imp_iff, implies_true, and_true]
  refine ⟨?source, ?filtered, ?buffered, hcombined _, hcombined _, hcombined _⟩
  case source =>
    exact (Fields.RoundTripsBelow.member (.required htext) .nil).congr
      (by simp [sourceNode, isFinite])
  case filtered =>
    exact (Fields.RoundTripsBelow.member (.required h) <| .member (.required htext) <|
      .member (.required hvalue) .nil).congr (by simp [filteredNode, isFinite])
  case buffered =>
    exact (Fields.RoundTripsBelow.member (.required h) <| .member (.required hdistance) .nil).congr
      (by simp [bufferedNode, isFinite])

theorem roundTrips (hlib : lib.Lawful) (hfloats : lib.FloatsComeBack)
    (hlayer : layer.IsTree (kinds lib layer)) :
    layer.RoundTrips fun layer ↦ layer.isFinite = true := by
  intro n
  induction n with
  | zero => exact Codec.roundTripsBelow_zero
  | succ n ih => exact hlayer.roundTripsBelow separates (roundTripsBelow_fields hlib hfloats ih)

private theorem height_pos (value : Layer) : 0 < value.height := by
  cases value <;> exact Nat.succ_pos _

theorem depth_encode (hlib : lib.Lawful) (hlayer : layer.IsTree (kinds lib layer))
    (value : Layer) : (layer.encode value).depth = value.height := by
  induction value with
  | source id =>
    have hencode : layer.encode (source id) =
        .object [(typeKey, .text "source"), ("id", lib.text.encode id)] := hlayer.encode_eq rfl
    rw [hencode, hlib.encode_text]
    rfl
  | filtered inner field value ih =>
    have hencode : layer.encode (filtered inner field value) =
        .object [(typeKey, .text "filtered"), ("source", layer.encode inner),
          ("field", lib.text.encode field), ("value", (Literal.codec lib).encode value)] :=
      hlayer.encode_eq rfl
    have hvalue := Literal.nestedWithin hlib value
    have hinner := inner.height_pos
    rw [hencode, hlib.encode_text, height]
    simp only [Json.depth, Json.depthOfMembers, ih]
    omega
  | buffered inner distance ih =>
    have hencode : layer.encode (buffered inner distance) =
        .object [(typeKey, .text "buffered"), ("source", layer.encode inner),
          ("distance", lib.float.encode distance)] := hlayer.encode_eq rfl
    have hdistance := hlib.nestedWithin_float distance
    rw [hencode, height]
    simp only [Json.depth, Json.depthOfMembers, ih]
    omega
  | combined overlay a b iha ihb =>
    have hencode : layer.encode (combined overlay a b) =
        .object [(typeKey, .text overlay.command), ("source_a", layer.encode a),
          ("source_b", layer.encode b)] := by
      cases overlay <;> exact hlayer.encode_eq rfl
    rw [hencode, height]
    simp only [Json.depth, Json.depthOfMembers, iha, ihb]
    omega

end Layer

/-! ## Actions -/

namespace Action

variable {layer : Codec ν Layer}

theorem separates :
    Separates ([Verb.select, .addToMap, .count].map (node layer)) NodeLayout.kind
      NodeLayout.write? where
  nodup := by simp [node, Verb.command]
  exists_name action := by
    obtain ⟨verb, layer⟩ := action
    cases verb <;> simp [node, NodeLayout.write?, Verb.command]

theorem roundTrips (hlib : lib.Lawful)
    (hlayer : layer.RoundTrips fun layer ↦ layer.isFinite = true) :
    (codec lib layer).RoundTrips fun action ↦ action.layer.isFinite = true := by
  refine (hlib.tree _).roundTrips separates fun n ↦ List.forall_mem_map.mpr fun verb _ ↦ ?_
  exact (Fields.RoundTripsBelow.member (.required (hlayer n)) .nil).congr (by simp [node])

theorem depth_encode (hlib : lib.Lawful) (hlayer : layer.IsTree (Layer.kinds lib layer))
    (action : Action) : ((codec lib layer).encode action).depth = action.layer.height + 1 := by
  obtain ⟨verb, value⟩ := action
  have hencode : (codec lib layer).encode ⟨verb, value⟩ =
      .object [(typeKey, .text verb.command), ("layer", layer.encode value)] := by
    cases verb <;> exact (hlib.tree _).encode_eq rfl
  rw [hencode]
  simp only [Json.depth, Json.depthOfMembers, Layer.depth_encode hlib hlayer]
  omega

end Action

end MapQuery
