import Mathlib.Data.List.Nodup
import MapQuery.Memory.Town
import MapQuery.Proofs.Execution.Effects
import MapQuery.Proofs.Execution.Inheritance
import MapQuery.Proofs.Execution.Lineage
import MapQuery.Proofs.Host.Repetitions

/-!
# Selecting the originals

Data have lost the identity of the features that they come from, but they have kept the keys. To
select is to read the keys of the data, drop the empty ones and the repetitions, and mark each
feature of the origin whose key is among the rest.

A key is found among the distinct keys exactly if it is not null and found among all keys
(`any_distinctKeys`). Together with the lineage of the features this says what is selected
(`Host.select_marks_originals`): without a union on the way to the primary leaf, the keys that are
asked for are keys of the origin.
-/

namespace MapQuery

open Memory

/-! ## Distinct keys -/

section Keys

variable {keys : List AttributeValue} {key : AttributeValue}

theorem distinctKeys_eq_eraseDupsBy (keys : List AttributeValue) :
    distinctKeys keys = (keys.filter (· ≠ .null)).eraseDupsBy AttributeValue.same := by
  induction keys using List.reverseRecOn with
  | nil => rfl
  | append_singleton keys key ih =>
    rw [distinctKeys, List.foldl_concat, ← distinctKeys, addKey, List.filter_append, ih]
    by_cases hnull : key = .null
    · simp [hnull]
    · have hkey : [key].filter (· ≠ .null) = [key] := by simp [hnull]
      have hlike : key.same = (·.same key) := funext fun kept ↦ AttributeValue.same_comm key kept
      rw [hkey, eraseDupsBy_concat, hlike]
      exact if_congr (or_iff_right hnull) rfl rfl

private theorem null_notMem_distinctKeys (keys : List AttributeValue) :
    AttributeValue.null ∉ distinctKeys keys := by
  rw [distinctKeys_eq_eraseDupsBy]
  intro hmem
  simpa using (eraseDupsBy_sublist _ _).subset hmem

theorem pairwise_distinctKeys (keys : List AttributeValue) :
    (distinctKeys keys).Pairwise fun first second ↦ first.same second = false := by
  rw [distinctKeys_eq_eraseDupsBy]
  exact (pairwise_eraseDupsBy _ _).imp fun h ↦ (AttributeValue.same_comm _ _).trans h

private theorem mem_of_mem_distinctKeys (h : key ∈ distinctKeys keys) : key ∈ keys := by
  rw [distinctKeys_eq_eraseDupsBy] at h
  exact List.mem_of_mem_filter ((eraseDupsBy_sublist _ _).subset h)

/-- Each key but null is one of the distinct keys, or one of them is the same. What is not a number
is not the same as itself, so the first case is not part of the second one. -/
theorem exists_distinctKeys_of_mem (h : key ∈ keys) (hnull : key ≠ .null) :
    ∃ kept ∈ distinctKeys keys, kept = key ∨ kept.same key = true := by
  have hkey : key ∈ keys.filter (· ≠ .null) := List.mem_filter.mpr ⟨h, by simpa using hnull⟩
  obtain ⟨kept, hkept, hlike⟩ := exists_mem_eraseDupsBy hkey
  rw [distinctKeys_eq_eraseDupsBy]
  exact ⟨kept, hkept, hlike.imp_right AttributeValue.same_symm⟩

/-- **Nothing is lost with the repetitions.** A key is found among the distinct keys if it is found
among all keys, unless it is null. -/
theorem any_distinctKeys (keys : List AttributeValue) (key : AttributeValue) :
    (distinctKeys keys).any (·.same key) = true ↔
      key ≠ .null ∧ ∃ first ∈ keys, first.same key = true := by
  rw [List.any_eq_true]
  constructor
  · rintro ⟨kept, hkept, hsame⟩
    refine ⟨?_, kept, mem_of_mem_distinctKeys hkept, hsame⟩
    rintro rfl
    cases AttributeValue.eq_null_of_same hsame
    exact null_notMem_distinctKeys keys hkept
  · rintro ⟨hnull, first, hfirst, hsame⟩
    have hfirstNull : first ≠ .null := by
      rintro rfl
      exact hnull (AttributeValue.eq_null_of_same (AttributeValue.same_symm hsame))
    obtain ⟨kept, hkept, rfl | hkeptSame⟩ := exists_distinctKeys_of_mem hfirst hfirstNull
    · exact ⟨kept, hkept, hsame⟩
    · exact ⟨kept, hkept, AttributeValue.same_trans hkeptSame hsame⟩

end Keys

/-! ## Selecting on a host -/

section Select

variable {settings : Settings} {layer : Layer} {layers : List FeatureCollection}
  {origin : FeatureCollection} {resolved : Resolved FeatureCollection}
  {keys selection : List AttributeValue} {keyField : String}

theorem attributeValues_eq_ok {data : FeatureCollection} {values : List AttributeValue}
    (h : data.attributeValues keyField = .ok values) :
    values = data.features.map (·.value keyField) := by
  rw [FeatureCollection.attributeValues] at h
  split at h
  · exact (Except.ok.inj h).symm
  · cases h

private theorem keysToSelect_eq_ok (h : keysToSelect resolved = .ok keys) :
    ∃ keyField, resolved.origin.keyField = some keyField ∧
      distinctKeys (resolved.data.features.map (·.value keyField)) = keys := by
  cases hfield : Dataset.keyField resolved.origin with
  | none => simp [keysToSelect, hfield] at h
  | some keyField =>
    cases hvalues : Dataset.attributeValues resolved.data keyField with
    | error cause => simp [keysToSelect, hfield, hvalues] at h
    | ok values =>
      simp only [keysToSelect, hfield, hvalues, Except.ok.injEq] at h
      exact ⟨keyField, hfield, attributeValues_eq_ok hvalues ▸ h⟩

theorem find?_id_eq_some (hids : (layers.map (·.id)).Nodup) (h : origin ∈ layers) :
    layers.find? (·.id = origin.id) = some origin := by
  cases hfind : layers.find? (·.id = origin.id) with
  | none => exact absurd (List.find?_eq_none.mp hfind origin h) (by simp)
  | some layer =>
    have hid : layer.id = origin.id := by simpa using List.find?_some hfind
    rw [List.inj_on_of_nodup_map hids (List.mem_of_find?_eq_some hfind) h hid]

private theorem Layer.mem_of_base?_eq_some (h : layer.base? layers = some origin) :
    origin ∈ layers :=
  List.mem_of_find?_eq_some h

/-- The project selects on the layer that it is told, and by that layer's own key field. -/
theorem newSelection_eq_ok (hids : (layers.map (·.id)).Nodup) (horigin : origin ∈ layers)
    (hfield : origin.keyField = some keyField)
    (h : Workspace.newSelection layers origin.id keys = .ok selection) :
    Workspace.matchingKeys origin keyField keys = selection := by
  simpa only [Workspace.newSelection, find?_id_eq_some hids horigin, hfield, Except.ok.injEq]
    using h

/-- **What selecting does.** The layer is evaluated, the distinct keys of the data are handed to the
project, and the origin's features with these keys are selected. -/
theorem Host.select_eq_ok {host after : Host Workspace Engine} {sentence : String}
    (hids : (host.project.layers.map (·.id)).Nodup)
    (h : Host.execute settings ⟨.select, layer⟩ host = (.ok sentence, after)) :
    ∃ resolved keyField,
      MapQuery.evaluate settings host.project.layers layer host.engine
        = (.ok resolved, after.engine) ∧
      layer.base? host.project.layers = some resolved.origin ∧
      resolved.origin.keyField = some keyField ∧
      let keys := distinctKeys (resolved.data.features.map (·.value keyField))
      let selection := Workspace.matchingKeys resolved.origin keyField keys
      after.project
          = (host.project.afterRequest keys).withSelection resolved.origin.id selection ∧
        sentence = selectedSentence selection.length := by
  obtain ⟨resolved, hrun, hconclude⟩ := Host.execute_eq_ok_iff.mp h
  have hbase := (foretells_of_evaluate hrun).base_eq
  rcases select_cases resolved host.project with
    ⟨error, failed, hselect, -⟩ | ⟨keys, selection, hkeys, hselection, hselect⟩
  · cases hselect.symm.trans hconclude
  · obtain ⟨keyField, hfield, rfl⟩ := keysToSelect_eq_ok hkeys
    obtain rfl := newSelection_eq_ok hids (Layer.mem_of_base?_eq_some hbase) hfield hselection
    obtain ⟨hsentence, hproject⟩ := Prod.mk.inj (hselect.symm.trans hconclude)
    exact ⟨resolved, keyField, hrun, hbase, hfield, hproject.symm, (Except.ok.inj hsentence).symm⟩

end Select

/-! ## The originals -/

/-- Keys that stand for the features of the data, as keys of the origin. -/
structure AreKeysOf (keyField : String) (origin data : FeatureCollection)
    (keys : List AttributeValue) : Prop where
  pairwise_ne : keys.Pairwise fun first second ↦ first.same second = false
  null_notMem : AttributeValue.null ∉ keys
  exists_original : ∀ key ∈ keys, ∃ feature ∈ origin.features, feature.value keyField = key
  covers : ∀ feature ∈ data.features, feature.value keyField ≠ .null →
    ∃ key ∈ keys, key = feature.value keyField ∨ key.same (feature.value keyField) = true

private theorem areKeysOf_distinctKeys {keyField : String} {origin data : FeatureCollection}
    (h : TakesValues keyField origin data) :
    AreKeysOf keyField origin data (distinctKeys (data.features.map (·.value keyField))) where
  pairwise_ne := pairwise_distinctKeys _
  null_notMem := null_notMem_distinctKeys _
  exists_original := by
    intro key hkey
    obtain ⟨feature, hfeature, rfl⟩ := List.mem_map.mp (mem_of_mem_distinctKeys hkey)
    obtain ⟨source, hsource, heq⟩ := h feature hfeature
    exact ⟨source, hsource, heq.symm⟩
  covers := fun _ hfeature hnull ↦ exists_distinctKeys_of_mem (List.mem_map_of_mem hfeature) hnull

/-- **Selecting marks the originals that survive.** Without a union on the way to the primary leaf,
the keys that the project is asked for are keys of the origin, each once and none of them null, and
they cover the data. Afterwards the selection of the origin is made of its features with one of
these keys, and their number is told. -/
theorem Host.select_marks_originals {settings : Settings} {layer : Layer}
    {host after : Host Workspace Engine} {sentence : String}
    (hids : (host.project.layers.map (·.id)).Nodup) (hunion : layer.AvoidsUnion)
    (hnumbers : host.engine.renumbers = false ∨
      ∀ origin, layer.base? host.project.layers = some origin →
        origin.keyField ≠ some numberField)
    (h : Host.execute settings ⟨.select, layer⟩ host = (.ok sentence, after)) :
    ∃ origin data keyField keys,
      layer.base? host.project.layers = some origin ∧ origin.keyField = some keyField ∧
      (Host.evaluate settings layer host).1 = .ok ⟨origin, data⟩ ∧
      AreKeysOf keyField origin data keys ∧
      after.project.requestedKeys = host.project.requestedKeys ++ [keys] ∧
      let selection := (origin.features.map (·.value keyField)).filter fun key ↦
        keys.any (·.same key)
      after.project.selectedKeys origin.id = selection ∧
        sentence = if selection.length = 1 then "Selected 1 item"
          else "Selected " ++ toString selection.length ++ " items" := by
  obtain ⟨⟨origin, data⟩, keyField, hrun, hbase, hfield, hproject, hsentence⟩ :=
    Host.select_eq_ok hids h
  have hspares : host.engine.Spares keyField := hnumbers.imp_right fun hne hkey ↦
    hne origin hbase (hkey ▸ hfield)
  have htakes : TakesValues keyField origin data := takesValues_of_evaluate hunion hspares hrun
  refine ⟨origin, data, keyField, _, hbase, hfield, ?_, areKeysOf_distinctKeys htakes, ?_, ?_,
    hsentence⟩
  · rw [Host.evaluate_of_eq hrun]
  · rw [hproject]
    rfl
  · rw [hproject, Workspace.selectedKeys_withSelection]
    rfl

/-- The buildings within 500 metres of the highway. -/
theorem Host.select_near_highway :
    let layer : Layer := .combined .intersection (.source "buildings")
      (.buffered (.filtered (.source "Roads") "type" (.text "highway")) 500)
    let host : Host Workspace Engine := ⟨Town.workspace, .new⟩
    let outcome := Host.execute .default ⟨.select, layer⟩ host
    (host.project.layers.map (·.id)).Nodup ∧ layer.AvoidsUnion ∧ host.engine.renumbers = false ∧
      outcome.1 = .ok "Selected 2 items" ∧
      ∃ data keys, AreKeysOf numberField Town.buildings data keys ∧
        outcome.2.project.requestedKeys = [keys] ∧
        outcome.2.project.selectedKeys Town.buildings.id = [.integer 1, .integer 4] := by
  intro layer host outcome
  have hids : (host.project.layers.map (·.id)).Nodup := by decide +kernel
  have hunion : layer.AvoidsUnion := ⟨nofun, trivial⟩
  have hsentence : outcome.1 = .ok "Selected 2 items" := by decide +kernel
  obtain ⟨origin, data, keyField, keys, hbase, hfield, -, hkeys, hrequested, -⟩ :=
    Host.select_marks_originals hids hunion (Or.inl rfl) (Prod.ext hsentence rfl)
  have hname : goesBy Town.buildings "buildings" = true := by decide +kernel
  have hbuildings : layer.base? host.project.layers = some Town.buildings := by
    change [Town.buildings, Town.roads, Town.parks].find? (goesBy · "buildings") = _
    exact List.find?_cons_of_pos hname
  cases hbase.symm.trans hbuildings
  cases hfield
  refine ⟨hids, hunion, rfl, hsentence, data, keys, hkeys, hrequested, ?_⟩
  decide +kernel

end MapQuery
