import MapQuery.Proofs.Execution.Selection
import MapQuery.Proofs.Execution.Stability

/-!
# Selecting on a union

The features of a union are those of both operands, and nothing tells them apart. To select on it is
to look up the keys of all of them in the layer that the primary operand comes from. A feature of
the secondary operand is not a feature of that layer, but it may have the key of one.

So a union selects what its primary operand selects exactly if the secondary operand brings no key
of the origin that the primary operand does not have (`Host.select_union_eq_iff`). Layers that
number their features from one on break this: with the roads as secondary operand, a building is
selected because a road has its number (`Host.select_union_leaks`).
-/

namespace MapQuery

open Memory Engine

/-! ## Keys of data -/

namespace Memory.FeatureCollection

/-- Some feature of the data has the key. Null is no key. -/
def HasKey (data : FeatureCollection) (keyField : String) (key : AttributeValue) : Prop :=
  key ≠ .null ∧ ∃ feature ∈ data.features, (feature.value keyField).same key = true

variable {data other origin : FeatureCollection} {keyField : String} {key : AttributeValue}

private theorem any_distinctKeys_iff_hasKey (data : FeatureCollection) (keyField : String)
    (key : AttributeValue) :
    (distinctKeys (data.features.map (·.value keyField))).any (·.same key) = true ↔
      data.HasKey keyField key := by
  rw [any_distinctKeys, HasKey]
  simp only [List.mem_map, exists_exists_and_eq_and]

private theorem SameButId.hasKey_iff (h : data.SameButId other) :
    other.HasKey keyField key ↔ data.HasKey keyField key := by
  rw [HasKey, HasKey, h.features_eq]

private theorem hasKey_union (data other : FeatureCollection) (id : String) :
    (data.union other id).HasKey keyField key ↔
      data.HasKey keyField key ∨ other.HasKey keyField key := by
  simp only [HasKey, union, derive, List.mem_append, or_and_right, exists_or, and_or_left]

theorem matchingKeys_eq_iff :
    Workspace.matchingKeys origin keyField
        (distinctKeys (data.features.map (·.value keyField)))
      = Workspace.matchingKeys origin keyField
        (distinctKeys (other.features.map (·.value keyField))) ↔
      ∀ feature ∈ origin.features,
        (data.HasKey keyField (feature.value keyField) ↔
          other.HasKey keyField (feature.value keyField)) := by
  simp only [← any_distinctKeys_iff_hasKey]
  constructor
  · intro heq feature hfeature
    have hmem := congrArg (feature.value keyField ∈ ·) heq
    simpa [Workspace.matchingKeys, List.mem_filter, List.mem_map_of_mem hfeature] using hmem
  · intro h
    refine List.filter_congr fun key hkey ↦ ?_
    obtain ⟨feature, hfeature, rfl⟩ := List.mem_map.mp hkey
    exact Bool.eq_iff_iff.mpr (h feature hfeature)

end Memory.FeatureCollection

/-! ## Selecting -/

theorem combineData_union_eq_ok {primary secondary data : FeatureCollection}
    {engine engine' : Engine} (hengine : engine.IsPlain)
    (h : combineData .union primary secondary engine = (.ok data, engine')) :
    ∃ id, data = primary.union secondary id := by
  have hask : ask .union (primary.union secondary) engine = (.ok data, engine') := h
  obtain ⟨-, rfl, -⟩ := ask_eq_ok_iff.mp hask
  exact ⟨engine.nextId, handedOver_of_renumbers_eq_false hengine.renumbers_eq _⟩

/-- What a union is evaluated to on a plain engine, by what another plain engine evaluates its
operands to. -/
theorem evaluate_union_eq_ok {settings : Settings} {layers : List FeatureCollection} {a b : Layer}
    {engine engine' final : Engine} {primary resolved : Resolved FeatureCollection}
    (hengine : engine.IsPlain) (hengine' : engine'.IsPlain)
    (ha : (evaluate settings layers a engine).1 = .ok primary)
    (h : evaluate settings layers (.combined .union a b) engine' = (.ok resolved, final)) :
    ∃ secondary, (evaluate settings layers b engine).1 = .ok secondary ∧
      resolved.origin = primary.origin ∧
      ∀ keyField key, resolved.data.HasKey keyField key ↔
        primary.data.HasKey keyField key ∨ secondary.data.HasKey keyField key := by
  obtain ⟨primary', between, hrunA, secondary', between', hrunB, data, hdata, rfl⟩ :=
    evaluate_combined_eq_ok_iff.mp h
  have hbetween := hengine'.of_keepsMode (keepsMode_evaluate settings layers a) hrunA
  have hbetween' := hbetween.of_keepsMode (keepsMode_evaluate settings layers b) hrunB
  obtain ⟨id, rfl⟩ := combineData_union_eq_ok hbetween' hdata
  obtain ⟨primary'', hprimary, hsameA⟩ :=
    exists_evaluate_of_isPlain hengine' hengine (congrArg Prod.fst hrunA)
  cases hprimary.symm.trans ha
  obtain ⟨secondary, hsecondary, hsameB⟩ :=
    exists_evaluate_of_isPlain hbetween hengine (congrArg Prod.fst hrunB)
  refine ⟨secondary, hsecondary, hsameA.origin_eq.symm, fun keyField key ↦ ?_⟩
  rw [FeatureCollection.hasKey_union, hsameA.data.hasKey_iff, hsameB.data.hasKey_iff]

/-- **What a secondary operand adds to a selection.** From the same project, a union selects what
its primary operand selects on the origin exactly if every key of the origin that the secondary
operand has is one that the primary operand has as well. -/
theorem Host.select_union_eq_iff {settings : Settings} {a b : Layer} {project : Workspace}
    {engine engine' : Engine} {sentence sentence' : String} {after after' : Host Workspace Engine}
    (hids : (project.layers.map (·.id)).Nodup)
    (hengine : engine.IsPlain) (hengine' : engine'.IsPlain)
    (ha : Host.execute settings ⟨.select, a⟩ ⟨project, engine⟩ = (.ok sentence, after))
    (hunion : Host.execute settings ⟨.select, .combined .union a b⟩ ⟨project, engine'⟩
      = (.ok sentence', after')) :
    ∃ (primary secondary : Resolved FeatureCollection) (keyField : String),
      (Host.evaluate settings a ⟨project, engine⟩).1 = .ok primary ∧
      (Host.evaluate settings b ⟨project, engine⟩).1 = .ok secondary ∧
      primary.origin.keyField = some keyField ∧
      (after'.project.selectedKeys primary.origin.id
          = after.project.selectedKeys primary.origin.id ↔
        ∀ feature ∈ primary.origin.features,
          secondary.data.HasKey keyField (feature.value keyField) →
            primary.data.HasKey keyField (feature.value keyField)) := by
  obtain ⟨primary, keyField, hprimary, -, hfield, hproject, -⟩ := Host.select_eq_ok hids ha
  obtain ⟨resolved, keyField', hresolved, -, hfield', hproject', -⟩ :=
    Host.select_eq_ok hids hunion
  obtain ⟨secondary, hsecondary, horigin, hkeys⟩ :=
    evaluate_union_eq_ok hengine hengine' (congrArg Prod.fst hprimary) hresolved
  rw [horigin, hfield, Option.some.injEq] at hfield'
  subst hfield'
  refine ⟨primary, secondary, keyField, ?_, ?_, hfield, ?_⟩
  · rw [Host.evaluate_of_eq hprimary]
  · exact hsecondary
  · rw [hproject, hproject', horigin, Workspace.selectedKeys_withSelection,
      Workspace.selectedKeys_withSelection, FeatureCollection.matchingKeys_eq_iff]
    exact forall₂_congr fun feature _ ↦ by rw [hkeys, or_iff_left_iff_imp]

/-- The only park has the number of a building that is selected anyway. -/
theorem Host.select_union_with_park :
    let a : Layer := .filtered (.source "Buildings") "type" (.text "res")
    let b : Layer := .source "Parks"
    let host : Host Workspace Engine := ⟨Town.workspace, .new⟩
    let first := Host.execute .default ⟨.select, a⟩ host
    let second := Host.execute .default ⟨.select, .combined .union a b⟩ host
    (host.project.layers.map (·.id)).Nodup ∧ host.engine.IsPlain ∧
      first.1 = .ok "Selected 2 items" ∧ second.1 = .ok "Selected 2 items" ∧
      ∃ (primary secondary : Resolved FeatureCollection) (keyField : String),
        (Host.evaluate .default a host).1 = .ok primary ∧
        (Host.evaluate .default b host).1 = .ok secondary ∧
        primary.origin.keyField = some keyField ∧
        ∀ feature ∈ primary.origin.features,
          secondary.data.HasKey keyField (feature.value keyField) →
            primary.data.HasKey keyField (feature.value keyField) := by
  intro a b host first second
  have hids : (host.project.layers.map (·.id)).Nodup := by decide +kernel
  have hfirst : first.1 = .ok "Selected 2 items" := by decide +kernel
  have hsecond : second.1 = .ok "Selected 2 items" := by decide +kernel
  have hplain : host.engine.IsPlain := ⟨rfl, rfl⟩
  obtain ⟨primary, secondary, keyField, hprimary, hsecondary, hfield, hiff⟩ :=
    Host.select_union_eq_iff hids hplain hplain (Prod.ext hfirst rfl) (Prod.ext hsecond rfl)
  have horigin : (Host.evaluate .default a host).1.map (·.origin.id) = .ok Town.buildings.id := by
    decide +kernel
  rw [hprimary] at horigin
  have hid : primary.origin.id = Town.buildings.id := Except.ok.inj horigin
  refine ⟨hids, hplain, hfirst, hsecond, primary, secondary, keyField, hprimary, hsecondary, hfield,
    hiff.mp ?_⟩
  rw [hid]
  decide +kernel

/-- The first road has the number of a building that is not selected otherwise. -/
theorem Host.select_union_leaks :
    let a : Layer := .filtered (.source "Buildings") "type" (.text "ind")
    let b : Layer := .source "Roads"
    let host : Host Workspace Engine := ⟨Town.workspace, .new⟩
    let first := Host.execute .default ⟨.select, a⟩ host
    let second := Host.execute .default ⟨.select, .combined .union a b⟩ host
    (host.project.layers.map (·.id)).Nodup ∧ host.engine.IsPlain ∧
      (a.base? host.project.layers).map (·.id) = some Town.buildings.id ∧
      (b.base? host.project.layers).map (·.id) = some Town.roads.id ∧
      first.1 = .ok "Selected 1 item" ∧ second.1 = .ok "Selected 2 items" ∧
      first.2.project.selectedKeys Town.buildings.id = [.integer 2] ∧
      second.2.project.selectedKeys Town.buildings.id = [.integer 1, .integer 2] := by
  refine ⟨by decide +kernel, ⟨rfl, rfl⟩, ?_⟩
  decide +kernel

end MapQuery
