import MapQuery.Memory.Workspace
import MapQuery.Execution.Outcome
import MapQuery.Proofs.Host.Computation

/-!
# What an action changes

The evaluation of a layer changes the engine only. What the action does to the project comes last,
in one step that is either taken as a whole or not at all. So an action that fails leaves the layers
and the selections of the project as they are; a count does so in any case, a selection changes the
selection of its own layer and no other, and adding a layer puts it behind the others
(`Host.execute_frame`).

This holds for any engine, whatever it refuses, and for a project that may fail as well.
-/

namespace MapQuery

open Memory

/-! ## Changes of a project -/

namespace Memory.Workspace

/-- The other project has the same layers and the same selections. The record of what was asked for
may differ. -/
structure HasSameContents (workspace other : Workspace) : Prop where
  layers_eq : other.layers = workspace.layers
  added_eq : other.added = workspace.added
  selections_eq : other.selections = workspace.selections

/-- The project with one more layer. -/
def withLayer (workspace : Workspace) (layer : FeatureCollection) : Workspace :=
  { workspace with
    layers := workspace.layers ++ [layer]
    added := workspace.added ++ [layer] }

/-- The project after a request to select. -/
def afterRequest (workspace : Workspace) (keys : List AttributeValue) : Workspace :=
  { workspace with requestedKeys := workspace.requestedKeys ++ [keys] }

/-- The project with a new selection of the layer with the id. -/
def withSelection (workspace : Workspace) (layerId : String) (selection : List AttributeValue) :
    Workspace :=
  { workspace with selections := (layerId, selection) :: workspace.selections }

variable {workspace : Workspace} {layer : FeatureCollection} {keys selection : List AttributeValue}

private theorem hasSameContents_afterRequest (workspace : Workspace) (keys : List AttributeValue) :
    workspace.HasSameContents (workspace.afterRequest keys) :=
  ⟨rfl, rfl, rfl⟩

@[simp] theorem selectedKeys_withSelection (workspace : Workspace) (layerId : String)
    (selection : List AttributeValue) :
    (workspace.withSelection layerId selection).selectedKeys layerId = selection := by
  simp [selectedKeys, withSelection]

theorem lookup_selections_withSelection_of_ne {layerId other : String} (h : other ≠ layerId) :
    (workspace.withSelection layerId selection).selections.lookup other
      = workspace.selections.lookup other := by
  rw [withSelection, List.lookup_cons, beq_false_of_ne h]

private theorem addLayer_of_failing (h : workspace.failing = some .addLayer) :
    addLayer layer workspace = (.error (failure .addLayer), workspace) := by
  rw [addLayer, bind_apply_of_ok (by rfl)]
  exact congrFun (if_pos h) _

private theorem addLayer_of_ne (h : workspace.failing ≠ some .addLayer) :
    addLayer layer workspace = (.ok (), workspace.withLayer layer) := by
  rw [addLayer, bind_apply_of_ok (by rfl)]
  exact congrFun (if_neg h) _

private theorem selectByKeys_of_failing (h : workspace.failing = some .selectByKeys) :
    selectByKeys layer keys workspace
      = (.error (failure .selectByKeys), workspace.afterRequest keys) := by
  rw [selectByKeys, bind_apply_of_ok (by rfl), bind_apply_of_ok (by rfl)]
  exact congrFun (if_pos h) _

private theorem selectByKeys_of_error {cause : HostError}
    (h : workspace.failing ≠ some .selectByKeys)
    (hselection : newSelection workspace.layers layer.id keys = .error cause) :
    selectByKeys layer keys workspace = (.error cause, workspace.afterRequest keys) := by
  rw [selectByKeys, bind_apply_of_ok (by rfl), bind_apply_of_ok (by rfl)]
  refine (congrFun (if_neg h) _).trans (bind_apply_of_error ?_)
  change (newSelection workspace.layers layer.id keys, _) = _
  rw [hselection]
  rfl

theorem selectByKeys_of_ok (h : workspace.failing ≠ some .selectByKeys)
    (hselection : newSelection workspace.layers layer.id keys = .ok selection) :
    selectByKeys layer keys workspace
      = (.ok (), (workspace.afterRequest keys).withSelection layer.id selection) := by
  rw [selectByKeys, bind_apply_of_ok (by rfl), bind_apply_of_ok (by rfl)]
  refine (congrFun (if_neg h) _).trans ?_
  refine (bind_apply_of_ok (a := selection) (t := workspace.afterRequest keys) ?_).trans rfl
  change (newSelection workspace.layers layer.id keys, _) = _
  rw [hselection]
  rfl

/-- **A request to select** fails and selects nothing, or sets the selection of its layer. -/
theorem selectByKeys_cases (workspace : Workspace) (layer : FeatureCollection)
    (keys : List AttributeValue) :
    (∃ cause, selectByKeys layer keys workspace = (.error cause, workspace.afterRequest keys)) ∨
    ∃ selection, newSelection workspace.layers layer.id keys = .ok selection ∧
      selectByKeys layer keys workspace
        = (.ok (), (workspace.afterRequest keys).withSelection layer.id selection) := by
  by_cases h : workspace.failing = some .selectByKeys
  · exact Or.inl ⟨_, selectByKeys_of_failing h⟩
  · cases hselection : newSelection workspace.layers layer.id keys with
    | error cause => exact Or.inl ⟨cause, selectByKeys_of_error h hselection⟩
    | ok selection => exact Or.inr ⟨selection, rfl, selectByKeys_of_ok h hselection⟩

end Memory.Workspace

/-! ## Actions on a project -/

open Workspace

section Actions

variable {resolved : Resolved FeatureCollection} {workspace : Workspace}
  {keys selection : List AttributeValue}

private theorem select_of_keys_error {error : ExecutionError}
    (hkeys : keysToSelect resolved = .error error) :
    select resolved workspace = (.error error, workspace) := by
  have hlift : (liftM (keysToSelect resolved) : Execution Workspace _) workspace
      = (.error error, workspace) := by
    rw [hkeys]
    rfl
  rw [select, bind_apply_of_error hlift]

private theorem select_of_keys_ok (hkeys : keysToSelect resolved = .ok keys) :
    select resolved workspace
      = (do
          perform .selectByKeys (selectByKeys resolved.origin keys)
          return selectedSentence ((← get).selectedKeys resolved.origin.id).length :
            Execution Workspace String) workspace := by
  have hlift : (liftM (keysToSelect resolved) : Execution Workspace _) workspace
      = (.ok keys, workspace) := by
    rw [hkeys]
    rfl
  rw [select, bind_apply_of_ok hlift]
  rfl

private theorem select_of_error {cause : HostError} (hkeys : keysToSelect resolved = .ok keys)
    (h : selectByKeys resolved.origin keys workspace
      = (.error cause, workspace.afterRequest keys)) :
    select resolved workspace
      = (.error (.host .selectByKeys cause), workspace.afterRequest keys) := by
  rw [select_of_keys_ok hkeys, bind_apply_of_error (perform_of_error h)]

theorem select_of_ok (hkeys : keysToSelect resolved = .ok keys)
    (h : selectByKeys resolved.origin keys workspace
      = (.ok (), (workspace.afterRequest keys).withSelection resolved.origin.id selection)) :
    select resolved workspace = (.ok (selectedSentence selection.length),
      (workspace.afterRequest keys).withSelection resolved.origin.id selection) := by
  rw [select_of_keys_ok hkeys, bind_apply_of_ok (perform_of_ok h), bind_apply_of_ok (by rfl),
    selectedKeys_withSelection]
  rfl

/-- **Selecting** fails and selects nothing, or sets the selection of the origin. -/
theorem select_cases (resolved : Resolved FeatureCollection) (workspace : Workspace) :
    (∃ error after, select resolved workspace = (.error error, after) ∧
      workspace.HasSameContents after) ∨
    ∃ keys selection, keysToSelect resolved = .ok keys ∧
      newSelection workspace.layers resolved.origin.id keys = .ok selection ∧
      select resolved workspace = (.ok (selectedSentence selection.length),
        (workspace.afterRequest keys).withSelection resolved.origin.id selection) := by
  cases hkeys : keysToSelect resolved with
  | error error => exact Or.inl ⟨error, workspace, select_of_keys_error hkeys, ⟨rfl, rfl, rfl⟩⟩
  | ok keys =>
    rcases selectByKeys_cases workspace resolved.origin keys with
      ⟨cause, h⟩ | ⟨selection, hselection, h⟩
    · exact Or.inl ⟨.host .selectByKeys cause, workspace.afterRequest keys, select_of_error hkeys h,
        hasSameContents_afterRequest workspace keys⟩
    · exact Or.inr ⟨keys, selection, rfl, hselection, select_of_ok hkeys h⟩

private theorem addToMap_of_failing (h : workspace.failing = some .addLayer) :
    addToMap resolved workspace = (.error (.host .addLayer (failure .addLayer)), workspace) :=
  bind_apply_of_error (perform_of_error (addLayer_of_failing h))

theorem addToMap_of_ne (h : workspace.failing ≠ some .addLayer) :
    addToMap resolved workspace = (.ok addedSentence, workspace.withLayer resolved.data) :=
  bind_apply_of_ok (perform_of_ok (addLayer_of_ne h))

/-- **Adding to the map** fails and adds nothing, or puts the data behind the layers. -/
theorem addToMap_cases (resolved : Resolved FeatureCollection) (workspace : Workspace) :
    (∃ error, addToMap resolved workspace = (.error error, workspace)) ∨
      addToMap resolved workspace = (.ok addedSentence, workspace.withLayer resolved.data) := by
  by_cases h : workspace.failing = some .addLayer
  · exact Or.inl ⟨_, addToMap_of_failing h⟩
  · exact Or.inr (addToMap_of_ne h)

end Actions

/-- **The frame of an action.** An action that fails changes neither the layers nor the selections.
One that goes through has evaluated its layer; a count then changes nothing, a selection at most the
selection of the origin, and adding to the map puts the data behind the layers. -/
theorem Host.execute_frame {β : Type} [Processing β FeatureCollection] (settings : Settings)
    (action : Action) (host : Host Workspace β) :
    let outcome := Host.execute settings action host
    let before := host.project
    let after := outcome.2.project
    (∀ error, outcome.1 = .error error → before.HasSameContents after) ∧
    ∀ sentence, outcome.1 = .ok sentence → ∃ resolved,
      (MapQuery.evaluate settings before.layers action.layer host.engine).1 = .ok resolved ∧
      match action.verb with
      | .count => after = before
      | .select =>
        after.layers = before.layers ∧ after.added = before.added ∧
          ∀ id, id ≠ resolved.origin.id →
            after.selections.lookup id = before.selections.lookup id
      | .addToMap =>
        after.layers = before.layers ++ [resolved.data] ∧
          after.added = before.added ++ [resolved.data] ∧
          after.selections = before.selections := by
  rcases hrun : MapQuery.evaluate settings host.project.layers action.layer host.engine
    with ⟨error | resolved, engine⟩
  · rw [Host.execute_of_error hrun]
    exact ⟨fun _ _ ↦ ⟨rfl, rfl, rfl⟩, nofun⟩
  · have hresolved := congrArg Prod.fst hrun
    rw [Host.execute_of_ok hrun]
    obtain ⟨verb, layer⟩ := action
    cases verb with
    | count => exact ⟨nofun, fun _ _ ↦ ⟨resolved, hresolved, rfl⟩⟩
    | addToMap =>
      rcases addToMap_cases resolved host.project with ⟨error, h⟩ | h
      · simp only [conclude, h]
        exact ⟨fun _ _ ↦ ⟨rfl, rfl, rfl⟩, nofun⟩
      · simp only [conclude, h]
        exact ⟨nofun, fun _ _ ↦ ⟨resolved, hresolved, rfl, rfl, rfl⟩⟩
    | select =>
      rcases select_cases resolved host.project with
        ⟨error, after, h, hsame⟩ | ⟨keys, selection, -, -, h⟩
      · simp only [conclude, h]
        exact ⟨fun _ _ ↦ hsame, nofun⟩
      · simp only [conclude, h]
        refine ⟨nofun, fun _ _ ↦ ⟨resolved, hresolved, rfl, rfl, fun id hid ↦ ?_⟩⟩
        exact lookup_selections_withSelection_of_ne hid

end MapQuery
