import MapQuery.Memory.Town
import MapQuery.Proofs.Execution.Effects
import MapQuery.Proofs.Execution.Stability

/-!
# What later actions do not change

An action may add a layer, and the layers that are added go by names as all others do. But they are
added behind the others, and a name stands for the first layer that goes by it. So a name that has a
meaning keeps it, whatever is done afterwards, and a layer that was evaluated is evaluated to the
same in every project with more layers (`evaluate_of_prefix`).

Nor does it matter what the engine did in between (`exists_evaluate_of_isPlain`). Together this says
that an answer is good for ever: after any actions, whether they went through or not, a layer is
evaluated to the same origin and the same data, and an action has the same sentence
(`Host.evaluate_of_reaches`).
-/

namespace MapQuery

open Memory Engine Workspace

/-! ## Projects with more layers -/

section Layers

variable {δ β : Type} [Dataset δ] [Processing β δ] {settings : Settings} {layers more : List δ}

private theorem findLayer?_of_prefix {name : String} {layer : δ} (h : layers <+: more)
    (hfind : findLayer? layers name = some layer) : findLayer? more name = some layer :=
  h.find?_eq_some hfind

/-- **A layer keeps its meaning in a larger project.** What it was evaluated to, it is evaluated to
if there are more layers behind those of the project. -/
theorem evaluate_of_prefix {layer : Layer} {engine engine' : β} {resolved : Resolved δ}
    (h : layers <+: more)
    (hrun : evaluate settings layers layer engine = (.ok resolved, engine')) :
    evaluate settings more layer engine = (.ok resolved, engine') := by
  induction layer generalizing engine engine' resolved with
  | source name =>
    obtain ⟨layer, hfind, hresolved, hengine⟩ := evaluate_source_eq_ok_iff.mp hrun
    exact evaluate_source_eq_ok_iff.mpr ⟨layer, findLayer?_of_prefix h hfind, hresolved, hengine⟩
  | filtered layer field value ih =>
    obtain ⟨source, between, hsource, hdata⟩ := evaluate_filtered_eq_ok_iff.mp hrun
    exact evaluate_filtered_eq_ok_iff.mpr ⟨source, between, ih hsource, hdata⟩
  | buffered layer distance ih =>
    obtain ⟨source, between, hsource, hdata⟩ := evaluate_buffered_eq_ok_iff.mp hrun
    exact evaluate_buffered_eq_ok_iff.mpr ⟨source, between, ih hsource, hdata⟩
  | combined overlay a b iha ihb =>
    obtain ⟨primary, between, ha, secondary, between', hb, hdata⟩ :=
      evaluate_combined_eq_ok_iff.mp hrun
    exact evaluate_combined_eq_ok_iff.mpr
      ⟨primary, between, iha ha, secondary, between', ihb hb, hdata⟩

end Layers

namespace Memory.Workspace

variable {layers more : List FeatureCollection} {layerId : String}
  {keys selection : List AttributeValue}

private theorem newSelection_of_prefix (h : layers <+: more)
    (hselection : newSelection layers layerId keys = .ok selection) :
    newSelection more layerId keys = .ok selection := by
  cases hfind : layers.find? (·.id = layerId) with
  | none => simp [newSelection, hfind] at hselection
  | some layer =>
    rw [newSelection, hfind] at hselection
    rw [newSelection, h.find?_eq_some hfind]
    exact hselection

end Memory.Workspace

/-! ## One action -/

/-- **An action adds layers behind the others**, if it adds any. -/
theorem prefix_layers_conclude (verb : Verb) (resolved : Resolved FeatureCollection)
    (workspace : Workspace) : workspace.layers <+: (conclude verb resolved workspace).2.layers := by
  cases verb with
  | count => exact List.prefix_rfl
  | select =>
    rcases select_cases resolved workspace with
      ⟨error, after, h, hsame⟩ | ⟨keys, selection, -, -, h⟩
    · rw [conclude, h]
      exact hsame.layers_eq ▸ List.prefix_rfl
    · rw [conclude, h]
      exact List.prefix_rfl
  | addToMap =>
    rcases addToMap_cases resolved workspace with ⟨error, h⟩ | h
    · simp only [conclude, h, List.prefix_rfl]
    · rw [conclude, h]
      exact List.prefix_append _ _

private theorem prefix_layers_execute (settings : Settings) (action : Action)
    (host : Host Workspace Engine) :
    host.project.layers <+: (Host.execute settings action host).2.project.layers := by
  rcases h : evaluate settings host.project.layers action.layer host.engine
    with ⟨error | resolved, engine⟩
  · have hafter : Host.execute settings action host = (.error error, { host with engine }) :=
      Host.execute_of_error h
    simp only [hafter, List.prefix_rfl]
  · rw [Host.execute_of_ok h]
    exact prefix_layers_conclude action.verb resolved host.project

/-! ## The same data, the same sentence -/

section Sentences

variable {resolved other : Resolved FeatureCollection} {workspace later : Workspace}

private theorem keysToSelect_of_sameButId {keys : List AttributeValue}
    (h : resolved.SameButId other) (hkeys : keysToSelect resolved = .ok keys) :
    keysToSelect other = .ok keys := by
  rw [keysToSelect, h.origin_eq]
  rw [keysToSelect] at hkeys
  cases hfield : Dataset.keyField resolved.origin with
  | none => simp [hfield] at hkeys
  | some keyField =>
    simp only [hfield] at hkeys ⊢
    cases hvalues : Dataset.attributeValues resolved.data keyField with
    | error cause => simp [hvalues] at hkeys
    | ok values =>
      have hother : Dataset.attributeValues other.data keyField = .ok values :=
        h.data.attributeValues_eq_ok hvalues
      rw [hvalues] at hkeys
      rwa [hother]

theorem conclude_of_sameButId {verb : Verb} {sentence : String} (h : resolved.SameButId other)
    (hlayers : workspace.layers <+: later.layers) (hfailing : later.failing = none)
    (hconclude : (conclude verb resolved workspace).1 = .ok sentence) :
    (conclude verb other later).1 = .ok sentence := by
  cases verb with
  | count =>
    have hfeatures : other.data.features = resolved.data.features := h.data.features_eq
    change Except.ok (countSentence other.data.features.length) = .ok sentence
    rw [hfeatures]
    exact hconclude
  | select =>
    rcases select_cases resolved workspace with
      ⟨error, after, hselect, -⟩ | ⟨keys, selection, hkeys, hselection, hselect⟩
    · rw [conclude, hselect] at hconclude
      cases hconclude
    · rw [conclude, hselect] at hconclude
      have hlater : newSelection later.layers other.origin.id keys = .ok selection := by
        rw [h.origin_eq]
        exact newSelection_of_prefix hlayers hselection
      have hservice : later.failing ≠ some .selectByKeys := by
        rw [hfailing]
        exact (Option.some_ne_none _).symm
      rw [conclude, select_of_ok (keysToSelect_of_sameButId h hkeys)
        (selectByKeys_of_ok hservice hlater)]
      exact hconclude
  | addToMap =>
    have hservice : later.failing ≠ some .addLayer := by
      rw [hfailing]
      exact (Option.some_ne_none _).symm
    rw [conclude, addToMap_of_ne hservice]
    rcases addToMap_cases resolved workspace with ⟨error, hadd⟩ | hadd
    · rw [conclude, hadd] at hconclude
      cases hconclude
    · rwa [conclude, hadd] at hconclude

end Sentences

/-! ## A run of actions -/

/-- What a host can become while actions are carried out on it, one after the other, each with
settings of its own and whether it goes through or fails. In between, the engine may get into any
state, and the project may be told to fail at any operation. -/
inductive Host.Reaches (host : Host Workspace Engine) : Host Workspace Engine → Prop where
  | refl : host.Reaches host
  | execute {current : Host Workspace Engine} (h : host.Reaches current) (settings : Settings)
    (action : Action) : host.Reaches (Host.execute settings action current).2
  | refit {current : Host Workspace Engine} (h : host.Reaches current) (engine : Engine)
    (failing : Option Operation) : host.Reaches ⟨{ current.project with failing }, engine⟩

/-- **A run of actions adds layers behind the others.** -/
theorem Host.Reaches.prefix_layers {host later : Host Workspace Engine} (h : host.Reaches later) :
    host.project.layers <+: later.project.layers := by
  induction h with
  | refl => exact List.prefix_rfl
  | execute _ settings action ih => exact ih.trans (prefix_layers_execute settings action _)
  | refit _ engine failing ih => exact ih

/-- **Answers stay true.** Let a layer be evaluated on a plain engine. After any actions it is
evaluated on every plain engine to the same origin and to data that differ in their id at most. An
action on the layer that went through has the same sentence then, unless the project is told to
fail. -/
theorem Host.evaluate_of_reaches {settings : Settings} {layer : Layer}
    {host later : Host Workspace Engine} {resolved : Resolved FeatureCollection}
    (hengine : host.engine.IsPlain) (hlater : later.engine.IsPlain) (hreaches : host.Reaches later)
    (h : (Host.evaluate settings layer host).1 = .ok resolved) :
    (∃ other, (Host.evaluate settings layer later).1 = .ok other ∧
      other.origin = resolved.origin ∧ ∃ id, other.data = { resolved.data with id }) ∧
    (later.project.failing = none → ∀ verb sentence,
      (Host.execute settings ⟨verb, layer⟩ host).1 = .ok sentence →
        (Host.execute settings ⟨verb, layer⟩ later).1 = .ok sentence) := by
  have hlayers := hreaches.prefix_layers
  have hrun : MapQuery.evaluate settings host.project.layers layer host.engine
      = (.ok resolved, (MapQuery.evaluate settings host.project.layers layer host.engine).2) :=
    Prod.ext h rfl
  have hmore := evaluate_of_prefix hlayers hrun
  obtain ⟨other, hother, hsame⟩ :=
    exists_evaluate_of_isPlain hengine hlater (congrArg Prod.fst hmore)
  refine ⟨⟨other, hother, hsame.origin_eq, hsame.data⟩, fun hfailing verb sentence hexecute ↦ ?_⟩
  have hlast : MapQuery.evaluate settings later.project.layers layer later.engine
      = (.ok other, (MapQuery.evaluate settings later.project.layers layer later.engine).2) :=
    Prod.ext hother rfl
  rw [Host.execute_of_ok hrun] at hexecute
  rw [Host.execute_of_ok hlast]
  exact conclude_of_sameButId hsame hlayers hfailing hexecute

/-- The residential buildings are still two when they have been added as a layer, which is called
`output`, and when the attempt to select them there has failed. -/
theorem Host.evaluate_of_reaches_output :
    let layer : Layer := .filtered (.source "Buildings") "type" (.text "res")
    let host : Host Workspace Engine := ⟨Town.workspace, .new⟩
    let added := Host.execute .default ⟨.addToMap, layer⟩ host
    let failed := Host.execute .default ⟨.select, .source "output"⟩ added.2
    let later := failed.2
    host.engine.IsPlain ∧ later.engine.IsPlain ∧ host.Reaches later ∧
      added.1 = .ok addedSentence ∧ failed.1 = .error (.noKeyField "output") ∧
      ∃ resolved, (Host.evaluate .default layer host).1 = .ok resolved ∧
        (∃ other, (Host.evaluate .default layer later).1 = .ok other ∧
          other.origin = resolved.origin ∧ ∃ id, other.data = { resolved.data with id }) ∧
        (Host.execute .default ⟨.count, layer⟩ later).1 = .ok "There are 2 matching features" := by
  intro layer host added failed later
  have hengine : host.engine.IsPlain := ⟨rfl, rfl⟩
  have hlater : later.engine.IsPlain := ⟨by decide +kernel, by decide +kernel⟩
  have hreaches : host.Reaches later :=
    (Reaches.refl.execute .default ⟨.addToMap, layer⟩).execute .default ⟨.select, .source "output"⟩
  have hcount : (Host.execute .default ⟨.count, layer⟩ host).1
      = .ok "There are 2 matching features" := by decide +kernel
  obtain ⟨resolved, hrun, -⟩ := Host.execute_eq_ok_iff.mp (Prod.ext hcount rfl)
  have hresolved : (Host.evaluate .default layer host).1 = .ok resolved := congrArg Prod.fst hrun
  obtain ⟨hother, hsentence⟩ := Host.evaluate_of_reaches hengine hlater hreaches hresolved
  exact ⟨hengine, hlater, hreaches, by decide +kernel, by decide +kernel, resolved, hresolved,
    hother, hsentence (by decide +kernel) .count _ hcount⟩

end MapQuery
