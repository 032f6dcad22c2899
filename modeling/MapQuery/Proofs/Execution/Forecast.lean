import Mathlib.Data.List.TakeWhile
import MapQuery.Memory.Town
import MapQuery.Proofs.Execution.Inheritance

/-!
# The outcome of an evaluation, told in advance

On an engine that refuses nothing, an evaluation walks through the nodes of the layer in postorder,
and the tree and the project tell what happens at each of them. A leaf fails if no project layer
goes by its name, and a filter fails if its field is none of those of the project layer below it.
Every other node goes through and makes requests that are known beforehand. So the evaluation fails
at the first node with a fault, and has made the requests of the nodes in front of it
(`walksThrough_evaluate`, `Host.evaluate_outcome`).
-/

namespace MapQuery

open Memory

/-! ## What happens at a node -/

namespace Layer

/-- The nodes of a layer, each behind those of its operands. -/
def nodes : Layer → List Layer
  | source name => [source name]
  | filtered layer field value => layer.nodes ++ [filtered layer field value]
  | buffered layer distance => layer.nodes ++ [buffered layer distance]
  | combined overlay a b => a.nodes ++ (b.nodes ++ [combined overlay a b])

variable (settings : Settings) (layers : List FeatureCollection)

/-- The field that a name stands for in the project layer at the primary leaf. -/
def field? (layer : Layer) (name : String) : Option Field :=
  (layer.base? layers).bind fun base ↦ findField? base.fields name

/-- What is wrong with the root of a layer. -/
def fault? : Layer → Option ExecutionError
  | source name => if (findLayer? layers name).isNone then some (.unknownLayer name) else none
  | filtered layer field _ =>
    if (layer.field? layers field).isNone then some (.unknownField field) else none
  | buffered _ _ => none
  | combined _ _ _ => none

/-- What the engine is asked for at the root of a layer, if nothing is wrong with the layer. -/
def rootRequests : Layer → List Request
  | source _ => []
  | filtered layer field value =>
    match layer.field? layers field with
    | none => []
    | some native =>
      [.extractByAttribute native.name (.forField native.type.isInteger value)]
  | buffered layer distance =>
    match layer.base? layers with
    | none => []
    | some base =>
      if base.crs.isMetric then [.buffer (settings.bufferParameters distance)]
      else
        [.reproject settings.metricSystem, .buffer (settings.bufferParameters distance),
          .reproject base.crs]
  | combined .union _ _ => [.union]
  | combined .difference _ _ => [.difference]
  | combined .intersection a b =>
    [.dissolve true,
      if a.kind? layers = some .polygon ∧ b.kind? layers = some .line then
        .extractByLocation .intersects
      else .intersection]

/-- The first fault of nodes that are walked through. -/
def firstFault? (nodes : List Layer) : Option ExecutionError := nodes.findSome? (·.fault? layers)

/-- What the engine is asked for until a node has a fault. -/
def requestsUntilFault (nodes : List Layer) : List Request :=
  (nodes.takeWhile fun node ↦ (node.fault? layers).isNone).flatMap (·.rootRequests settings layers)

/-! ## Walking through nodes -/

variable {settings layers}

private theorem firstFault?_append (before after : List Layer) :
    firstFault? layers (before ++ after)
      = (firstFault? layers before).or (firstFault? layers after) :=
  List.findSome?_append

theorem requestsUntilFault_cons (node : Layer) (rest : List Layer) :
    requestsUntilFault settings layers (node :: rest)
      = if node.fault? layers = none then
          node.rootRequests settings layers ++ requestsUntilFault settings layers rest
        else [] := by
  cases hfault : node.fault? layers <;> simp [requestsUntilFault, hfault]

private theorem requestsUntilFault_append (before after : List Layer) :
    requestsUntilFault settings layers (before ++ after)
      = if firstFault? layers before = none then
          requestsUntilFault settings layers before ++ requestsUntilFault settings layers after
        else requestsUntilFault settings layers before := by
  induction before with
  | nil => rfl
  | cons node before ih =>
    rw [List.cons_append, requestsUntilFault_cons, requestsUntilFault_cons, ih]
    cases hfault : node.fault? layers with
    | none =>
      have hfirst : firstFault? layers (node :: before) = firstFault? layers before := by
        rw [firstFault?, List.findSome?_cons, hfault]
        rfl
      rw [hfirst, if_pos rfl, if_pos rfl, apply_ite (node.rootRequests settings layers ++ ·),
        List.append_assoc]
    | some error => simp [firstFault?, hfault]

private theorem firstFault?_eq_none_iff (nodes : List Layer) :
    firstFault? layers nodes = none ↔ ∀ node ∈ nodes, node.fault? layers = none :=
  List.findSome?_eq_none_iff

private theorem requestsUntilFault_of_firstFault?_eq_none {nodes : List Layer}
    (h : firstFault? layers nodes = none) :
    requestsUntilFault settings layers nodes
      = nodes.flatMap (·.rootRequests settings layers) := by
  rw [requestsUntilFault, List.takeWhile_eq_self_iff.mpr]
  intro node hnode
  rw [(firstFault?_eq_none_iff nodes).mp h node hnode]
  rfl

theorem requestsUntilFault_singleton {node : Layer} (h : node.fault? layers = none) :
    requestsUntilFault settings layers [node] = node.rootRequests settings layers := by
  rw [requestsUntilFault_cons, if_pos h]
  exact List.append_nil _

private theorem firstFault?_singleton (node : Layer) :
    firstFault? layers [node] = node.fault? layers := by
  rw [firstFault?, List.findSome?_cons, List.findSome?_nil]
  cases node.fault? layers <;> rfl

end Layer

/-! ## Computations that walk through nodes -/

/-- On an engine that refuses nothing, the computation makes the requests of the nodes up to the
first one with a fault, and fails with that fault if there is one. -/
def WalksThrough {α : Type} (settings : Settings) (layers : List FeatureCollection)
    (nodes : List Layer) (x : Execution Engine α) : Prop :=
  Engine.Follows x (Layer.requestsUntilFault settings layers nodes)
    (Layer.firstFault? layers nodes)

section WalksThrough

variable {α β : Type} {settings : Settings} {layers : List FeatureCollection}
  {before after : List Layer} {x : Execution Engine α}

theorem WalksThrough.bind {f : α → Execution Engine β}
    (hx : WalksThrough settings layers before x)
    (hf : ∀ engine a engine', x engine = (.ok a, engine') →
      WalksThrough settings layers after (f a)) :
    WalksThrough settings layers (before ++ after) (x >>= f) := by
  rw [WalksThrough, Layer.requestsUntilFault_append, Layer.firstFault?_append]
  exact Engine.Follows.bind hx hf

private theorem walksThrough_pure (a : α) :
    WalksThrough settings layers [] (pure a : Execution Engine α) :=
  Engine.follows_pure a

theorem WalksThrough.map {g : α → β} (hx : WalksThrough settings layers before x) :
    WalksThrough settings layers before (x >>= fun a ↦ pure (g a)) := by
  have h := hx.bind fun _ a _ _ ↦ walksThrough_pure (g a)
  rwa [List.append_nil] at h

theorem walksThrough_singleton {node : Layer} (hfault : node.fault? layers = none)
    (h : Engine.Follows x (node.rootRequests settings layers) none) :
    WalksThrough settings layers [node] x := by
  rw [WalksThrough, Layer.requestsUntilFault_singleton hfault, Layer.firstFault?_singleton, hfault]
  exact h

theorem walksThrough_of_fault {node : Layer} {error : ExecutionError}
    (hfault : node.fault? layers = some error) :
    WalksThrough settings layers [node] (throw error : Execution Engine α) := by
  have hrequests : Layer.requestsUntilFault settings layers [node] = [] := by
    rw [Layer.requestsUntilFault_cons, if_neg (by rw [hfault]; exact nofun)]
  rw [WalksThrough, hrequests, Layer.firstFault?_singleton, hfault]
  exact Engine.follows_throw error

end WalksThrough

/-! ## The walk of an evaluation -/

section Evaluation

variable {settings : Settings} {layers : List FeatureCollection}

private theorem walksThrough_filterData {layer : Layer} {source : Resolved FeatureCollection}
    (h : layer.Foretells layers source) (field : String) (value : Literal) :
    WalksThrough settings layers [.filtered layer field value]
      (filterData source.data field value) := by
  have hfield : layer.field? layers field = findField? source.data.fields field := by
    rw [Layer.field?, h.base_eq, h.fields_eq]
    rfl
  cases hnative : findField? source.data.fields field with
  | none =>
    rw [filterData_of_none hnative]
    refine walksThrough_of_fault ?_
    rw [Layer.fault?, hfield, hnative]
    rfl
  | some native =>
    rw [filterData_of_some hnative]
    refine walksThrough_singleton ?_ ?_
    · rw [Layer.fault?, hfield, hnative]
      rfl
    · rw [Layer.rootRequests, hfield, hnative]
      exact Engine.follows_ask _ _

private theorem walksThrough_bufferData {layer : Layer} {source : Resolved FeatureCollection}
    (h : layer.Foretells layers source) (distance : Float) :
    WalksThrough settings layers [.buffered layer distance]
      (bufferData settings source.data distance) := by
  refine walksThrough_singleton rfl ?_
  simp only [Layer.rootRequests, h.base_eq, ← h.crs_eq]
  cases hmetric : source.data.crs.isMetric with
  | true =>
    rw [bufferData_of_metric hmetric, if_pos rfl]
    exact Engine.follows_ask _ _
  | false =>
    rw [bufferData_of_not_metric hmetric, if_neg Bool.false_ne_true]
    exact (Engine.follows_ask _ _).andThen fun _ ↦
      (Engine.follows_ask _ _).andThen fun _ ↦ Engine.follows_ask _ _

private theorem walksThrough_combineData {a b : Layer}
    {primary secondary : Resolved FeatureCollection} (ha : a.Foretells layers primary)
    (hb : b.Foretells layers secondary) (overlay : Overlay) :
    WalksThrough settings layers [.combined overlay a b]
      (combineData overlay primary.data secondary.data) := by
  refine walksThrough_singleton rfl ?_
  cases overlay with
  | union => exact Engine.follows_ask _ _
  | difference => exact Engine.follows_ask _ _
  | intersection =>
    simp only [Layer.rootRequests, ha.kind_eq, hb.kind_eq, Option.some.injEq]
    refine (Engine.follows_ask (.dissolve true) (secondary.data.dissolve · true)).andThen
      fun merged ↦ ?_
    change Engine.Follows (if primary.data.kind = .polygon ∧ secondary.data.kind = .line then
      Engine.ask (.extractByLocation .intersects) (primary.data.extractByLocation merged)
      else Engine.ask .intersection (primary.data.intersection merged)) _ _
    split
    · exact Engine.follows_ask _ _
    · exact Engine.follows_ask _ _

/-- **An evaluation walks through the nodes of its layer.** -/
theorem walksThrough_evaluate (settings : Settings) (layers : List FeatureCollection)
    (layer : Layer) :
    WalksThrough settings layers layer.nodes
      (evaluate settings layers layer : Execution Engine (Resolved FeatureCollection)) := by
  induction layer with
  | source name =>
    rw [evaluate, Layer.nodes]
    cases hfind : findLayer? layers name with
    | none =>
      refine walksThrough_of_fault ?_
      rw [Layer.fault?, hfind]
      rfl
    | some layer =>
      refine walksThrough_singleton ?_ (Engine.follows_pure _)
      rw [Layer.fault?, hfind]
      rfl
  | filtered layer field value ih =>
    rw [evaluate, Layer.nodes]
    exact ih.bind fun _ source _ hsource ↦
      (walksThrough_filterData (foretells_of_evaluate hsource) field value).map
  | buffered layer distance ih =>
    rw [evaluate, Layer.nodes]
    exact ih.bind fun _ source _ hsource ↦
      (walksThrough_bufferData (foretells_of_evaluate hsource) distance).map
  | combined overlay a b iha ihb =>
    rw [evaluate, Layer.nodes]
    exact iha.bind fun _ primary _ hprimary ↦ ihb.bind fun _ secondary _ hsecondary ↦
      (walksThrough_combineData (foretells_of_evaluate hprimary)
        (foretells_of_evaluate hsecondary) overlay).map

end Evaluation

/-! ## The outcome on a host -/

/-- Nodes have no fault exactly if each name of a layer stands for a project layer and each name of
a field for one of the fields of the project layer below. -/
theorem Layer.firstFault?_eq_none_iff_resolves {layers : List FeatureCollection}
    (nodes : List Layer) :
    firstFault? layers nodes = none ↔
      (∀ name, source name ∈ nodes → ∃ found, findLayer? layers name = some found) ∧
      ∀ layer field value, filtered layer field value ∈ nodes →
        ∃ base native, layer.base? layers = some base ∧
          findField? base.fields field = some native := by
  rw [firstFault?_eq_none_iff]
  constructor
  · intro h
    refine ⟨fun name hmem ↦ ?_, fun layer field value hmem ↦ ?_⟩
    · have hfault := h _ hmem
      cases hfind : findLayer? layers name with
      | none => simp [fault?, hfind] at hfault
      | some found => exact ⟨found, rfl⟩
    · have hfault := h _ hmem
      cases hnative : layer.field? layers field with
      | none => simp [fault?, hnative] at hfault
      | some native =>
        obtain ⟨base, hbase, hfield⟩ := Option.bind_eq_some_iff.mp hnative
        exact ⟨base, native, hbase, hfield⟩
  · rintro ⟨hlayers, hfields⟩ node hmem
    cases node with
    | source name =>
      obtain ⟨found, hfind⟩ := hlayers name hmem
      simp [fault?, hfind]
    | filtered layer field value =>
      obtain ⟨base, native, hbase, hfield⟩ := hfields layer field value hmem
      simp [fault?, field?, hbase, hfield]
    | buffered layer distance => rfl
    | combined overlay a b => rfl

/-- **The outcome of an evaluation is known in advance.** On an engine that refuses nothing, a layer
is evaluated exactly if all its names resolve, and otherwise the evaluation fails with the fault of
the first node in postorder that has one. The engine gets the requests of the nodes in postorder, up
to that node. What is evaluated has the origin, the fields, the coordinate reference system and the
kind of geometry that the tree tells. -/
theorem Host.evaluate_outcome (settings : Settings) (layer : Layer) (host : Host Workspace Engine)
    (hfailing : host.engine.failing = none) :
    let layers := host.project.layers
    let outcome := Host.evaluate settings layer host
    ((∃ resolved, outcome.1 = .ok resolved) ↔
      (∀ name, .source name ∈ layer.nodes → ∃ found, findLayer? layers name = some found) ∧
      ∀ below field value, .filtered below field value ∈ layer.nodes →
        ∃ base native, below.base? layers = some base ∧
          findField? base.fields field = some native) ∧
    (∀ error, outcome.1 = .error error ↔ Layer.firstFault? layers layer.nodes = some error) ∧
    outcome.2.engine.requests
      = host.engine.requests ++ Layer.requestsUntilFault settings layers layer.nodes ∧
    ∀ resolved, outcome.1 = .ok resolved → layer.Foretells layers resolved ∧
      outcome.2.engine.requests
        = host.engine.requests ++ layer.nodes.flatMap (·.rootRequests settings layers) := by
  have hwalk := walksThrough_evaluate settings host.project.layers layer
  obtain ⟨-, hrequests, herror⟩ := hwalk _ hfailing
  have hok := Engine.Follows.exists_ok_iff hwalk hfailing
  rcases hrun : MapQuery.evaluate settings host.project.layers layer host.engine
    with ⟨result, engine⟩
  rw [hrun] at hrequests herror hok
  rw [Host.evaluate_of_eq hrun]
  refine ⟨hok.trans (Layer.firstFault?_eq_none_iff_resolves _), herror, hrequests, ?_⟩
  rintro resolved rfl
  refine ⟨foretells_of_evaluate hrun, ?_⟩
  rwa [Layer.requestsUntilFault_of_firstFault?_eq_none (hok.mp ⟨resolved, rfl⟩)] at hrequests

/-- The buildings that lie within 500 metres of a park, which is stored in degrees. -/
theorem Host.evaluate_near_park :
    let layer : Layer := .combined .intersection (.source "buildings")
      (.buffered (.filtered (.source "GREEN") "Name" (.text "Central")) 500)
    let host : Host Workspace Engine := ⟨Town.workspace, .new⟩
    host.engine.failing = none ∧
      (∃ resolved, (Host.evaluate .default layer host).1 = .ok resolved) ∧
      (Host.evaluate .default layer host).2.engine.requests
        = [.extractByAttribute "name" (.text "Central"), .reproject Town.metric,
          .buffer (Settings.default.bufferParameters 500), .reproject Town.geographic,
          .dissolve true, .intersection] := by
  intro layer host
  obtain ⟨hok, -, hrequests, -⟩ := Host.evaluate_outcome .default layer host rfl
  have hfault : Layer.firstFault? host.project.layers layer.nodes = none := by decide +kernel
  refine ⟨rfl, ?_, ?_⟩
  · exact hok.mpr ((Layer.firstFault?_eq_none_iff_resolves _).mp hfault)
  · rw [hrequests]
    decide +kernel

end MapQuery
