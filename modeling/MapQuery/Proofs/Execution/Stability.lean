import MapQuery.Proofs.Execution.Steps

/-!
# What the history of the engine does not change

An engine counts its outputs and names them by their numbers, so what it did before shows in the ids
of its outputs. It shows nowhere else: no request depends on the id of a dataset. On two engines
that refuse nothing and give no new numbers, a layer is evaluated to data that differ in their ids
at most, or fails with the same error (`alike_evaluate`).

The proof compares two computations side by side. Computations that are put together of pieces which
are alike are alike (`Engine.Alike.bind`), so only the single requests have to be compared.
-/

namespace MapQuery

namespace Memory

namespace FeatureCollection

/-- The other dataset differs in its id at most. -/
def SameButId (data other : FeatureCollection) : Prop := ∃ id, other = { data with id }

namespace SameButId

variable {data data' overlay overlay' : FeatureCollection}

theorem fields_eq (h : data.SameButId data') : data'.fields = data.fields := by
  obtain ⟨_, rfl⟩ := h
  rfl

theorem kind_eq (h : data.SameButId data') : data'.kind = data.kind := by
  obtain ⟨_, rfl⟩ := h
  rfl

theorem crs_eq (h : data.SameButId data') : data'.crs = data.crs := by
  obtain ⟨_, rfl⟩ := h
  rfl

theorem features_eq (h : data.SameButId data') : data'.features = data.features := by
  obtain ⟨_, rfl⟩ := h
  rfl

theorem attributeValues_eq_ok {field : String} {values : List AttributeValue}
    (h : data.SameButId data') (hvalues : data.attributeValues field = .ok values) :
    data'.attributeValues field = .ok values := by
  obtain ⟨_, rfl⟩ := h
  rw [attributeValues] at hvalues ⊢
  split at hvalues
  next hfield =>
    rw [if_pos hfield]
    exact hvalues
  next => cases hvalues

section Operations

variable (id id' : String)

theorem extractByAttribute (h : data.SameButId data') (field : String) (wanted : FilterValue) :
    (data.extractByAttribute id field wanted).SameButId
      (data'.extractByAttribute id' field wanted) := by
  obtain ⟨_, rfl⟩ := h
  exact ⟨id', rfl⟩

theorem buffer (h : data.SameButId data') (distance : Float) :
    (data.buffer id distance).SameButId (data'.buffer id' distance) := by
  obtain ⟨_, rfl⟩ := h
  exact ⟨id', rfl⟩

theorem reproject (h : data.SameButId data') (target : Crs) :
    (data.reproject id target).SameButId (data'.reproject id' target) := by
  obtain ⟨_, rfl⟩ := h
  exact ⟨id', rfl⟩

theorem dissolve (h : data.SameButId data') (separately : Bool) :
    (data.dissolve id separately).SameButId (data'.dissolve id' separately) := by
  obtain ⟨_, rfl⟩ := h
  exact ⟨id', rfl⟩

theorem union (h : data.SameButId data') (hoverlay : overlay.SameButId overlay') :
    (data.union overlay id).SameButId (data'.union overlay' id') := by
  obtain ⟨_, rfl⟩ := h
  obtain ⟨_, rfl⟩ := hoverlay
  exact ⟨id', rfl⟩

theorem difference (h : data.SameButId data') (hoverlay : overlay.SameButId overlay') :
    (data.difference overlay id).SameButId (data'.difference overlay' id') := by
  obtain ⟨_, rfl⟩ := h
  obtain ⟨_, rfl⟩ := hoverlay
  exact ⟨id', rfl⟩

theorem intersection (h : data.SameButId data') (hoverlay : overlay.SameButId overlay') :
    (data.intersection overlay id).SameButId (data'.intersection overlay' id') := by
  obtain ⟨_, rfl⟩ := h
  obtain ⟨_, rfl⟩ := hoverlay
  exact ⟨id', rfl⟩

theorem extractByLocation (h : data.SameButId data') (hoverlay : overlay.SameButId overlay') :
    (data.extractByLocation overlay id).SameButId (data'.extractByLocation overlay' id') := by
  obtain ⟨_, rfl⟩ := h
  obtain ⟨_, rfl⟩ := hoverlay
  exact ⟨id', rfl⟩

end Operations

end SameButId

end FeatureCollection

namespace Engine

/-- The engine refuses nothing and gives no new numbers. -/
structure IsPlain (engine : Engine) : Prop where
  failing_eq : engine.failing = none
  renumbers_eq : engine.renumbers = false

theorem IsPlain.of_keepsMode {α : Type} {x : Execution Engine α} {engine engine' : Engine}
    {result : Except ExecutionError α} (hengine : engine.IsPlain) (hx : KeepsMode x)
    (h : x engine = (result, engine')) : engine'.IsPlain where
  failing_eq := (hx.failing_eq h).trans hengine.failing_eq
  renumbers_eq := (hx.renumbers_eq h).trans hengine.renumbers_eq

/-! ## Computations side by side -/

section Alike

variable {α β γ δ : Type} {R : α → β → Prop} {S : γ → δ → Prop}

/-- Both fail with the same error, or both give a result and the results are related. -/
inductive Agree (R : α → β → Prop) :
    Except ExecutionError α → Except ExecutionError β → Prop where
  | error (e : ExecutionError) : Agree R (.error e) (.error e)
  | ok {a : α} {b : β} (h : R a b) : Agree R (.ok a) (.ok b)

/-- On any two plain engines the computations agree, and they leave the engines plain. -/
def Alike (R : α → β → Prop) (x : Execution Engine α) (y : Execution Engine β) : Prop :=
  ∀ first second : Engine, first.IsPlain → second.IsPlain →
    (x first).2.IsPlain ∧ (y second).2.IsPlain ∧ Agree R (x first).1 (y second).1

variable {x : Execution Engine α} {y : Execution Engine β} {f : α → Execution Engine γ}
  {g : β → Execution Engine δ}

theorem alike_pure {a : α} {b : β} (h : R a b) : Alike R (pure a) (pure b) :=
  fun _ _ hfirst hsecond ↦ ⟨hfirst, hsecond, .ok h⟩

private theorem alike_throw (e : ExecutionError) : Alike R (throw e) (throw e) :=
  fun _ _ hfirst hsecond ↦ ⟨hfirst, hsecond, .error e⟩

theorem Alike.bind (hx : Alike R x y) (hf : ∀ a b, R a b → Alike S (f a) (g b)) :
    Alike S (x >>= f) (y >>= g) := by
  intro first second hfirst hsecond
  obtain ⟨hfirst', hsecond', hagree⟩ := hx first second hfirst hsecond
  rcases h : x first with ⟨result, first'⟩
  rcases h' : y second with ⟨result', second'⟩
  rw [h] at hfirst' hagree
  rw [h'] at hsecond' hagree
  cases hagree with
  | error e =>
    rw [bind_apply_of_error h, bind_apply_of_error h']
    exact ⟨hfirst', hsecond', .error e⟩
  | ok hab =>
    rw [bind_apply_of_ok h, bind_apply_of_ok h']
    exact hf _ _ hab first' second' hfirst' hsecond'

/-- **One request.** Plain engines hand over what is made for the request, under their own ids. -/
theorem alike_ask (request : Request) {make make' : String → FeatureCollection}
    (h : ∀ id id', (make id).SameButId (make' id')) :
    Alike FeatureCollection.SameButId (ask request make) (ask request make') := by
  intro first second hfirst hsecond
  rw [ask_of_accepted (by simp [hfirst.failing_eq]), ask_of_accepted (by simp [hsecond.failing_eq])]
  refine ⟨⟨hfirst.failing_eq, hfirst.renumbers_eq⟩, ⟨hsecond.failing_eq, hsecond.renumbers_eq⟩,
    .ok ?_⟩
  rw [handedOver_of_renumbers_eq_false hfirst.renumbers_eq,
    handedOver_of_renumbers_eq_false hsecond.renumbers_eq]
  exact h first.nextId second.nextId

end Alike

end Engine

end Memory

open Memory Engine

/-! ## One node -/

section Steps

variable {settings : Settings}
  {data data' primary primary' secondary secondary' : FeatureCollection}

private theorem alike_filterData (h : data.SameButId data') (name : String) (literal : Literal) :
    Alike FeatureCollection.SameButId (filterData data name literal)
      (filterData data' name literal) := by
  cases hfield : findField? data.fields name with
  | none =>
    rw [filterData_of_none hfield, filterData_of_none (h.fields_eq ▸ hfield)]
    exact alike_throw _
  | some field =>
    rw [filterData_of_some hfield, filterData_of_some (h.fields_eq ▸ hfield)]
    exact alike_ask _ fun id id' ↦ h.extractByAttribute id id' _ _

private theorem alike_bufferData (h : data.SameButId data') (distance : Float) :
    Alike FeatureCollection.SameButId (bufferData settings data distance)
      (bufferData settings data' distance) := by
  cases hmetric : data.crs.isMetric with
  | true =>
    rw [bufferData_of_metric hmetric, bufferData_of_metric (h.crs_eq ▸ hmetric)]
    exact alike_ask _ fun id id' ↦ h.buffer id id' _
  | false =>
    rw [bufferData_of_not_metric hmetric, bufferData_of_not_metric (h.crs_eq ▸ hmetric), h.crs_eq]
    refine (alike_ask _ fun id id' ↦ h.reproject id id' _).bind fun _ _ hprojected ↦ ?_
    refine (alike_ask _ fun id id' ↦ hprojected.buffer id id' _).bind fun _ _ hbuffered ↦ ?_
    exact alike_ask _ fun id id' ↦ hbuffered.reproject id id' _

private theorem alike_intersectData (hprimary : primary.SameButId primary')
    (hsecondary : secondary.SameButId secondary') :
    Alike FeatureCollection.SameButId (intersectData primary secondary)
      (intersectData primary' secondary') := by
  rw [intersectData_eq, intersectData_eq, hprimary.kind_eq, hsecondary.kind_eq]
  refine (alike_ask _ fun id id' ↦ hsecondary.dissolve id id' true).bind
    fun merged merged' hmerged ↦ ?_
  split
  · exact alike_ask _ fun id id' ↦ hprimary.extractByLocation id id' hmerged
  · exact alike_ask _ fun id id' ↦ hprimary.intersection id id' hmerged

private theorem alike_combineData (overlay : Overlay) (hprimary : primary.SameButId primary')
    (hsecondary : secondary.SameButId secondary') :
    Alike FeatureCollection.SameButId (combineData overlay primary secondary)
      (combineData overlay primary' secondary') := by
  cases overlay with
  | intersection => exact alike_intersectData hprimary hsecondary
  | union => exact alike_ask .union fun id id' ↦ hprimary.union id id' hsecondary
  | difference => exact alike_ask .difference fun id id' ↦ hprimary.difference id id' hsecondary

end Steps

/-! ## A whole evaluation -/

/-- Both come from one project layer, and the data differ in their ids at most. -/
structure Resolved.SameButId (resolved other : Resolved FeatureCollection) : Prop where
  origin_eq : other.origin = resolved.origin
  data : resolved.data.SameButId other.data

/-- **The history of the engine does not matter.** On plain engines a layer is evaluated to the same
data up to their ids, or fails with the same error. -/
theorem alike_evaluate (settings : Settings) (layers : List FeatureCollection) (layer : Layer) :
    Alike Resolved.SameButId (evaluate settings layers layer)
      (evaluate settings layers layer) := by
  induction layer with
  | source name =>
    rw [evaluate]
    cases findLayer? layers name with
    | none => exact alike_throw _
    | some layer => exact alike_pure ⟨rfl, layer.id, rfl⟩
  | filtered layer field value ih =>
    rw [evaluate]
    exact ih.bind fun _ _ hsource ↦ (alike_filterData hsource.data _ _).bind fun _ _ hdata ↦
      alike_pure ⟨hsource.origin_eq, hdata⟩
  | buffered layer distance ih =>
    rw [evaluate]
    exact ih.bind fun _ _ hsource ↦ (alike_bufferData hsource.data _).bind fun _ _ hdata ↦
      alike_pure ⟨hsource.origin_eq, hdata⟩
  | combined overlay a b iha ihb =>
    rw [evaluate]
    exact iha.bind fun _ _ hprimary ↦ ihb.bind fun _ _ hsecondary ↦
      (alike_combineData overlay hprimary.data hsecondary.data).bind fun _ _ hdata ↦
        alike_pure ⟨hprimary.origin_eq, hdata⟩

theorem exists_evaluate_of_isPlain {settings : Settings} {layers : List FeatureCollection}
    {layer : Layer} {engine engine' : Engine} {resolved : Resolved FeatureCollection}
    (hengine : engine.IsPlain) (hengine' : engine'.IsPlain)
    (h : (evaluate settings layers layer engine).1 = .ok resolved) :
    ∃ other, (evaluate settings layers layer engine').1 = .ok other ∧
      resolved.SameButId other := by
  obtain ⟨-, -, hagree⟩ := alike_evaluate settings layers layer engine engine' hengine hengine'
  rw [h] at hagree
  generalize (evaluate settings layers layer engine').1 = result at hagree
  cases hagree with
  | ok hsame => exact ⟨_, rfl, hsame⟩

end MapQuery
