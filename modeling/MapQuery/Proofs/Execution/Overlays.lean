import MapQuery.Memory.Town
import MapQuery.Proofs.Execution.Steps
import MapQuery.Proofs.Memory.Parts

/-!
# What intersections are given as overlay

The secondary operand of an intersection is dissolved before it is used, and only the dissolved
dataset reaches the operation that puts the two operands together. That dataset is a value between
two requests and shows in no result. So evaluations run here on an engine that is *watched*, which
keeps the overlays and otherwise does what it would do anyway. Watching changes nothing, whatever
the engine is (`evaluate_watched`).

On the engine in memory the overlay has the parts that the envelopes of the secondary operand merge
to. So no two of its features meet, and there are at most as many as the operand has
(`evaluate_intersection_overlay`).
-/

namespace MapQuery

open Memory

/-! ## Watched engines -/

/-- An engine, and the overlays that it was given for intersections and extractions by location, in
their order. -/
structure Watched (β δ : Type) where
  engine : β
  overlays : List δ

namespace Watched

section Calls

variable {β δ ε α γ : Type}

/-- The engine carries the call out. -/
def pass (call : HostCall β α) : HostCall (Watched β δ) α := fun watched ↦
  let (result, engine) := call watched.engine
  (result, { watched with engine })

/-- The overlay is kept, and the engine carries the call out. -/
def keep (overlay : δ) (call : HostCall β α) : HostCall (Watched β δ) α := fun watched ↦
  let (result, engine) := call watched.engine
  (result, ⟨engine, watched.overlays ++ [overlay]⟩)

instance [Processing β δ] : Processing (Watched β δ) δ where
  extractByAttribute input field value := pass (Processing.extractByAttribute input field value)
  buffer input parameters := pass (Processing.buffer input parameters)
  reproject input target := pass (Processing.reproject input target)
  union input overlay parameters := pass (Processing.union input overlay parameters)
  difference input overlay := pass (Processing.difference input overlay)
  dissolve input separately := pass (Processing.dissolve input separately)
  intersection input overlay parameters :=
    keep overlay (Processing.intersection input overlay parameters)
  extractByLocation input overlay predicate :=
    keep overlay (Processing.extractByLocation input overlay predicate)

/-- On a watched engine the first computation does what the second one does on the engine alone, and
adds to the overlays. -/
def Mirrors (x : ExceptT ε (StateM (Watched β δ)) α) (y : ExceptT ε (StateM β) α) : Prop :=
  ∀ engine, ∃ given : List δ, ∀ overlays,
    x ⟨engine, overlays⟩ = ((y engine).1, ⟨(y engine).2, overlays ++ given⟩)

variable {x : ExceptT ε (StateM (Watched β δ)) α} {y : ExceptT ε (StateM β) α}
  {f : α → ExceptT ε (StateM (Watched β δ)) γ} {g : α → ExceptT ε (StateM β) γ}

theorem mirrors_pure (a : α) :
    Mirrors (pure a : ExceptT ε (StateM (Watched β δ)) α) (pure a) := fun engine ↦
  ⟨[], fun overlays ↦ by
    rw [List.append_nil]
    rfl⟩

private theorem mirrors_throw (e : ε) :
    Mirrors (throw e : ExceptT ε (StateM (Watched β δ)) α) (throw e) := fun engine ↦
  ⟨[], fun overlays ↦ by
    rw [List.append_nil]
    rfl⟩

private theorem perform_pass (operation : Operation) (call : HostCall β α) (engine : β)
    (overlays : List δ) :
    perform operation (pass call) ⟨engine, overlays⟩
      = ((perform operation call engine).1, ⟨(perform operation call engine).2, overlays⟩) :=
  rfl

private theorem perform_keep (operation : Operation) (overlay : δ) (call : HostCall β α)
    (engine : β) (overlays : List δ) :
    perform operation (keep overlay call) ⟨engine, overlays⟩
      = ((perform operation call engine).1,
          ⟨(perform operation call engine).2, overlays ++ [overlay]⟩) :=
  rfl

theorem mirrors_pass (operation : Operation) (call : HostCall β α) :
    Mirrors (perform operation (pass call) : Execution (Watched β δ) α) (perform operation call) :=
  fun engine ↦ ⟨[], fun overlays ↦ by rw [perform_pass, List.append_nil]⟩

private theorem mirrors_keep (operation : Operation) (overlay : δ) (call : HostCall β α) :
    Mirrors (perform operation (keep overlay call)) (perform operation call) :=
  fun engine ↦ ⟨[overlay], fun overlays ↦ perform_keep operation overlay call engine overlays⟩

theorem Mirrors.bind (hx : Mirrors x y) (hf : ∀ a, Mirrors (f a) (g a)) :
    Mirrors (x >>= f) (y >>= g) := by
  intro engine
  obtain ⟨given, hgiven⟩ := hx engine
  rcases hy : y engine with ⟨e | a, engine'⟩
  · refine ⟨given, fun overlays ↦ ?_⟩
    have hx' := hgiven overlays
    rw [hy] at hx'
    rw [bind_apply_of_error hx', bind_apply_of_error hy]
  · obtain ⟨given', hgiven'⟩ := hf a engine'
    refine ⟨given ++ given', fun overlays ↦ ?_⟩
    have hx' := hgiven overlays
    rw [hy] at hx'
    rw [bind_apply_of_ok hx', bind_apply_of_ok hy, hgiven', List.append_assoc]

end Calls

section Evaluation

variable {δ β : Type} [Dataset δ] [Processing β δ] (settings : Settings)

private theorem mirrors_filterData (data : δ) (name : String) (literal : Literal) :
    Mirrors (filterData data name literal : Execution (Watched β δ) δ)
      (filterData data name literal) := by
  rw [filterData, filterData]
  split
  · exact mirrors_throw _
  · exact mirrors_pass .extractByAttribute _

private theorem mirrors_bufferData (data : δ) (distance : Float) :
    Mirrors (bufferData settings data distance : Execution (Watched β δ) δ)
      (bufferData settings data distance) := by
  rw [bufferData, bufferData]
  split
  · exact mirrors_pass .buffer _
  · exact (mirrors_pass .reproject _).bind fun projected ↦
      (mirrors_pass .buffer _).bind fun buffered ↦ mirrors_pass .reproject _

private theorem mirrors_intersectData (primary secondary : δ) :
    Mirrors (intersectData primary secondary : Execution (Watched β δ) δ)
      (intersectData primary secondary) := by
  rw [intersectData, intersectData]
  refine (mirrors_pass .dissolve _).bind fun overlay ↦ ?_
  split
  · exact mirrors_keep .extractByLocation overlay _
  · exact mirrors_keep .intersection overlay _

private theorem mirrors_combineData (overlay : Overlay) (primary secondary : δ) :
    Mirrors (combineData overlay primary secondary : Execution (Watched β δ) δ)
      (combineData overlay primary secondary) := by
  cases overlay with
  | union => exact mirrors_pass .union _
  | intersection => exact mirrors_intersectData primary secondary
  | difference => exact mirrors_pass .difference _

private theorem mirrors_evaluate (layers : List δ) (layer : Layer) :
    Mirrors (evaluate settings layers layer : Execution (Watched β δ) (Resolved δ))
      (evaluate settings layers layer) := by
  induction layer with
  | source name =>
    rw [evaluate, evaluate]
    split
    · exact mirrors_throw _
    · exact mirrors_pure _
  | filtered layer field value ih =>
    rw [evaluate, evaluate]
    exact ih.bind fun source ↦ (mirrors_filterData _ _ _).bind fun data ↦ mirrors_pure _
  | buffered layer distance ih =>
    rw [evaluate, evaluate]
    exact ih.bind fun source ↦ (mirrors_bufferData _ _ _).bind fun data ↦ mirrors_pure _
  | combined overlay a b iha ihb =>
    rw [evaluate, evaluate]
    exact iha.bind fun primary ↦ ihb.bind fun secondary ↦
      (mirrors_combineData _ _ _).bind fun data ↦ mirrors_pure _

end Evaluation

end Watched

section Overlays

variable {δ β : Type} [Dataset δ] [Processing β δ]

/-- The overlays that an engine is given when it evaluates a layer. -/
def overlaysOf (settings : Settings) (layers : List δ) (layer : Layer) (engine : β) : List δ :=
  (evaluate settings layers layer (⟨engine, []⟩ : Watched β δ)).2.overlays

/-- **Watching changes nothing.** -/
theorem evaluate_watched (settings : Settings) (layers : List δ) (layer : Layer) (engine : β)
    (overlays : List δ) :
    evaluate settings layers layer (⟨engine, overlays⟩ : Watched β δ)
      = ((evaluate settings layers layer engine).1, ⟨(evaluate settings layers layer engine).2,
          overlays ++ overlaysOf settings layers layer engine⟩) := by
  obtain ⟨given, hgiven⟩ := Watched.mirrors_evaluate settings layers layer engine
  rw [overlaysOf, hgiven, hgiven, List.nil_append]

/-- An intersection gives its overlay away once, and only if it got one. -/
theorem overlays_intersectData (primary secondary : δ) (engine : β) (overlays : List δ) :
    (intersectData primary secondary (⟨engine, overlays⟩ : Watched β δ)).2.overlays
      = overlays
        ++ (perform .dissolve (Processing.dissolve secondary true) engine).1.toOption.toList := by
  have hpass : perform .dissolve (Processing.dissolve secondary true)
      (⟨engine, overlays⟩ : Watched β δ)
        = ((perform .dissolve (Processing.dissolve secondary true) engine).1,
          ⟨(perform .dissolve (Processing.dissolve secondary true) engine).2, overlays⟩) :=
    Watched.perform_pass .dissolve _ engine overlays
  rcases hdissolve : perform .dissolve (Processing.dissolve secondary true) engine
    with ⟨error | overlay, engine'⟩
  · rw [hdissolve] at hpass
    rw [intersectData, bind_apply_of_error hpass]
    exact (List.append_nil overlays).symm
  · rw [hdissolve] at hpass
    rw [intersectData, bind_apply_of_ok hpass]
    -- Both operations get the overlay, and what they answer makes no difference.
    split
    · rfl
    · rfl

/-- **The overlays of an intersection** are those of its operands, and then its own. -/
theorem overlaysOf_intersection {settings : Settings} {layers : List δ} {a b : Layer}
    {engine engine' engine'' : β} {primary secondary : Resolved δ}
    (ha : evaluate settings layers a engine = (.ok primary, engine'))
    (hb : evaluate settings layers b engine' = (.ok secondary, engine'')) :
    overlaysOf settings layers (.combined .intersection a b) engine
      = overlaysOf settings layers a engine ++ overlaysOf settings layers b engine'
        ++ (perform .dissolve (Processing.dissolve secondary.data true)
          engine'').1.toOption.toList := by
  have ha' := evaluate_watched settings layers a engine []
  rw [ha, List.nil_append] at ha'
  have hb' := evaluate_watched settings layers b engine' (overlaysOf settings layers a engine)
  rw [hb] at hb'
  rw [overlaysOf, evaluate, bind_apply_of_ok ha', bind_apply_of_ok hb', bind_pure_apply_snd]
  exact overlays_intersectData primary.data secondary.data engine'' _

end Overlays

/-! ## Overlays on the engine in memory -/

section Memory

private theorem map_envelope_handedOver (engine : Engine) (output : FeatureCollection) :
    (engine.handedOver output).features.map (·.envelope) = output.features.map (·.envelope) := by
  rw [Engine.handedOver]
  split
  · refine List.ext_getElem (by simp [renumber]) fun i _ _ ↦ ?_
    simp [renumber, Feature.setNumber, Feature.set]
  · rfl

private theorem map_envelope_dissolve (input : FeatureCollection) (id : String) :
    (input.dissolve id true).features.map (·.envelope)
      = Envelope.mergeMeeting (input.features.map (·.envelope)) := by
  refine List.ext_getElem (by simp [FeatureCollection.dissolve, FeatureCollection.derive])
    fun i _ _ ↦ ?_
  simp [FeatureCollection.dissolve, FeatureCollection.derive, Feature.ofNumber, Feature.setNumber,
    Feature.set]

variable {settings : Settings} {layers : List FeatureCollection} {a b : Layer}
  {engine engine' engine'' : Engine} {primary secondary : Resolved FeatureCollection}

/-- **The overlay of an intersection has no overlapping parts.** Where both operands are evaluated,
the operation that puts them together is given one overlay, unless the engine refuses to dissolve.
No two features of the overlay meet, and there are at most as many of them as the secondary operand
has: their envelopes are what the envelopes of the operand merge to, group by group. -/
theorem evaluate_intersection_overlay
    (ha : evaluate settings layers a engine = (.ok primary, engine'))
    (hb : evaluate settings layers b engine' = (.ok secondary, engine'')) :
    let layer : Layer := .combined .intersection a b
    let watched := evaluate settings layers layer (⟨engine, []⟩ : Watched Engine FeatureCollection)
    watched.1 = (evaluate settings layers layer engine).1 ∧
      watched.2.engine = (evaluate settings layers layer engine).2 ∧
      ∃ overlay? : Option FeatureCollection,
        watched.2.overlays
          = overlaysOf settings layers a engine ++ overlaysOf settings layers b engine'
            ++ overlay?.toList ∧
        (overlay? = none ↔ engine.failing = some .dissolve) ∧
        ∀ overlay, overlay? = some overlay →
          (overlay.features.Pairwise fun f g ↦ f.envelope.meets g.envelope = false) ∧
          overlay.features.length ≤ secondary.data.features.length ∧
          Envelope.FallInto (secondary.data.features.map (·.envelope))
            (overlay.features.map (·.envelope)) := by
  intro layer watched
  have hwatched : watched = _ := evaluate_watched settings layers layer engine []
  have hfailing : engine''.failing = engine.failing :=
    ((keepsMode_evaluate settings layers b).failing_eq hb).trans
      ((keepsMode_evaluate settings layers a).failing_eq ha)
  refine ⟨congrArg Prod.fst hwatched, congrArg (·.2.engine) hwatched, _,
    overlaysOf_intersection ha hb, ?_⟩
  have hask : (perform .dissolve (Processing.dissolve secondary.data true) :
      Execution Engine FeatureCollection)
        = Engine.ask (.dissolve true) (secondary.data.dissolve · true) := rfl
  rw [hask, ← hfailing]
  by_cases hrefuses : engine''.failing = some .dissolve
  · rw [Engine.ask_of_refused hrefuses]
    exact ⟨iff_of_true rfl hrefuses, nofun⟩
  · rw [Engine.ask_of_accepted hrefuses]
    refine ⟨iff_of_false nofun hrefuses, fun overlay hoverlay ↦ ?_⟩
    obtain rfl := Option.some.inj hoverlay
    have hparts : Envelope.ArePartsOf _ (secondary.data.features.map (·.envelope)) :=
      Envelope.arePartsOf_mergeMeeting _
    rw [← map_envelope_dissolve _ engine''.nextId, ← map_envelope_handedOver engine''] at hparts
    refine ⟨List.pairwise_map.mp hparts.apart, ?_, hparts.fallInto⟩
    have hlength := hparts.fallInto.length_le
    rwa [List.length_map, List.length_map] at hlength

/-- Walls. The third one touches the second one only, and meets the first one when it has grown by
that. The bounds of the last one are the wrong way round. -/
def Memory.Town.walls : FeatureCollection :=
  { Town.roads with
    id := "walls_20e5"
    name := "Walls"
    features :=
      [.ofNumber 1 ⟨0, 5, 1, 6⟩, .ofNumber 2 ⟨3, 0, 4, 6⟩, .ofNumber 3 ⟨0, 0, 3, 1⟩,
        .ofNumber 4 ⟨9, 9, 8, 8⟩] }

/-- Three of the walls merge to one part. -/
theorem evaluate_intersection_overlay_walls :
    let layers := [Town.buildings, Town.walls]
    let a : Layer := .source "Buildings"
    let b : Layer := .source "Walls"
    let layer : Layer := .combined .intersection a b
    let watched := evaluate .default layers layer (⟨.new, []⟩ : Watched Engine FeatureCollection)
    evaluate .default layers a Engine.new = (.ok ⟨Town.buildings, Town.buildings⟩, .new) ∧
      evaluate .default layers b Engine.new = (.ok ⟨Town.walls, Town.walls⟩, .new) ∧
      watched.1 = (evaluate .default layers layer Engine.new).1 ∧
      ∃ overlay : FeatureCollection, watched.2.overlays = [overlay] ∧
        overlay.features.map (·.envelope) = [⟨0, 0, 4, 6⟩, ⟨9, 9, 8, 8⟩] ∧
        (overlay.features.Pairwise fun f g ↦ f.envelope.meets g.envelope = false) ∧
        overlay.features.length ≤ Town.walls.features.length ∧
        Envelope.FallInto (Town.walls.features.map (·.envelope))
          (overlay.features.map (·.envelope)) := by
  intro layers a b layer watched
  have ha : evaluate .default layers a Engine.new
      = (.ok ⟨Town.buildings, Town.buildings⟩, .new) := by rfl
  have hb : evaluate .default layers b Engine.new = (.ok ⟨Town.walls, Town.walls⟩, .new) := by rfl
  obtain ⟨hresult, -, overlay?, hoverlays, hrefused, hspec⟩ := evaluate_intersection_overlay ha hb
  have henvelopes : watched.2.overlays.map (fun overlay ↦ overlay.features.map (·.envelope))
      = [[⟨0, 0, 4, 6⟩, ⟨9, 9, 8, 8⟩]] := by decide +kernel
  cases overlay? with
  | none => exact absurd (hrefused.mp rfl) nofun
  | some overlay =>
    have hsingle : watched.2.overlays = [overlay] := hoverlays
    rw [hsingle] at henvelopes
    exact ⟨ha, hb, hresult, overlay, hsingle, (List.cons.inj henvelopes).1, hspec overlay rfl⟩

end Memory

end MapQuery
