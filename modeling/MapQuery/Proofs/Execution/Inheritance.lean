import MapQuery.Memory.Town
import MapQuery.Proofs.Execution.Steps

/-!
# What data keep of their origin

However a layer is put together, the data that it is evaluated to have the fields and the
coordinate reference system of the project layer at its primary leaf: each operation hands down
those of its first input, and a buffer in another system comes back from there. The kind of
geometry is known from the tree as well, since only buffers change it. So everything that decides
what the engine is asked for is known before the evaluation (`foretells_of_evaluate`).
-/

namespace MapQuery

open Memory

/-! ## Known from the tree -/

namespace Layer

variable (layers : List FeatureCollection)

/-- The project layer at the primary leaf. -/
def base? (layer : Layer) : Option FeatureCollection := findLayer? layers layer.primarySource

/-- The kind of geometry that the evaluated data have. -/
def kind? : Layer → Option GeometryKind
  | source name => (findLayer? layers name).map (·.kind)
  | filtered layer _ _ => layer.kind?
  | buffered _ _ => some .polygon
  | combined _ a _ => a.kind?

/-- The evaluated layer is what the tree tells of it. -/
structure Foretells (layer : Layer) (resolved : Resolved FeatureCollection) : Prop where
  base_eq : layer.base? layers = some resolved.origin
  fields_eq : resolved.data.fields = resolved.origin.fields
  crs_eq : resolved.data.crs = resolved.origin.crs
  kind_eq : layer.kind? layers = some resolved.data.kind

end Layer

/-! ## Handed down by the operations -/

/-- What a dataset tells of itself beside its names and its features. -/
structure Profile where
  fields : List Field
  kind : GeometryKind
  crs : Crs

/-- The profile of a dataset in memory. -/
def Memory.FeatureCollection.profile (data : FeatureCollection) : Profile :=
  ⟨data.fields, data.kind, data.crs⟩

section Profile

variable {settings : Settings} {data primary secondary output : FeatureCollection}
  {engine engine' : Engine}

theorem profile_of_ask {request : Request} {make : String → FeatureCollection}
    (h : Engine.ask request make engine = (.ok output, engine')) :
    output.profile = (make engine.nextId).profile := by
  obtain ⟨-, rfl, -⟩ := Engine.ask_eq_ok_iff.mp h
  rw [Engine.handedOver]
  split <;> rfl

private theorem profile_of_filterData {name : String} {literal : Literal}
    (h : filterData data name literal engine = (.ok output, engine')) :
    output.profile = data.profile := by
  obtain ⟨field, -, hask⟩ := filterData_eq_ok_iff.mp h
  exact profile_of_ask hask

private theorem profile_of_bufferData {distance : Float}
    (h : bufferData settings data distance engine = (.ok output, engine')) :
    output.profile = { data.profile with kind := .polygon } := by
  rcases bufferData_eq_ok_iff.mp h with
    ⟨-, hask⟩ | ⟨-, projected, between, hproject, buffered, between', hbuffer, hback⟩
  · exact profile_of_ask hask
  · have hprojected : projected.profile = { data.profile with crs := settings.metricSystem } :=
      profile_of_ask hproject
    have hbuffered : buffered.profile = { projected.profile with kind := .polygon } :=
      profile_of_ask hbuffer
    have houtput : output.profile = { buffered.profile with crs := data.crs } :=
      profile_of_ask hback
    rw [houtput, hbuffered, hprojected]
    rfl

private theorem profile_of_combineData {overlay : Overlay}
    (h : combineData overlay primary secondary engine = (.ok output, engine')) :
    output.profile = primary.profile := by
  cases overlay with
  | union => exact profile_of_ask h
  | difference => exact profile_of_ask h
  | intersection =>
    obtain ⟨merged, between, -, hask⟩ := intersectData_eq_ok_iff.mp h
    split at hask
    · exact profile_of_ask hask
    · exact profile_of_ask hask

end Profile

/-! ## Handed down by an evaluation -/

variable {settings : Settings} {layers : List FeatureCollection} {engine engine' : Engine}

/-- A node that hands down the fields and the coordinate reference system of its operand. -/
theorem Layer.Foretells.handDown {operand node : Layer} {source : Resolved FeatureCollection}
    {data : FeatureCollection} (h : operand.Foretells layers source)
    (hleaf : node.primarySource = operand.primarySource)
    (hprofile : data.profile = { source.data.profile with kind := data.kind })
    (hkind : node.kind? layers = some data.kind) : node.Foretells layers ⟨source.origin, data⟩ where
  base_eq := by rw [base?, hleaf]; exact h.base_eq
  fields_eq := (congrArg Profile.fields hprofile).trans h.fields_eq
  crs_eq := (congrArg Profile.crs hprofile).trans h.crs_eq
  kind_eq := hkind

/-- **The tree tells what its data keep.** Whatever a layer is evaluated to comes from the project
layer at its primary leaf and has its fields and its coordinate reference system. -/
theorem foretells_of_evaluate {layer : Layer} {resolved : Resolved FeatureCollection}
    (h : evaluate settings layers layer engine = (.ok resolved, engine')) :
    layer.Foretells layers resolved := by
  induction layer generalizing engine engine' resolved with
  | source name =>
    obtain ⟨layer, hfind, rfl, -⟩ := evaluate_source_eq_ok_iff.mp h
    exact ⟨hfind, rfl, rfl, by rw [Layer.kind?, hfind]; rfl⟩
  | filtered layer field value ih =>
    obtain ⟨source, between, hsource, data, hdata, rfl⟩ := evaluate_filtered_eq_ok_iff.mp h
    have hprofile := profile_of_filterData hdata
    have hkind : data.kind = source.data.kind := congrArg Profile.kind hprofile
    refine (ih hsource).handDown rfl ?_ ?_
    · rw [hprofile, hkind]
      rfl
    · rw [hkind]
      exact (ih hsource).kind_eq
  | buffered layer distance ih =>
    obtain ⟨source, between, hsource, data, hdata, rfl⟩ := evaluate_buffered_eq_ok_iff.mp h
    have hprofile := profile_of_bufferData hdata
    have hkind : data.kind = .polygon := congrArg Profile.kind hprofile
    refine (ih hsource).handDown rfl ?_ ?_
    · rw [hprofile, hkind]
    · rw [hkind]
      rfl
  | combined overlay a b iha _ =>
    obtain ⟨primary, between, hprimary, secondary, between', -, data, hdata, rfl⟩ :=
      evaluate_combined_eq_ok_iff.mp h
    have hprofile := profile_of_combineData hdata
    have hkind : data.kind = primary.data.kind := congrArg Profile.kind hprofile
    refine (iha hprimary).handDown rfl ?_ ?_
    · rw [hprofile, hkind]
      rfl
    · rw [hkind]
      exact (iha hprimary).kind_eq

/-- **What evaluated data inherit.** If a layer is evaluated, in whatever mode the engine is, its
origin is the project layer that the name at the primary leaf means, and the data have the
coordinate reference system and the fields of that layer. Secondary operands leave no trace in
either. -/
theorem Host.evaluate_inherits {settings : Settings} {layer : Layer}
    {host after : Host Workspace Engine} {resolved : Resolved FeatureCollection}
    (h : Host.evaluate settings layer host = (.ok resolved, after)) :
    findLayer? host.project.layers layer.primarySource = some resolved.origin ∧
      resolved.data.crs = resolved.origin.crs ∧ resolved.data.fields = resolved.origin.fields := by
  rcases hrun : MapQuery.evaluate settings host.project.layers layer host.engine
    with ⟨result, engine⟩
  obtain ⟨rfl, -⟩ := Prod.mk.inj ((Host.evaluate_of_eq hrun).symm.trans h)
  have hforetold := foretells_of_evaluate hrun
  exact ⟨hforetold.base_eq, hforetold.crs_eq, hforetold.fields_eq⟩

/-- Parks, which are stored in degrees, joined with roads and buffered, without the surroundings of
the buildings; the engine numbers the features of each output afresh. -/
theorem Host.evaluate_inherits_parks :
    let layer : Layer := .combined .difference
      (.buffered (.combined .union (.source "green") (.source "Roads")) 500)
      (.buffered (.source "Buildings") 10)
    let host : Host Workspace Engine := ⟨Town.workspace, { Engine.new with renumbers := true }⟩
    ∃ resolved after, Host.evaluate .default layer host = (.ok resolved, after) ∧
      resolved.data.crs = Town.geographic ∧ resolved.data.fields = Town.parks.fields := by
  intro layer host
  rcases hrun : Host.evaluate .default layer host with ⟨error | resolved, after⟩
  · have hok : (Host.evaluate .default layer host).1.isOk = true := by decide +kernel
    rw [hrun] at hok
    cases hok
  · obtain ⟨hbase, hcrs, hfields⟩ := Host.evaluate_inherits hrun
    have hparks : (findLayer? host.project.layers layer.primarySource).map
        (fun parks ↦ (parks.crs, parks.fields)) = some (Town.geographic, Town.parks.fields) := by
      decide +kernel
    rw [hbase] at hparks
    obtain ⟨hgeographic, hsame⟩ := Prod.mk.inj (Option.some.inj hparks)
    exact ⟨resolved, after, rfl, hcrs.trans hgeographic, hfields.trans hsame⟩

end MapQuery
