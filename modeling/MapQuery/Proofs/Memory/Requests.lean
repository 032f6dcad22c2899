import MapQuery.Memory.Engine
import MapQuery.Proofs.Host.Computation

/-!
# Requests to the engine

Everything that the engine is asked to do is a request together with the collection that is made if
the request is not refused. The engine refuses a request for the operation that it was told to
refuse, and no other (`ask_of_refused`, `ask_of_accepted`). It puts each request into its record,
gives the collection an id of its own, and numbers the features afresh if it was told to.

Then `Follows` says what a computation does on an engine that refuses nothing: the requests that it
makes and the error with which it fails, if it fails. Both are read off the parts of a computation
(`Follows.bind`).
-/

namespace MapQuery.Memory.Engine

/-! ## One request -/

def nextId (engine : Engine) : String := "memory:" ++ toString (engine.outputs + 1)

/-- The output as the engine hands it over. -/
def handedOver (engine : Engine) (output : FeatureCollection) : FeatureCollection :=
  if engine.renumbers then
    { output with features := renumber (numberBase + engine.renumbered) output.features }
  else output

/-- The engine after a request that it refused. -/
def afterRefusal (engine : Engine) (request : Request) : Engine :=
  { engine with requests := engine.requests ++ [request] }

/-- The engine after it has answered a request with the output. -/
def afterAnswer (engine : Engine) (request : Request) (output : FeatureCollection) : Engine :=
  { engine with
    requests := engine.requests ++ [request]
    accepted := engine.accepted ++ [request]
    outputs := engine.outputs + 1
    renumbered :=
      if engine.renumbers then engine.renumbered + output.features.length else engine.renumbered }

/-- Has a request carried out; `make` gives the output with the id that it is told. -/
def ask (request : Request) (make : String → FeatureCollection) :
    Execution Engine FeatureCollection :=
  perform request.operation (run request make)

variable {engine engine' : Engine} {request : Request} {make : String → FeatureCollection}
  {output : FeatureCollection}

private theorem accept_of_refused (h : engine.failing = some request.operation) :
    accept request engine
      = (.error ⟨request.operation.name ++ ": backend exploded"⟩, engine.afterRefusal request) := by
  rw [accept, bind_apply_of_ok (by rfl), bind_apply_of_ok (by rfl)]
  exact congrFun (if_pos h) _

private theorem accept_of_accepted (h : engine.failing ≠ some request.operation) :
    accept request engine
      = (.ok engine.nextId, { engine with
          requests := engine.requests ++ [request]
          accepted := engine.accepted ++ [request]
          outputs := engine.outputs + 1 }) := by
  rw [accept, bind_apply_of_ok (by rfl), bind_apply_of_ok (by rfl)]
  exact congrFun (if_neg h) _

private theorem deliver_apply (engine : Engine) (output : FeatureCollection) :
    deliver output engine
      = (.ok (engine.handedOver output), { engine with
          renumbered := if engine.renumbers then engine.renumbered + output.features.length
            else engine.renumbered }) := by
  rw [deliver, bind_apply_of_ok (by rfl), handedOver]
  obtain ⟨_, _, _, _ | _, _, _⟩ := engine <;> rfl

theorem handedOver_of_renumbers_eq_false (h : engine.renumbers = false)
    (output : FeatureCollection) : engine.handedOver output = output := by
  rw [handedOver, h]
  rfl

theorem ask_of_refused (h : engine.failing = some request.operation) :
    ask request make engine
      = (.error (.host request.operation ⟨request.operation.name ++ ": backend exploded"⟩),
        engine.afterRefusal request) := by
  have hrun : run request make engine
      = (.error ⟨request.operation.name ++ ": backend exploded"⟩, engine.afterRefusal request) := by
    rw [run, bind_apply_of_error (accept_of_refused h)]
  exact perform_of_error hrun

theorem ask_of_accepted (h : engine.failing ≠ some request.operation) :
    ask request make engine
      = (.ok (engine.handedOver (make engine.nextId)),
        engine.afterAnswer request (make engine.nextId)) := by
  have hrun : run request make engine
      = (.ok (engine.handedOver (make engine.nextId)),
        engine.afterAnswer request (make engine.nextId)) := by
    rw [run, bind_apply_of_ok (accept_of_accepted h), deliver_apply]
    rfl
  exact perform_of_ok hrun

/-- **What an answered request does.** -/
theorem ask_eq_ok_iff :
    ask request make engine = (.ok output, engine') ↔
      engine.failing ≠ some request.operation ∧
        engine.handedOver (make engine.nextId) = output ∧
        engine.afterAnswer request (make engine.nextId) = engine' := by
  by_cases h : engine.failing = some request.operation
  · rw [ask_of_refused h]
    exact iff_of_false nofun fun haccepted ↦ haccepted.1 h
  · rw [ask_of_accepted h, and_iff_right h]
    constructor
    · intro heq
      cases heq
      exact ⟨rfl, rfl⟩
    · rintro ⟨rfl, rfl⟩
      rfl

/-! ## The mode of the engine -/

/-- Whatever the computation does, the engine refuses afterwards what it refused before, and gives
new numbers if it gave them before. -/
def KeepsMode {α : Type} (x : Execution Engine α) : Prop :=
  ∀ engine : Engine,
    (x engine).2.failing = engine.failing ∧ (x engine).2.renumbers = engine.renumbers

section KeepsMode

variable {α β : Type} {x : Execution Engine α} {f : α → Execution Engine β}

theorem keepsMode_pure (a : α) : KeepsMode (pure a) := fun _ ↦ ⟨rfl, rfl⟩

theorem keepsMode_throw (e : ExecutionError) : KeepsMode (throw e : Execution Engine α) :=
  fun _ ↦ ⟨rfl, rfl⟩

theorem keepsMode_ask (request : Request) (make : String → FeatureCollection) :
    KeepsMode (ask request make) := by
  intro engine
  by_cases h : engine.failing = some request.operation
  · rw [ask_of_refused h]
    exact ⟨rfl, rfl⟩
  · rw [ask_of_accepted h]
    exact ⟨rfl, rfl⟩

theorem KeepsMode.bind (hx : KeepsMode x) (hf : ∀ a, KeepsMode (f a)) : KeepsMode (x >>= f) := by
  intro engine
  have hfirst := hx engine
  rcases h : x engine with ⟨e | a, engine'⟩
  · rw [h] at hfirst
    rwa [bind_apply_of_error h]
  · rw [h] at hfirst
    rw [bind_apply_of_ok h]
    exact ⟨(hf a engine').1.trans hfirst.1, (hf a engine').2.trans hfirst.2⟩

theorem KeepsMode.failing_eq {result : Except ExecutionError α} (hx : KeepsMode x)
    (h : x engine = (result, engine')) : engine'.failing = engine.failing := by
  have hmode := (hx engine).1
  rwa [h] at hmode

theorem KeepsMode.renumbers_eq {result : Except ExecutionError α} (hx : KeepsMode x)
    (h : x engine = (result, engine')) : engine'.renumbers = engine.renumbers := by
  have hmode := (hx engine).2
  rwa [h] at hmode

end KeepsMode

/-! ## Computations made of requests -/

/-- On an engine that refuses nothing, the computation makes these requests and no others. Then it
fails with the error, or gives a result if there is none. -/
def Follows {α : Type} (x : Execution Engine α) (requests : List Request)
    (error? : Option ExecutionError) : Prop :=
  ∀ engine : Engine, engine.failing = none →
    (x engine).2.failing = none ∧ (x engine).2.requests = engine.requests ++ requests ∧
      ∀ e, (x engine).1 = .error e ↔ error? = some e

section Follows

variable {α β : Type} {x : Execution Engine α} {f : α → Execution Engine β}
  {requests requests' : List Request} {error? error'? : Option ExecutionError}

theorem follows_pure (a : α) : Follows (pure a) [] none :=
  fun engine hfailing ↦ ⟨hfailing, (List.append_nil engine.requests).symm, fun _ ↦ iff_of_false
    nofun nofun⟩

theorem follows_throw (e : ExecutionError) : Follows (throw e : Execution Engine α) [] (some e) :=
  fun engine hfailing ↦ ⟨hfailing, (List.append_nil engine.requests).symm, fun _ ↦
    ⟨fun h ↦ congrArg some (Except.error.inj h), fun h ↦ congrArg Except.error (Option.some.inj h)⟩⟩

theorem follows_ask (request : Request) (make : String → FeatureCollection) :
    Follows (ask request make) [request] none := by
  intro engine hfailing
  have hask := @ask_of_accepted engine request make (by rw [hfailing]; exact nofun)
  rw [hask]
  exact ⟨hfailing, rfl, fun _ ↦ iff_of_false nofun nofun⟩

/-- **A computation in two parts** makes the requests of the first part and, unless that one fails,
those of the second part. -/
theorem Follows.bind (hx : Follows x requests error?)
    (hf : ∀ engine a engine', x engine = (.ok a, engine') → Follows (f a) requests' error'?) :
    Follows (x >>= f) (if error? = none then requests ++ requests' else requests)
      (error?.or error'?) := by
  intro engine hfailing
  obtain ⟨hfailing', hrequests, herror⟩ := hx engine hfailing
  rcases h : x engine with ⟨e | a, engine'⟩
  · rw [h] at hfailing' hrequests herror
    obtain rfl := (herror e).mp rfl
    rw [bind_apply_of_error h]
    exact ⟨hfailing', hrequests, fun e' ↦ ⟨fun heq ↦ congrArg some (Except.error.inj heq),
      fun heq ↦ congrArg Except.error (Option.some.inj heq)⟩⟩
  · rw [h] at hfailing' hrequests herror
    obtain rfl : error? = none := by
      rw [Option.eq_none_iff_forall_ne_some]
      intro e hsome
      cases (herror e).mpr hsome
    obtain ⟨hfailing'', hrequests', herror'⟩ := hf engine a engine' h engine' hfailing'
    rw [bind_apply_of_ok h]
    refine ⟨hfailing'', ?_, herror'⟩
    rw [hrequests', hrequests, if_pos rfl, List.append_assoc]

theorem Follows.andThen (hx : Follows x requests none)
    (hf : ∀ a, Follows (f a) requests' error'?) :
    Follows (x >>= f) (requests ++ requests') error'? := by
  have h := hx.bind fun _ a _ _ ↦ hf a
  rwa [if_pos rfl, Option.none_or] at h

theorem Follows.exists_ok_iff (h : Follows x requests error?) {engine : Engine}
    (hfailing : engine.failing = none) : (∃ a, (x engine).1 = .ok a) ↔ error? = none := by
  obtain ⟨-, -, herror⟩ := h engine hfailing
  cases hx : (x engine).1 with
  | ok a =>
    refine iff_of_true ⟨a, rfl⟩ (Option.eq_none_iff_forall_ne_some.mpr fun e he ↦ ?_)
    cases hx.symm.trans ((herror e).mpr he)
  | error e =>
    rw [(herror e).mp hx]
    refine iff_of_false ?_ (Option.some_ne_none e)
    rintro ⟨a, ha⟩
    cases ha

end Follows

end MapQuery.Memory.Engine
