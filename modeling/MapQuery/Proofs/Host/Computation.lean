import Mathlib.Tactic.Common
import MapQuery.Execution.Outcome

/-!
# Computations on a host

A computation on a host gives a result or fails, and in both cases leaves a state. Two computations
one after the other go through if both do, and the second one begins in the state that the first
one leaves (`bind_apply_eq_ok_iff`). An action is the evaluation of its layer on the engine and then
something done to the project, and neither of the two changes what the other one works on
(`Host.execute_eq_ok_iff`).
-/

namespace MapQuery

section Bind

variable {ε σ α β : Type} {x : ExceptT ε (StateM σ) α} {f : α → ExceptT ε (StateM σ) β}
  {s t u : σ} {a : α} {b : β} {e : ε}

theorem bind_apply_of_ok (h : x s = (.ok a, t)) : (x >>= f) s = f a t := by
  change (ExceptT.bindCont f (x s).1) (x s).2 = f a t
  rw [h]
  rfl

theorem bind_apply_of_error (h : x s = (.error e, t)) : (x >>= f) s = (.error e, t) := by
  change (ExceptT.bindCont f (x s).1) (x s).2 = (.error e, t)
  rw [h]
  rfl

theorem bind_apply_eq_ok_iff :
    (x >>= f) s = (.ok b, u) ↔ ∃ a t, x s = (.ok a, t) ∧ f a t = (.ok b, u) := by
  constructor
  · intro h
    rcases hx : x s with ⟨e | a, t⟩
    · rw [bind_apply_of_error hx] at h
      cases h
    · rw [bind_apply_of_ok hx] at h
      exact ⟨a, t, rfl, h⟩
  · rintro ⟨a, t, hx, hf⟩
    rwa [bind_apply_of_ok hx]

theorem pure_apply_eq_ok_iff {a' : α} :
    (pure a : ExceptT ε (StateM σ) α) s = (.ok a', u) ↔ a = a' ∧ s = u := by
  change ((Except.ok a, s) : Except ε α × σ) = (.ok a', u) ↔ _
  rw [Prod.mk.injEq, Except.ok.injEq]

theorem map_apply_eq_ok_iff {g : α → β} :
    (g <$> x) s = (.ok b, u) ↔ ∃ a, x s = (.ok a, u) ∧ g a = b := by
  rw [← bind_pure_comp, bind_apply_eq_ok_iff]
  simp [pure_apply_eq_ok_iff, and_comm]

theorem bind_pure_apply_snd (g : α → β) : ((x >>= fun a ↦ pure (g a)) s).2 = (x s).2 := by
  rcases hx : x s with ⟨e | a, t⟩
  · rw [bind_apply_of_error hx]
  · rw [bind_apply_of_ok hx]
    rfl

end Bind

section Perform

variable {σ α : Type} {operation : Operation} {call : HostCall σ α} {s t : σ}

theorem perform_of_ok {a : α} (h : call s = (.ok a, t)) :
    perform operation call s = (.ok a, t) := by
  change ((call s).1.mapError (ExecutionError.host operation), (call s).2) = _
  rw [h]
  rfl

theorem perform_of_error {cause : HostError} (h : call s = (.error cause, t)) :
    perform operation call s = (.error (.host operation cause), t) := by
  change ((call s).1.mapError (ExecutionError.host operation), (call s).2) = _
  rw [h]
  rfl

end Perform

/-! ## Actions on a host -/

namespace Host

variable {π β δ : Type} [Dataset δ] [Project π δ] [Processing β δ] {settings : Settings}
  {layer : Layer} {action : Action} {host : Host π β} {engine : β} {error : ExecutionError}
  {resolved : Resolved δ}

/-- Evaluating a layer on a host is evaluating it on its engine. Nothing else is changed. -/
theorem evaluate_of_eq {result : Except ExecutionError (Resolved δ)}
    (h : MapQuery.evaluate settings (Project.layers host.project) layer host.engine
      = (result, engine)) :
    Host.evaluate settings layer host = (result, { host with engine }) := by
  change ((MapQuery.evaluate settings (Project.layers host.project) layer host.engine).1,
    { host with engine := (MapQuery.evaluate settings _ layer host.engine).2 }) = _
  rw [h]

theorem execute_of_error
    (h : MapQuery.evaluate settings (Project.layers host.project) action.layer host.engine
      = (.error error, engine)) :
    Host.execute settings action host = (.error error, { host with engine }) := by
  rw [execute, bind_apply_of_error (evaluate_of_eq h)]

theorem execute_of_ok
    (h : MapQuery.evaluate settings (Project.layers host.project) action.layer host.engine
      = (.ok resolved, engine)) :
    Host.execute settings action host
      = ((conclude action.verb resolved host.project).1,
        ⟨(conclude action.verb resolved host.project).2, engine⟩) := by
  rw [execute, bind_apply_of_ok (evaluate_of_eq h)]
  rfl

theorem execute_snd_engine (settings : Settings) (action : Action) (host : Host π β) :
    (Host.execute settings action host).2.engine
      = (MapQuery.evaluate settings (Project.layers host.project) action.layer host.engine).2 := by
  rcases h : MapQuery.evaluate settings (Project.layers host.project) action.layer host.engine
    with ⟨error | resolved, engine⟩
  · rw [execute_of_error h]
  · rw [execute_of_ok h]

/-- On two engines that evaluate the layer to the same, the action does the same to the project. -/
theorem execute_of_evaluate_eq (settings : Settings) (action : Action) (host : Host π β)
    {engine' last last' : β} {result : Except ExecutionError (Resolved δ)}
    (h : MapQuery.evaluate settings (Project.layers host.project) action.layer host.engine
      = (result, last))
    (h' : MapQuery.evaluate settings (Project.layers host.project) action.layer engine'
      = (result, last')) :
    Host.execute settings action { host with engine := engine' }
      = ((Host.execute settings action host).1,
        { (Host.execute settings action host).2 with engine := last' }) := by
  cases result with
  | error error =>
    rw [execute_of_error h]
    exact execute_of_error h'
  | ok resolved =>
    rw [execute_of_ok h]
    exact execute_of_ok h'

/-- **An action goes through** if its layer is evaluated and what is done with the data goes
through. -/
theorem execute_eq_ok_iff {sentence : String} {after : Host π β} :
    Host.execute settings action host = (.ok sentence, after) ↔
      ∃ resolved,
        MapQuery.evaluate settings (Project.layers host.project) action.layer host.engine
          = (.ok resolved, after.engine) ∧
        conclude action.verb resolved host.project = (.ok sentence, after.project) := by
  rcases h : MapQuery.evaluate settings (Project.layers host.project) action.layer host.engine
    with ⟨error | resolved, engine⟩
  · rw [execute_of_error h]
    refine iff_of_false (fun heq ↦ ?_) ?_
    · cases heq
    · rintro ⟨resolved, heq, -⟩
      cases heq
  · rw [execute_of_ok h]
    rcases hconclude : conclude action.verb resolved host.project with ⟨result, project⟩
    constructor
    · intro heq
      cases heq
      exact ⟨resolved, rfl, hconclude⟩
    · rintro ⟨resolved', heq, hconclude'⟩
      cases heq
      rw [hconclude] at hconclude'
      cases hconclude'
      rfl

end Host

end MapQuery
