import MapQuery.Memory.Town
import MapQuery.Proofs.Execution.Steps

/-!
# When the engine refuses an operation

Two runs of one action are compared, from the same state: in one of them the engine refuses nothing,
in the other one it refuses every request for one operation. As long as nobody asks for the
operation the runs do the same. With the first request for it the second run is over. This request
is the last one in the record, the error names the operation, and nothing is done to the project
(`Host.execute_refusing`).

So a refusal does not lead to other requests, and no request is made in vain after it: what is
recorded is the shortest beginning of the first run's requests in which the operation occurs
(`Engine.IsFirst`). This is a property of all computations that are put together of requests
(`isCompositional_failsFast`).
-/

namespace MapQuery

namespace Memory.Engine

/-! ## The first request for an operation -/

section IsFirst

variable {operation : Operation} {requests before : List Request} {request : Request}

/-- None of the requests is for the operation. -/
def NeverAsks (operation : Operation) (requests : List Request) : Prop :=
  ∀ request ∈ requests, request.operation ≠ operation

/-- The first one of the requests for the operation, with the requests before it. -/
structure IsFirst (operation : Operation) (requests before : List Request) (request : Request) :
    Prop where
  operation_eq : request.operation = operation
  neverAsks : NeverAsks operation before
  split : ∃ after, requests = before ++ request :: after

private theorem isFirst_singleton (h : request.operation = operation) :
    IsFirst operation [request] [] request :=
  ⟨h, nofun, [], rfl⟩

theorem IsFirst.append_right (h : IsFirst operation requests before request)
    (more : List Request) : IsFirst operation (requests ++ more) before request := by
  obtain ⟨after, rfl⟩ := h.split
  exact ⟨h.operation_eq, h.neverAsks, after ++ more, by simp⟩

theorem NeverAsks.append {more : List Request} (h : NeverAsks operation requests)
    (hmore : NeverAsks operation more) : NeverAsks operation (requests ++ more) :=
  List.forall_mem_append.mpr ⟨h, hmore⟩

theorem IsFirst.append_left {earlier : List Request} (h : IsFirst operation requests before request)
    (hearlier : NeverAsks operation earlier) :
    IsFirst operation (earlier ++ requests) (earlier ++ before) request := by
  obtain ⟨after, rfl⟩ := h.split
  exact ⟨h.operation_eq, hearlier.append h.neverAsks, after, by simp⟩

end IsFirst

/-! ## Two runs side by side -/

/-- The engine, told to refuse an operation. -/
def refusing (engine : Engine) (operation : Operation) : Engine :=
  { engine with failing := some operation }

/-- The error with which a refused operation ends a run. -/
def refusal (operation : Operation) : ExecutionError :=
  .host operation ⟨operation.name ++ ": backend exploded"⟩

variable {α β : Type} {operation : Operation}

/-- What becomes of a run if the engine refuses an operation. In the run as it is otherwise, with
the outcome `free`, the engine gets the requests. -/
inductive CutShort (operation : Operation) (engine : Engine) (requests : List Request)
    (free : Except ExecutionError α × Engine) : Except ExecutionError α × Engine → Prop where
  | never (h : NeverAsks operation requests) :
    CutShort operation engine requests free (free.1, free.2.refusing operation)
  | atFirst {before : List Request} {request : Request} {last : Engine}
    (h : IsFirst operation requests before request)
    (hrecord : last.requests = engine.requests ++ (before ++ [request])) :
    CutShort operation engine requests free (.error (refusal operation), last)

/-- On an engine that refuses the operation, the computation ends with the first request for it. -/
def FailsFast (operation : Operation) (x : Execution Engine α) : Prop :=
  ∀ engine : Engine, engine.failing = none → (x engine).2.failing = none ∧
    ∃ requests, (x engine).2.requests = engine.requests ++ requests ∧
      CutShort operation engine requests (x engine) (x (engine.refusing operation))

private theorem failsFast_of_apply_eq {x : Execution Engine α} {result : Except ExecutionError α}
    (h : ∀ engine, x engine = (result, engine)) : FailsFast operation x := by
  intro engine hfailing
  rw [h, h]
  exact ⟨hfailing, [], (List.append_nil _).symm, .never nofun⟩

private theorem failsFast_ask (request : Request) (make : String → FeatureCollection) :
    FailsFast operation (ask request make) := by
  intro engine hfailing
  have haccepted : engine.failing ≠ some request.operation := by
    rw [hfailing]
    exact nofun
  rw [ask_of_accepted haccepted]
  refine ⟨hfailing, [request], rfl, ?_⟩
  by_cases hoperation : request.operation = operation
  · have hrefused : (engine.refusing operation).failing = some request.operation :=
      congrArg some hoperation.symm
    rw [ask_of_refused hrefused, hoperation]
    exact .atFirst (isFirst_singleton hoperation) rfl
  · have haccepted' : (engine.refusing operation).failing ≠ some request.operation :=
      fun heq ↦ hoperation (Option.some.inj heq).symm
    rw [ask_of_accepted haccepted']
    -- A request that is not refused is answered without a look at what would be refused.
    exact .never (List.forall_mem_singleton.mpr hoperation)

theorem FailsFast.bind {x : Execution Engine α} {f : α → Execution Engine β}
    (hx : FailsFast operation x) (hf : ∀ a, FailsFast operation (f a)) :
    FailsFast operation (x >>= f) := by
  intro engine hfailing
  obtain ⟨hfailing', requests, hrecord, hcut⟩ := hx engine hfailing
  generalize hstrict : x (engine.refusing operation) = strict at hcut
  rcases hfree : x engine with ⟨e | a, between⟩
  · rw [hfree] at hfailing' hrecord hcut
    rw [bind_apply_of_error hfree]
    refine ⟨hfailing', requests, hrecord, ?_⟩
    cases hcut with
    | never h =>
      rw [bind_apply_of_error hstrict]
      exact .never h
    | atFirst h hlast =>
      rw [bind_apply_of_error hstrict]
      exact .atFirst h hlast
  · rw [hfree] at hfailing' hrecord hcut
    obtain ⟨hfailing'', requests', hrecord', hcut'⟩ := hf a between hfailing'
    rw [bind_apply_of_ok hfree]
    refine ⟨hfailing'', requests ++ requests', ?_, ?_⟩
    · rw [hrecord', hrecord, List.append_assoc]
    cases hcut with
    | never h =>
      rw [bind_apply_of_ok hstrict]
      generalize f a (between.refusing operation) = strict' at hcut'
      cases hcut' with
      | never h' => exact .never (h.append h')
      | atFirst h' hlast =>
        refine .atFirst (h'.append_left h) ?_
        rw [hlast, hrecord]
        simp only [List.append_assoc]
    | atFirst h hlast =>
      rw [bind_apply_of_error hstrict]
      exact .atFirst (h.append_right requests') hlast

theorem isCompositional_failsFast (operation : Operation) :
    IsCompositional (FailsFast operation) where
  pure _ := failsFast_of_apply_eq fun _ ↦ rfl
  throw _ := failsFast_of_apply_eq fun _ ↦ rfl
  ask := failsFast_ask
  bind := .bind

end Memory.Engine

/-! ## Actions -/

open Memory Engine

/-- **An action fails at the first request that is refused.** Let an action be carried out once on
an engine that refuses nothing and once, from the same state, on one that refuses an operation. If
the first run asks for the operation, the requests of the second one are those of the first one up
to the first request for it; the error says that the operation was refused, and the project is as
it was. If it does not ask for it, the two runs are the same. -/
theorem Host.execute_refusing {π : Type} [Project π FeatureCollection] (settings : Settings)
    (action : Action) (project : π) (engine : Engine) (operation : Operation) :
    let run (failing : Option Operation) : Except ExecutionError String × Host π Engine :=
      Host.execute settings action ⟨project, { engine with failing }⟩
    let free := run none
    let strict := run (some operation)
    ∃ requests, free.2.engine.requests = engine.requests ++ requests ∧
      ((∃ request ∈ requests, request.operation = operation) →
        ∃ before request after,
          requests = before ++ request :: after ∧ request.operation = operation ∧
          (∀ earlier ∈ before, earlier.operation ≠ operation) ∧
          strict.1 = .error (.host operation ⟨operation.name ++ ": backend exploded"⟩) ∧
          strict.2.engine.requests = engine.requests ++ (before ++ [request]) ∧
          strict.2.project = project) ∧
      ((∀ request ∈ requests, request.operation ≠ operation) →
        strict.1 = free.1 ∧
        strict.2 = ⟨free.2.project, { free.2.engine with failing := some operation }⟩) := by
  intro run free strict
  let host : Host π Engine := ⟨project, { engine with failing := none }⟩
  have hfast := (isCompositional_failsFast operation).evaluate settings (Project.layers project)
    action.layer
  obtain ⟨-, requests, hrecord, hcut⟩ := hfast host.engine rfl
  have hfree : free.2.engine.requests = engine.requests ++ requests := by
    rw [← hrecord]
    exact congrArg (·.requests) (Host.execute_snd_engine settings action host)
  refine ⟨requests, hfree, ?_⟩
  generalize hstrict : MapQuery.evaluate settings (Project.layers project) action.layer
    (host.engine.refusing operation) = outcome at hcut
  cases hcut with
  | never hnever =>
    refine ⟨?_, fun _ ↦ ?_⟩
    · rintro ⟨request, hmem, hoperation⟩
      exact absurd hoperation (hnever request hmem)
    · have hsame := Host.execute_of_evaluate_eq settings action host (Prod.eta _).symm hstrict
      rw [← Host.execute_snd_engine settings action host] at hsame
      exact Prod.ext_iff.mp hsame
  | @atFirst before request last hfirst hlast =>
    obtain ⟨after, hsplit⟩ := hfirst.split
    have herror : strict = (.error (refusal operation), ⟨project, last⟩) :=
      Host.execute_of_error hstrict
    refine ⟨fun _ ↦ ⟨before, request, after, hsplit, hfirst.operation_eq, hfirst.neverAsks, ?_⟩,
      fun hnever ↦ ?_⟩
    · rw [herror]
      exact ⟨rfl, hlast, rfl⟩
    · refine absurd hfirst.operation_eq (hnever request ?_)
      rw [hsplit]
      exact List.mem_append_cons_self

/-- The buildings near a highway, on an engine that refuses to grow features. -/
example :
    let near : Layer := .buffered (.filtered (.source "Roads") "type" (.text "highway")) 500
    let host : Host Workspace Engine :=
      ⟨Town.workspace, { Engine.new with failing := some .buffer }⟩
    let after :=
      Host.execute .default ⟨.select, .combined .intersection (.source "Buildings") near⟩ host
    after.1 = .error (.host .buffer ⟨"buffer: backend exploded"⟩) ∧
      after.2.engine.requests.map (·.operation) = [.extractByAttribute, .buffer] := by
  decide +kernel

end MapQuery
