import MapQuery.Memory.Engine
import MapQuery.Memory.Town
import MapQuery.Proofs.Assistant.Completions
import MapQuery.Proofs.Cache.Room
import MapQuery.Proofs.Schema.Unsupported

/-!
# How far a question gets

A question ends at the first step that cannot be taken: the project cannot be described, the model
fails, there is no action in the reply, or the action is carried out, whether or not it succeeds.
What the earlier steps did stays, and nothing else has happened (`Asking.ask_progress`): those who
look on were shown the steps up to there, the reply is remembered once there is one, and the host
is as the first action in the reply leaves it.

That a reply is found again right after it was stored needs a cache whose queue and replies belong
together. This is so for every cache that was empty in the beginning and has served requests
(`ReplyCache.IsReachable`). A question makes such requests, so whatever turns were taken before, it
is true of the caches when the next question is asked (`Desk.isReachable_session_takeAll`).
-/

namespace MapQuery

/-! ## A reply that was just used -/

namespace ReplyCache

variable {cache : ReplyCache} {prompt reply : String}

/-- The cache was empty in the beginning and has served requests. -/
def IsReachable (cache : ReplyCache) : Prop :=
  ∃ capacity requests, cache = (empty capacity).serveAll requests

private theorem isReachable_empty (capacity : Option ℕ) : (empty capacity).IsReachable :=
  ⟨capacity, [], rfl⟩

theorem IsReachable.serve (h : cache.IsReachable) (request : Request) :
    (cache.serve request).IsReachable := by
  obtain ⟨capacity, requests, rfl⟩ := h
  refine ⟨capacity, requests ++ [request], ?_⟩
  rw [serveAll, serveAll, List.foldl_concat]

theorem mem_newest_concat {capacity : Option ℕ} (hcapacity : capacity ≠ some 0)
    (keys : List String) (key : String) : key ∈ newest capacity (keys ++ [key]) := by
  rcases capacity with _ | _ | limit
  · exact List.mem_concat_self
  · exact absurd rfl hcapacity
  · rw [newest, List.rtake_concat_succ]
    exact List.mem_concat_self

/-- **A reply that was just stored** is found. -/
theorem IsReachable.reply?_put (h : cache.IsReachable) (hcapacity : cache.capacity ≠ some 0)
    (prompt reply : String) : (cache.put prompt reply).reply? prompt = some reply := by
  obtain ⟨capacity, requests, rfl⟩ := h
  have htracks := tracks_serveAll capacity requests
  have hafter := htracks.serve (.put prompt reply)
  refine (hafter.getElem?_eq_some_iff (promptKey prompt) reply).mpr ⟨?_, ?_⟩
  · simp [lastReply?, Request.replyFor?]
  · rw [ReplyCache.serve, htracks.recency_put]
    exact mem_newest_concat hcapacity _ _

/-- What becomes of a cache when there is a reply to a prompt: the reply is found in it, unless it
has no room for replies. -/
structure Keeps (prompt reply : String) (before after : ReplyCache) : Prop where
  capacity_eq : after.capacity = before.capacity
  reachable : after.IsReachable
  get_eq (hcapacity : after.capacity ≠ some 0) : (after.get prompt).1 = some reply

private theorem IsReachable.keeps_get (h : cache.IsReachable)
    (hreply : cache.reply? prompt = some reply) :
    Keeps prompt reply cache (cache.get prompt).2 where
  capacity_eq := capacity_serve cache (.get prompt)
  reachable := h.serve (.get prompt)
  get_eq _ := by rw [get_fst, reply?, replies_get_snd, ← reply?, hreply]

private theorem IsReachable.keeps_put (h : cache.IsReachable) (prompt reply : String) :
    Keeps prompt reply cache (cache.put prompt reply) where
  capacity_eq := capacity_serve cache (.put prompt reply)
  reachable := h.serve (.put prompt reply)
  get_eq hcapacity := by
    have hbefore : cache.capacity ≠ some 0 := by
      rwa [← capacity_serve cache (.put prompt reply)]
    rw [get_fst, h.reply?_put hbefore]

end ReplyCache

/-! ## The first action -/

private theorem compile_action_eq_some_iff {code : String} {action : Action} :
    (compile code).action = some action ↔
      ∃ program, tryCompile code = .ok program ∧ program.actions.head? = some action := by
  rw [compile]
  cases tryCompile code <;> simp [Program.firstAction]

variable {π δ β : Type} [Dataset δ] [Project π δ]

/-! ## What is shown -/

/-- Whether the event is shown to those who look on. That the model is asked is not. -/
def Event.isShown : Event → Bool
  | asked _ _ => false
  | _ => true

namespace Session

variable {complete : String → Except CompletionError String} {session : Session π β}
  {prompt reply : String}

/-- What was shown, in its order. -/
def shown (session : Session π β) : List Event := session.events.filter Event.isShown

/-- The reply to a prompt: the one that is remembered, and otherwise the one of the model. -/
def replyTo (complete : String → Except CompletionError String) (session : Session π β)
    (prompt : String) : Except CompletionError String :=
  (session.recall? prompt).elim (complete prompt) .ok

private theorem replyTo_eq_ok_iff : session.replyTo complete prompt = .ok reply ↔
    session.recall? prompt = some reply ∨
      session.recall? prompt = none ∧ complete prompt = .ok reply := by
  rw [replyTo]
  cases session.recall? prompt <;> simp

/-- The caches can come about. -/
def IsReachable (session : Session π β) : Prop := ∀ cache ∈ session.cache, cache.IsReachable

end Session

variable [Processing β δ]

namespace Asking

variable {settings : Settings} {complete : String → Except CompletionError String}
  {question prompt reply code : String} {session : Session π β} {action : Action}

private theorem shown_finish (settings : Settings) (reply : String) (session : Session π β) :
    (finish settings reply session).2.shown
      = session.shown ++ .coded (Reply.code reply) :: choice (Reply.code reply) := by
  have hchoice : (choice (Reply.code reply)).filter Event.isShown = choice (Reply.code reply) := by
    rw [choice, List.filter_map]
    exact congrArg _ (List.filter_eq_self.mpr fun _ _ ↦ rfl)
  rw [Session.shown, finish_events, List.filter_append, List.filter_cons_of_pos rfl, hchoice,
    Session.shown]

/-- **Once there is a reply** it is remembered, and the question ends as the reply says. -/
theorem ask_of_replyTo (hprompt : session.prompt? question = some prompt)
    (hreply : session.replyTo complete prompt = .ok reply) (hcache : session.IsReachable) :
    ∃ ready : Session π β, ask settings complete question session = finish settings reply ready ∧
      ready.host = session.host ∧ ready.shown = session.shown ++ [.prompted prompt] ∧
      ∀ before ∈ session.cache, ∃ after ∈ ready.cache, before.Keeps prompt reply after := by
  have hshown : (session.log [.prompted prompt]).shown = session.shown ++ [.prompted prompt] :=
    List.filter_append _ _
  rcases Session.replyTo_eq_ok_iff.mp hreply with hrecall | ⟨hrecall, hcomplete⟩
  · refine ⟨_, ask_of_recalled hprompt hrecall, rfl, hshown, fun before hbefore ↦ ?_⟩
    refine ⟨_, Option.mem_map_of_mem _ hbefore, (hcache before hbefore).keeps_get ?_⟩
    rw [← hrecall, Session.recall?, Option.mem_def.mp hbefore, Option.bind_some]
  · have hasked : (session.log [.prompted prompt, .asked prompt (.ok reply)]).shown
        = session.shown ++ [.prompted prompt] := List.filter_append _ _
    refine ⟨_, ask_of_replied hprompt hrecall hcomplete, rfl, hasked, fun before hbefore ↦ ?_⟩
    exact ⟨_, Option.mem_map_of_mem _ hbefore, (hcache before hbefore).keeps_put prompt reply⟩

theorem carryOut_of_none (h : (compile code).action = none) (settings : Settings)
    (host : Host π β) :
    carryOut settings code host
      = (.ok ⟨none, none, (compile code).warnings.map (·.message)⟩, host) := by
  rw [carryOut, h]

private theorem carryOut_of_some (h : (compile code).action = some action) (settings : Settings)
    (host : Host π β) :
    carryOut settings code host
      = (((Host.execute settings action host).1.mapError .execution).map fun sentence ↦
          ⟨some action, some sentence, (compile code).warnings.map (·.message)⟩,
        (Host.execute settings action host).2) := by
  rw [carryOut, h]
  dsimp only
  cases (Host.execute settings action host).1 <;> rfl

/-- **A question has effects as far as it gets.** If the project cannot be described, the error
names the first field that has no place in questions, and nothing else has happened. If there is no
reply, only the prompt was shown, and the cache and the host are as before. If there is a reply, it
is in the cache unless there is no room. If it has no action, the prompt and the code were shown,
and the host is as before. Otherwise the action, which is the first one, was shown too, and the
host is as it leaves it, whether or not it succeeds. -/
theorem ask_progress (settings : Settings)
    (complete : String → Except CompletionError String) (question : String)
    {session : Session π β} (hcache : session.IsReachable) :
    let after := ask settings complete question session
    (∀ layer field, firstUnsupported? session.host.project = some (layer, field) →
      after = (.error (.schema
        (.unsupportedFieldType (Dataset.name layer) field.name field.type)), session)) ∧
    (firstUnsupported? session.host.project = none → ∃ prompt,
      session.prompt? question = some prompt ∧
      (∀ cause, session.recall? prompt = none → complete prompt = .error cause →
        after.1 = .error (.completion cause) ∧
          after.2.shown = session.shown ++ [.prompted prompt] ∧
          after.2.cache = session.cache ∧ after.2.host = session.host) ∧
      ∀ reply, session.replyTo complete prompt = .ok reply →
        let code := Reply.code reply
        let warnings := (compile code).warnings.map (·.message)
        (∀ cache ∈ session.cache, ∃ cache' ∈ after.2.cache, cache.Keeps prompt reply cache') ∧
        ((compile code).action = none →
          after.1 = .ok ⟨none, none, warnings⟩ ∧
            after.2.shown = session.shown ++ [.prompted prompt, .coded code] ∧
            after.2.host = session.host) ∧
        ∀ action, (compile code).action = some action →
          (∃ program, tryCompile code = .ok program ∧ program.actions.head? = some action) ∧
            after.2.shown
              = session.shown ++ [.prompted prompt, .coded code, .chosen action] ∧
            after.2.host = (Host.execute settings action session.host).2 ∧
            after.1 = ((Host.execute settings action session.host).1.mapError .execution).map
              fun sentence ↦ ⟨some action, some sentence, warnings⟩) := by
  intro after
  refine ⟨fun layer field hfirst ↦ ask_of_undescribed (describeProject_of_firstUnsupported? hfirst),
    fun hnone ↦ ?_⟩
  obtain ⟨schema, hschema⟩ := exists_describeProject_eq_ok_iff.mpr hnone
  let prompt := Prompt.render schema question
  have hprompt : session.prompt? question = some prompt :=
    Session.prompt?_eq_some_iff.mpr ⟨schema, hschema, rfl⟩
  refine ⟨prompt, hprompt, fun cause hrecall hcomplete ↦ ?_, ?_⟩
  · have hafter : after = _ := ask_of_failed hprompt hrecall hcomplete
    rw [hafter]
    exact ⟨rfl, List.filter_append _ _, rfl, rfl⟩
  · intro reply hreply code warnings
    obtain ⟨ready, hask, hhost, hshown, hkeeps⟩ := ask_of_replyTo hprompt hreply hcache
    have hafter : after = finish settings reply ready := hask
    rw [hafter, finish_fst, finish_host, finish_cache, shown_finish, hhost, hshown, choice]
    refine ⟨hkeeps, fun haction ↦ ?_, fun action haction ↦ ?_⟩
    · rw [haction, carryOut_of_none haction]
      exact ⟨rfl, List.append_assoc _ _ _, rfl⟩
    · rw [haction, carryOut_of_some haction]
      exact ⟨compile_action_eq_some_iff.mp haction, List.append_assoc _ _ _, rfl, rfl⟩

open Memory in
/-- The first of two actions fails. It was shown, and the second one was not carried out. -/
theorem ask_progress_town :
    let reply := "```python\nselect(get_layer('Rivers'))\ncount(get_layer('Roads'))\n```"
    let session : Session Workspace Engine :=
      ⟨some (.empty (some 1)), ⟨Town.workspace, .new⟩, []⟩
    let after := ask .default (fun _ ↦ .ok reply) "How many roads are there?" session
    session.IsReachable ∧ ∃ prompt action,
      (Host.execute .default action session.host).1.toOption = none ∧
        after.2.shown = [.prompted prompt, .coded (Reply.code reply), .chosen action] ∧
        after.2.host = (Host.execute .default action session.host).2 := by
  intro reply session
  have hcache : session.IsReachable := by
    intro cache hmem
    obtain rfl := Option.mem_some_iff.mp hmem
    exact ReplyCache.isReachable_empty (some 1)
  have hnone : firstUnsupported? session.host.project = none := by decide +kernel
  obtain ⟨-, hprogress⟩ :=
    ask_progress .default (fun _ ↦ .ok reply) "How many roads are there?" hcache
  -- The question is known by what is said about it from here on; its key is not computed.
  generalize ask .default (fun _ ↦ .ok reply) "How many roads are there?" session = last
    at hprogress ⊢
  obtain ⟨prompt, -, -, hreplies⟩ := hprogress hnone
  have hrecall : session.recall? prompt = none := Std.TreeMap.getElem?_emptyc
  have hreply : session.replyTo (fun _ ↦ .ok reply) prompt = .ok reply :=
    Session.replyTo_eq_ok_iff.mpr (Or.inr ⟨hrecall, rfl⟩)
  have haction : (compile (Reply.code reply)).action = some ⟨.select, .source "Rivers"⟩ := by
    decide +kernel
  have hfails : (Host.execute .default ⟨.select, .source "Rivers"⟩ session.host).1.toOption
      = none := by decide +kernel
  obtain ⟨-, hshown, hhost, -⟩ := (hreplies reply hreply).2.2 _ haction
  exact ⟨hcache, prompt, _, hfails, hshown, hhost⟩

end Asking

/-! ## Turns -/

/-- A question makes requests to the memory and does nothing else to it. -/
theorem Course.isReachable {complete : String → Except CompletionError String}
    {memory after : Option ReplyCache} {prompt? : Option String} {events : List Event}
    (h : Course complete memory prompt? events after)
    (hmemory : ∀ cache ∈ memory, cache.IsReachable) : ∀ cache ∈ after, cache.IsReachable := by
  cases h with
  | undescribed => exact hmemory
  | recalled prompt code =>
    exact Option.forall_mem_map.mpr fun cache hcache ↦ (hmemory cache hcache).serve (.get prompt)
  | failed => exact hmemory
  | replied =>
    exact Option.forall_mem_map.mpr fun cache hcache ↦ (hmemory cache hcache).serve (.put _ _)

namespace Desk

variable {desk : Desk π β}

def IsReachable (desk : Desk π β) : Prop := ∀ cache ∈ desk.caches, cache.IsReachable

theorem IsReachable.session (h : desk.IsReachable) (turn : Turn π β) :
    (session turn desk).IsReachable := by
  intro cache hcache
  obtain ⟨place, -, hplace⟩ := Option.bind_eq_some_iff.mp hcache
  exact h cache (List.mem_of_getElem? hplace)

theorem IsReachable.take (h : desk.IsReachable) (turn : Turn π β) :
    (take turn desk).2.IsReachable := by
  obtain ⟨after, hcourse, hcaches⟩ := course_take turn desk
  intro cache hcache
  rw [hcaches] at hcache
  rcases mem_of_mem_replaceCache hcache with hmem | hmem
  · exact h cache hmem
  · exact hcourse.isReachable (h.session turn) cache hmem

theorem IsReachable.takeAll (h : desk.IsReachable) (turns : List (Turn π β)) :
    (takeAll turns desk).2.IsReachable := by
  induction turns generalizing desk with
  | nil => exact h
  | cons turn turns ih => exact ih (h.take turn)

/-- Whatever turns were taken, the next question is asked with caches that can come about. -/
theorem isReachable_session_takeAll (capacities : List (Option ℕ)) (host : Host π β)
    (turns : List (Turn π β)) (turn : Turn π β) :
    (session turn (Desk.takeAll turns ⟨capacities.map .empty, host⟩).2).IsReachable := by
  have hempty : (⟨capacities.map .empty, host⟩ : Desk π β).IsReachable := by
    intro cache hcache
    obtain ⟨capacity, -, rfl⟩ := List.mem_map.mp hcache
    exact ReplyCache.isReachable_empty capacity
  exact (hempty.takeAll turns).session turn

end Desk

end MapQuery
