import MapQuery.Memory.Engine
import MapQuery.Memory.Town
import MapQuery.Proofs.Assistant.Asking

/-!
# Remembering replies makes no difference

Let the model be a function of the prompt that does not tell apart two prompts with one key. Then a
memory changes nothing that can be seen: the answers, the project and what the engine is asked for
are those of assistants that remember nothing (`Desk.takeAll_forgetful`). Only the model is asked
less often.

All that is needed of a cache is that it is faithful: each reply that it knows is the one that the
model gives. A new cache knows nothing. Looking up leaves the replies as they are, storing a reply
of the model adds one of its replies, and dropping replies does no harm.
-/

namespace MapQuery

variable {π δ β : Type} [Dataset δ] [Project π δ] [Processing β δ]
  {complete : String → Except CompletionError String}

/-- The model does not tell apart two prompts with one key. -/
def RespectsKeys (complete : String → Except CompletionError String) : Prop :=
  ∀ prompt prompt', promptKey prompt = promptKey prompt' → complete prompt = complete prompt'

/-! ## Faithful caches -/

namespace ReplyCache

variable {cache : ReplyCache}

/-- Each reply that the cache knows is the one that the model gives. -/
def Faithful (complete : String → Except CompletionError String) (cache : ReplyCache) : Prop :=
  ∀ prompt reply, cache.reply? prompt = some reply → complete prompt = .ok reply

private theorem faithful_empty (complete : String → Except CompletionError String)
    (capacity : Option ℕ) : (empty capacity).Faithful complete := by
  intro prompt reply h
  rw [reply?, empty, Std.TreeMap.getElem?_emptyc] at h
  cases h

theorem Faithful.get (h : cache.Faithful complete) (prompt : String) :
    (cache.get prompt).2.Faithful complete := by
  intro prompt' reply hreply
  rw [reply?, replies_get_snd] at hreply
  exact h prompt' reply hreply

theorem Faithful.put (h : cache.Faithful complete) (hkeys : RespectsKeys complete)
    {prompt reply : String} (hcomplete : complete prompt = .ok reply) :
    (cache.put prompt reply).Faithful complete := by
  intro prompt' found hfound
  rcases getElem?_putKey_eq_some hfound with ⟨hkey, rfl⟩ | hbefore
  · exact (hkeys prompt' prompt hkey).trans hcomplete
  · exact h prompt' found hbefore

end ReplyCache

/-! ## One question -/

namespace Session

/-- The session without its memory. -/
def forget (session : Session π β) : Session π β := { session with cache := none }

/-- What the session remembers is what the model would reply. -/
def Faithful (complete : String → Except CompletionError String) (session : Session π β) : Prop :=
  ∀ cache ∈ session.cache, cache.Faithful complete

end Session

/-- **A question with and without memory.** The answer is the same, the host is left the same, and
the memory stays faithful. -/
theorem Asking.ask_forget (hkeys : RespectsKeys complete) (settings : Settings) (question : String)
    {session : Session π β} (h : session.Faithful complete) :
    let after := ask settings complete question session
    let after' := ask settings complete question session.forget
    after.1 = after'.1 ∧ after.2.host = after'.2.host ∧ after.2.Faithful complete := by
  intro after after'
  cases hprompt : session.prompt? question with
  | none =>
    obtain ⟨cause, hschema⟩ := Session.prompt?_eq_none_iff.mp hprompt
    have hafter : after = _ := ask_of_undescribed hschema
    have hafter' : after' = _ := ask_of_undescribed hschema
    rw [hafter, hafter']
    exact ⟨rfl, rfl, h⟩
  | some prompt =>
    have hprompt' : session.forget.prompt? question = some prompt := hprompt
    have hforgotten : session.forget.recall? prompt = none := rfl
    cases hrecall : session.recall? prompt with
    | some reply =>
      -- Without memory the model is asked, and gives the reply that is remembered.
      obtain ⟨cache, hcache, hreply⟩ := Option.bind_eq_some_iff.mp hrecall
      have hcomplete : complete prompt = .ok reply := h cache hcache prompt reply hreply
      have hafter : after = _ := ask_of_recalled hprompt hrecall
      have hafter' : after' = _ := ask_of_replied hprompt' hforgotten hcomplete
      rw [hafter, hafter']
      exact ⟨rfl, rfl, Option.forall_mem_map.mpr fun cache hcache ↦ (h cache hcache).get prompt⟩
    | none =>
      cases hcomplete : complete prompt with
      | error cause =>
        have hafter : after = _ := ask_of_failed hprompt hrecall hcomplete
        have hafter' : after' = _ := ask_of_failed hprompt' hforgotten hcomplete
        rw [hafter, hafter']
        exact ⟨rfl, rfl, h⟩
      | ok reply =>
        have hafter : after = _ := ask_of_replied hprompt hrecall hcomplete
        have hafter' : after' = _ := ask_of_replied hprompt' hforgotten hcomplete
        rw [hafter, hafter']
        exact ⟨rfl, rfl,
          Option.forall_mem_map.mpr fun cache hcache ↦ (h cache hcache).put hkeys hcomplete⟩

/-! ## Turns -/

/-- The turn with an assistant that remembers nothing. -/
def Turn.forgetful (turn : Turn π β) : Turn π β :=
  { turn with assistant := { turn.assistant with cache := none } }

namespace Desk

variable {turns : List (Turn π β)} {desk desk' : Desk π β}

/-- All that the desk remembers is what the model would reply. -/
def Faithful (complete : String → Except CompletionError String) (desk : Desk π β) : Prop :=
  ∀ cache ∈ desk.caches, cache.Faithful complete

theorem take_forgetful (hkeys : RespectsKeys complete) {turn : Turn π β}
    (hturn : turn.complete = complete) (h : desk.Faithful complete)
    (hhost : desk'.host = desk.host) :
    (take turn desk).1.1 = (take turn.forgetful desk').1.1 ∧
      (take turn desk).2.host = (take turn.forgetful desk').2.host ∧
      (take turn desk).2.Faithful complete := by
  subst hturn
  have hsession : (session turn desk).Faithful turn.complete := by
    intro cache hcache
    obtain ⟨place, -, hplace⟩ := Option.bind_eq_some_iff.mp hcache
    exact h cache (List.mem_of_getElem? hplace)
  have hforget : session turn.forgetful desk' = (session turn desk).forget := by
    rw [session, hhost]
    rfl
  obtain ⟨hanswer, hafter, hfaithful⟩ :=
    Asking.ask_forget hkeys turn.assistant.settings turn.question hsession
  rw [← hforget] at hanswer hafter
  refine ⟨hanswer, hafter, ?_⟩
  intro cache hcache
  rcases mem_of_mem_replaceCache hcache with hmem | hmem
  · exact h cache hmem
  · exact hfaithful cache hmem

/-- Turns with and without memory, from desks with the same host. -/
theorem takeAll_forgetful_of_faithful (hkeys : RespectsKeys complete)
    (hturns : ∀ turn ∈ turns, turn.complete = complete) (h : desk.Faithful complete)
    (hhost : desk'.host = desk.host) :
    let run := takeAll turns desk
    let run' := takeAll (turns.map Turn.forgetful) desk'
    run.1.map Prod.fst = run'.1.map Prod.fst ∧ run.2.host = run'.2.host := by
  induction turns generalizing desk desk' with
  | nil => exact ⟨rfl, hhost.symm⟩
  | cons turn turns ih =>
    obtain ⟨hturn, hturns⟩ := List.forall_mem_cons.mp hturns
    obtain ⟨hanswer, hafter, hfaithful⟩ := take_forgetful hkeys hturn h hhost
    obtain ⟨hanswers, hlast⟩ := ih hturns hfaithful hafter.symm
    exact ⟨List.cons_eq_cons.mpr ⟨hanswer, hanswers⟩, hlast⟩

/-- **Remembering replies makes no difference.** Assistants with one and the same model take turns;
some of them remember replies, alone or together, in caches of any capacities that are empty in the
beginning. If the model gives the same for prompts with one key, the answers and the host are in the
end those of assistants without memory. -/
theorem takeAll_forgetful (hkeys : RespectsKeys complete)
    (hturns : ∀ turn ∈ turns, turn.complete = complete) (capacities : List (Option ℕ))
    (host : Host π β) :
    let run := takeAll turns ⟨capacities.map .empty, host⟩
    let run' := takeAll (turns.map Turn.forgetful) ⟨[], host⟩
    run.1.map Prod.fst = run'.1.map Prod.fst ∧ run.2.host = run'.2.host := by
  refine takeAll_forgetful_of_faithful hkeys hturns ?_ rfl
  intro cache hcache
  obtain ⟨capacity, -, rfl⟩ := List.mem_map.mp hcache
  exact ReplyCache.faithful_empty complete capacity

open Memory in
/-- Two assistants, one with a cache for one reply and one with a cache without limit, and a model
that fails for a prompt without content. -/
theorem takeAll_forgetful_town :
    let complete : String → Except CompletionError String := fun prompt ↦
      if promptKey prompt = promptKey "" then .error ⟨"nothing to complete"⟩
      else .ok "count(get_layer('Roads'))"
    let turn (place : ℕ) (question : String) : Turn Workspace Engine :=
      ⟨id, ⟨.default, some place⟩, complete, question⟩
    let turns := [turn 0 "How many roads are there?", turn 0 "How many parks are there?",
      turn 1 "How many roads are there?", turn 0 "How many roads are there?"]
    let host : Host Workspace Engine := ⟨Town.workspace, .new⟩
    let capacities := [some 1, none]
    RespectsKeys complete ∧ (∀ turn ∈ turns, turn.complete = complete) ∧
      let run := takeAll turns ⟨capacities.map .empty, host⟩
      let run' := takeAll (turns.map Turn.forgetful) ⟨[], host⟩
      run.1.map Prod.fst = run'.1.map Prod.fst ∧ run.2.host = run'.2.host := by
  intro complete turn turns host capacities
  have hkeys : RespectsKeys complete := by
    intro prompt prompt' hkey
    simp only [complete, hkey]
  have hturns : ∀ turn ∈ turns, turn.complete = complete := by
    simp [turns, turn]
  exact ⟨hkeys, hturns, takeAll_forgetful hkeys hturns capacities host⟩

end Desk

end MapQuery
