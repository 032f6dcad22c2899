import MapQuery.Assistant.Session
import MapQuery.Proofs.Cache.Contents
import MapQuery.Proofs.Host.Computation

/-!
# The course of a question

A question can go in four ways. The project cannot be described, and nothing happens. Or a prompt is
written; then the reply is remembered, or the model is asked and fails, or it is asked and replies.
Only in the last case something is stored. Once there is a reply, all the rest depends on the reply
and the host alone (`Asking.finish`).

So there is one equation for each of the four ways (`Asking.ask_of_undescribed`,
`Asking.ask_of_recalled`, `Asking.ask_of_failed`, `Asking.ask_of_replied`), and together they say
all that a question does.

Questions are asked in turns. Each is put to one of the assistants, and each time the model may be
another one and the host may have changed.
-/

namespace MapQuery

variable {π δ β : Type} [Dataset δ] [Project π δ]

/-! ## Sessions -/

/-- The reply to a prompt that is remembered, if there is a memory. -/
def Session.recall? (session : Session π β) (prompt : String) : Option String :=
  session.cache.bind (·.reply? prompt)

/-- The prompt for a question, if the project can be described. -/
def Session.prompt? (session : Session π β) (question : String) : Option String :=
  (describeProject session.host.project).toOption.map (Prompt.render · question)

theorem Session.prompt?_eq_some_iff {session : Session π β} {question prompt : String} :
    session.prompt? question = some prompt ↔
      ∃ schema, describeProject session.host.project = .ok schema ∧
        Prompt.render schema question = prompt := by
  rw [prompt?]
  cases describeProject session.host.project <;> simp [Except.toOption]

theorem Session.prompt?_eq_none_iff {session : Session π β} {question : String} :
    session.prompt? question = none ↔
      ∃ cause, describeProject session.host.project = .error cause := by
  rw [prompt?]
  cases describeProject session.host.project <;> simp [Except.toOption]

/-- The session with more events. -/
def Session.log (session : Session π β) (events : List Event) : Session π β :=
  { session with events := session.events ++ events }

@[simp] theorem Session.log_log (session : Session π β) (events events' : List Event) :
    (session.log events).log events' = session.log (events ++ events') := by
  rw [log, log, log, List.append_assoc]

variable [Processing β δ]

/-! ## From the reply on -/

namespace Asking

variable {settings : Settings} {complete : String → Except CompletionError String}
  {question prompt reply : String} {session : Session π β}

/-- The event that the first action in the code is chosen, if there is one. -/
def choice (code : String) : List Event := (compile code).action.toList.map .chosen

/-- What carrying out the first action in the code comes to. -/
def carryOut (settings : Settings) (code : String) (host : Host π β) :
    Except AskError Answer × Host π β :=
  let warnings := (compile code).warnings.map (·.message)
  match (compile code).action with
  | none => (.ok ⟨none, none, warnings⟩, host)
  | some action =>
    let outcome := Host.execute settings action host
    match outcome.1 with
    | .error cause => (.error (.execution cause), outcome.2)
    | .ok sentence => (.ok ⟨some action, some sentence, warnings⟩, outcome.2)

private theorem onHost_of_ok {α : Type} {x : Execution (Host π β) α} {a : α} {host : Host π β}
    (session : Session π β) (h : x session.host = (.ok a, host)) :
    onHost x session = (.ok a, { session with host }) := by
  rw [onHost, h]
  rfl

private theorem onHost_of_error {α : Type} {x : Execution (Host π β) α} {cause : ExecutionError}
    {host : Host π β} (session : Session π β) (h : x session.host = (.error cause, host)) :
    onHost x session = (.error (.execution cause), { session with host }) := by
  rw [onHost, h]
  rfl

private theorem act_apply (settings : Settings) (code : String) (session : Session π β) :
    act settings code session
      = ((carryOut settings code session.host).1,
        { session.log (choice code) with host := (carryOut settings code session.host).2 }) := by
  rw [act, carryOut, choice]
  cases (compile code).action with
  | none =>
    rw [Option.toList_none, List.map_nil, Session.log, List.append_nil]
    rfl
  | some action =>
    have hrecord : record (.chosen action) session = (.ok (), session.log [.chosen action]) := rfl
    dsimp only
    rw [bind_apply_of_ok hrecord]
    rcases hrun : Host.execute settings action session.host with ⟨cause | sentence, host⟩
    · exact bind_apply_of_error (onHost_of_error _ hrun)
    · exact bind_apply_of_ok (onHost_of_ok _ hrun)

/-- What a question comes to once there is a reply. -/
def finish (settings : Settings) (reply : String) (session : Session π β) :
    Except AskError Answer × Session π β :=
  let code := Reply.code reply
  let outcome := carryOut settings code session.host
  (outcome.1, { session.log (.coded code :: choice code) with host := outcome.2 })

section Finish

variable (settings : Settings) (reply : String) (session : Session π β)

@[simp] theorem finish_fst :
    (finish settings reply session).1
      = (carryOut settings (Reply.code reply) session.host).1 := by
  dsimp only [finish]

@[simp] theorem finish_host :
    (finish settings reply session).2.host
      = (carryOut settings (Reply.code reply) session.host).2 := by
  dsimp only [finish]

@[simp] theorem finish_cache : (finish settings reply session).2.cache = session.cache := by
  dsimp only [finish, Session.log]

@[simp] theorem finish_events :
    (finish settings reply session).2.events
      = session.events ++ .coded (Reply.code reply) :: choice (Reply.code reply) := by
  dsimp only [finish, Session.log]

end Finish

private theorem record_act_apply (settings : Settings) (reply : String) (session : Session π β) :
    (do
      record (.coded (Reply.code reply))
      act settings (Reply.code reply) : Asking π β Answer) session
      = finish settings reply session := by
  have hrecord : record (.coded (Reply.code reply)) session
      = (.ok (), session.log [.coded (Reply.code reply)]) := rfl
  rw [bind_apply_of_ok hrecord, act_apply, Session.log_log, List.singleton_append, finish]
  rfl

/-! ## The reply -/

private theorem replyTo_of_recalled (session : Session π β)
    (h : session.recall? prompt = some reply) :
    replyTo complete prompt session
      = (.ok reply,
        { session with cache := session.cache.map fun cache ↦ (cache.get prompt).2 }) := by
  obtain ⟨_ | cache, host, events⟩ := session
  · cases h
  · have hget : (cache.get prompt).1 = some reply := (cache.get_fst prompt).trans h
    have hremembered : remembered? prompt (⟨some cache, host, events⟩ : Session π β)
        = (.ok (some reply), ⟨some (cache.get prompt).2, host, events⟩) := by
      rw [← hget]
      rfl
    rw [replyTo, bind_apply_of_ok hremembered]
    rfl

theorem remembered?_of_recall?_eq_none (session : Session π β)
    (h : session.recall? prompt = none) :
    remembered? prompt session = (.ok none, session) := by
  obtain ⟨_ | cache, host, events⟩ := session
  · rfl
  · have hget : cache.get prompt = (none, cache) :=
      Prod.ext ((cache.get_fst prompt).trans h) (ReplyCache.get_snd_of_reply?_eq_none h)
    change ((.ok (cache.get prompt).1, ⟨some (cache.get prompt).2, host, events⟩) :
      Except AskError (Option String) × Session π β) = _
    rw [hget]

private theorem replyTo_of_failed {cause : CompletionError} (session : Session π β)
    (h : session.recall? prompt = none) (hcomplete : complete prompt = .error cause) :
    replyTo complete prompt session
      = (.error (.completion cause), session.log [.asked prompt (.error cause)]) := by
  rw [replyTo, bind_apply_of_ok (remembered?_of_recall?_eq_none session h), hcomplete]
  rfl

private theorem replyTo_of_replied (session : Session π β) (h : session.recall? prompt = none)
    (hcomplete : complete prompt = .ok reply) :
    replyTo complete prompt session
      = (.ok reply, { session.log [.asked prompt (.ok reply)] with
          cache := session.cache.map (·.put prompt reply) }) := by
  rw [replyTo, bind_apply_of_ok (remembered?_of_recall?_eq_none session h), hcomplete]
  rfl

/-! ## The four ways -/

theorem ask_of_undescribed {cause : SchemaError}
    (h : describeProject session.host.project = .error cause) :
    ask settings complete question session = (.error (.schema cause), session) := by
  have hprompt : promptFor question session = (.error (.schema cause), session) := by
    refine (bind_apply_of_ok (by rfl)).trans ?_
    rw [h]
    rfl
  rw [ask, bind_apply_of_error hprompt]

theorem ask_of_prompt?_eq_some (h : session.prompt? question = some prompt) :
    ask settings complete question session
      = (do
          let reply ← replyTo complete prompt
          record (.coded (Reply.code reply))
          act settings (Reply.code reply) : Asking π β Answer)
        (session.log [.prompted prompt]) := by
  obtain ⟨schema, hschema, rfl⟩ := Session.prompt?_eq_some_iff.mp h
  have hprompt : promptFor question session = (.ok (Prompt.render schema question), session) := by
    refine (bind_apply_of_ok (by rfl)).trans ?_
    rw [hschema]
    rfl
  have hrecord : record (.prompted (Prompt.render schema question)) session
      = (.ok (), session.log [.prompted (Prompt.render schema question)]) := rfl
  rw [ask, bind_apply_of_ok hprompt, bind_apply_of_ok hrecord]

theorem ask_of_recalled (h : session.prompt? question = some prompt)
    (hrecall : session.recall? prompt = some reply) :
    ask settings complete question session
      = finish settings reply
        { session.log [.prompted prompt] with
          cache := session.cache.map fun cache ↦ (cache.get prompt).2 } := by
  rw [ask_of_prompt?_eq_some h,
    bind_apply_of_ok (replyTo_of_recalled (session.log [.prompted prompt]) hrecall),
    record_act_apply]
  rfl

theorem ask_of_failed {cause : CompletionError} (h : session.prompt? question = some prompt)
    (hrecall : session.recall? prompt = none) (hcomplete : complete prompt = .error cause) :
    ask settings complete question session
      = (.error (.completion cause),
        session.log [.prompted prompt, .asked prompt (.error cause)]) := by
  rw [ask_of_prompt?_eq_some h,
    bind_apply_of_error (replyTo_of_failed (session.log [.prompted prompt]) hrecall hcomplete),
    Session.log_log, List.singleton_append]

theorem ask_of_replied (h : session.prompt? question = some prompt)
    (hrecall : session.recall? prompt = none) (hcomplete : complete prompt = .ok reply) :
    ask settings complete question session
      = finish settings reply
        { session.log [.prompted prompt, .asked prompt (.ok reply)] with
          cache := session.cache.map (·.put prompt reply) } := by
  rw [ask_of_prompt?_eq_some h,
    bind_apply_of_ok (replyTo_of_replied (session.log [.prompted prompt]) hrecall hcomplete),
    record_act_apply, Session.log_log, List.singleton_append]
  rfl

end Asking

/-! ## Turns -/

structure Turn (π β : Type) where
  /-- What happens to the host before the question. It may also be replaced by another host. -/
  meanwhile : Host π β → Host π β
  assistant : Assistant
  /-- The model, as it is when the question is asked. -/
  complete : String → Except CompletionError String
  question : String

namespace Desk

/-- The cache of an assistant, if it remembers replies. -/
def memory (desk : Desk π β) (assistant : Assistant) : Option ReplyCache :=
  assistant.cache.bind (desk.caches[·]?)

theorem mem_of_mem_replaceCache {caches : List ReplyCache} {assistant : Assistant}
    {after : Option ReplyCache} {cache : ReplyCache}
    (h : cache ∈ replaceCache caches assistant after) : cache ∈ caches ∨ cache ∈ after := by
  unfold replaceCache at h
  split at h
  · rcases List.mem_or_eq_of_mem_set h with hmem | rfl
    · exact Or.inl hmem
    · exact Or.inr rfl
  · exact Or.inl h

/-- The session in which the question of a turn is asked. -/
def session (turn : Turn π β) (desk : Desk π β) : Session π β :=
  ⟨desk.memory turn.assistant, turn.meanwhile desk.host, []⟩

/-- Takes a turn. -/
def take (turn : Turn π β) (desk : Desk π β) :
    (Except AskError Answer × List Event) × Desk π β :=
  ask turn.assistant turn.complete turn.question { desk with host := turn.meanwhile desk.host }

theorem take_eq (turn : Turn π β) (desk : Desk π β) :
    take turn desk =
      let after :=
        Asking.ask turn.assistant.settings turn.complete turn.question (session turn desk)
      ((after.1, after.2.events),
        ⟨replaceCache desk.caches turn.assistant after.2.cache, after.2.host⟩) := rfl

/-- Takes turns, one after the other. -/
def takeAll : List (Turn π β) → Desk π β →
    List (Except AskError Answer × List Event) × Desk π β
  | [], desk => ([], desk)
  | turn :: turns, desk =>
    let (outcome, desk) := take turn desk
    let (outcomes, desk) := takeAll turns desk
    (outcome :: outcomes, desk)

@[simp] theorem takeAll_nil (desk : Desk π β) : takeAll [] desk = ([], desk) := rfl

@[simp] theorem takeAll_cons (turn : Turn π β) (turns : List (Turn π β)) (desk : Desk π β) :
    takeAll (turn :: turns) desk
      = ((take turn desk).1 :: (takeAll turns (take turn desk).2).1,
        (takeAll turns (take turn desk).2).2) := rfl

end Desk

end MapQuery
