import MapQuery.Memory.Engine
import MapQuery.Memory.Town
import MapQuery.Proofs.Assistant.Asking

/-!
# What the model is asked

Let assistants share a cache without limit. Whatever their models do, and whatever they are asked,
the model may fail for a key any number of times, but it replies once at most; then it is not asked
again, and all questions with this key are answered from the reply (`Desk.takeAll_completions`).

The cache knows all of this. What has been asked for a key are failures and then the reply that the
cache has for the key, if it has one (`ReplyCache.Records`). This is so in the beginning, and each
turn keeps it: the model is asked only if the cache has no reply, a failure leaves the cache as it
is, and a cache without limit never drops a reply.
-/

namespace MapQuery

variable {π δ β : Type} [Dataset δ] [Project π δ] [Processing β δ]

/-! ## Completions -/

/-- What came of it when the model was asked for a key, if this is the event. -/
def Event.completion? (key : String) : Event → Option (Except CompletionError String)
  | asked prompt reply => if promptKey prompt = key then some reply else none
  | _ => none

/-- What came of it, each time the model was asked for a key. -/
def completions (key : String) (events : List Event) : List (Except CompletionError String) :=
  events.filterMap (·.completion? key)

section Completions

variable {key prompt : String} {reply : Except CompletionError String} {events : List Event}

@[simp] theorem completions_append (key : String) (events events' : List Event) :
    completions key (events ++ events') = completions key events ++ completions key events' :=
  List.filterMap_append

@[simp] theorem completions_prompted_cons :
    completions key (.prompted prompt :: events) = completions key events := rfl

private theorem completions_asked_cons_of_eq (h : promptKey prompt = key) :
    completions key (.asked prompt reply :: events) = reply :: completions key events :=
  List.filterMap_cons_some (if_pos h)

private theorem completions_asked_cons_of_ne (h : promptKey prompt ≠ key) :
    completions key (.asked prompt reply :: events) = completions key events :=
  List.filterMap_cons_none (if_neg h)

/-- Once there is a reply, the model is not asked. -/
@[simp] theorem completions_coded_cons_choice (key code : String) :
    completions key (.coded code :: Asking.choice code) = [] := by
  simp [completions, Asking.choice, Event.completion?]

private theorem mem_completions_of_asked_mem (h : .asked prompt reply ∈ events) :
    reply ∈ completions (promptKey prompt) events :=
  List.mem_filterMap.mpr ⟨_, h, if_pos rfl⟩

end Completions

/-! ## What the cache knows of the completions -/

namespace ReplyCache

variable {cache : ReplyCache} {log : List Event} {prompt reply code : String}

/-- The model was asked until there was a reply, and the replies are those in the cache. -/
structure Records (cache : ReplyCache) (log : List Event) : Prop where
  capacity_eq : cache.capacity = none
  completions_eq (key : String) : ∃ failures : List CompletionError,
    completions key log = failures.map .error ++ cache.replies[key]?.toList.map .ok

namespace Records

theorem empty : (ReplyCache.empty none).Records [] where
  capacity_eq := rfl
  completions_eq key := by
    refine ⟨[], ?_⟩
    rw [ReplyCache.empty, Std.TreeMap.getElem?_emptyc]
    rfl

theorem recalled (h : cache.Records log) (prompt code : String) :
    (cache.get prompt).2.Records
      (log ++ .prompted prompt :: .coded code :: Asking.choice code) where
  capacity_eq := (capacity_serve cache (.get prompt)).trans h.capacity_eq
  completions_eq key := by simpa using h.completions_eq key

theorem failed (h : cache.Records log) (hnone : cache.reply? prompt = none)
    (cause : CompletionError) :
    cache.Records (log ++ [.prompted prompt, .asked prompt (.error cause)]) where
  capacity_eq := h.capacity_eq
  completions_eq key := by
    obtain ⟨failures, hfailures⟩ := h.completions_eq key
    rw [completions_append, completions_prompted_cons]
    by_cases hkey : promptKey prompt = key
    · subst hkey
      rw [show cache.replies[promptKey prompt]? = none from hnone] at hfailures ⊢
      refine ⟨failures ++ [cause], ?_⟩
      rw [completions_asked_cons_of_eq rfl, hfailures]
      simp [completions]
    · refine ⟨failures, ?_⟩
      rw [completions_asked_cons_of_ne hkey, hfailures]
      exact List.append_nil _

theorem replied (h : cache.Records log) (hnone : cache.reply? prompt = none)
    (reply code : String) :
    (cache.put prompt reply).Records
      (log ++ .prompted prompt :: .asked prompt (.ok reply) :: .coded code
        :: Asking.choice code) where
  capacity_eq := (capacity_serve cache (.put prompt reply)).trans h.capacity_eq
  completions_eq key := by
    obtain ⟨failures, hfailures⟩ := h.completions_eq key
    refine ⟨failures, ?_⟩
    rw [completions_append, completions_prompted_cons, put,
      replies_putKey_of_unbounded h.capacity_eq]
    by_cases hkey : promptKey prompt = key
    · subst hkey
      rw [show cache.replies[promptKey prompt]? = none from hnone] at hfailures
      rw [completions_asked_cons_of_eq rfl, completions_coded_cons_choice, hfailures,
        Std.TreeMap.getElem?_insert_self]
      simp
    · have hcompare : compare (promptKey prompt) key ≠ .eq :=
        fun heq ↦ hkey (Std.LawfulEqCmp.compare_eq_iff_eq.mp heq)
      rw [completions_asked_cons_of_ne hkey, completions_coded_cons_choice, hfailures,
        Std.TreeMap.getElem?_insert, if_neg hcompare]
      exact List.append_nil _

theorem reply?_eq_some (h : cache.Records log) (hasked : .asked prompt (.ok reply) ∈ log) :
    cache.reply? prompt = some reply := by
  obtain ⟨failures, hfailures⟩ := h.completions_eq (promptKey prompt)
  have hmem := mem_completions_of_asked_mem hasked
  rw [hfailures] at hmem
  have hfound : cache.replies[promptKey prompt]? = some reply := by simpa using hmem
  exact hfound

end Records

end ReplyCache

/-! ## One question -/

/-- What a question does to the memory, by its prompt and what happens on the way. -/
inductive Course (complete : String → Except CompletionError String)
    (memory : Option ReplyCache) : Option String → List Event → Option ReplyCache → Prop
  | undescribed : Course complete memory none [] memory
  | recalled (prompt code : String) :
    Course complete memory (some prompt) (.prompted prompt :: .coded code :: Asking.choice code)
      (memory.map fun cache ↦ (cache.get prompt).2)
  | failed {prompt : String} {cause : CompletionError}
    (hnone : memory.bind (·.reply? prompt) = none) (hcomplete : complete prompt = .error cause) :
    Course complete memory (some prompt) [.prompted prompt, .asked prompt (.error cause)] memory
  | replied {prompt reply : String} (hnone : memory.bind (·.reply? prompt) = none)
    (hcomplete : complete prompt = .ok reply) (code : String) :
    Course complete memory (some prompt)
      (.prompted prompt :: .asked prompt (.ok reply) :: .coded code :: Asking.choice code)
      (memory.map (·.put prompt reply))

/-- Each question takes one of these courses. -/
theorem Asking.course_ask (settings : Settings)
    (complete : String → Except CompletionError String) (question : String)
    {session : Session π β} (hnew : session.events = []) :
    let after := (ask settings complete question session).2
    Course complete session.cache (session.prompt? question) after.events after.cache := by
  intro after
  cases hprompt : session.prompt? question with
  | none =>
    obtain ⟨cause, hschema⟩ := Session.prompt?_eq_none_iff.mp hprompt
    have hafter : after = session := congrArg Prod.snd (ask_of_undescribed hschema)
    rw [hafter, hnew]
    exact .undescribed
  | some prompt =>
    cases hrecall : session.recall? prompt with
    | some reply =>
      have hafter : after = _ := congrArg Prod.snd (ask_of_recalled hprompt hrecall)
      rw [hafter, finish_cache, finish_events, Session.log, hnew]
      exact .recalled prompt _
    | none =>
      cases hcomplete : complete prompt with
      | error cause =>
        have hafter : after = _ := congrArg Prod.snd (ask_of_failed hprompt hrecall hcomplete)
        rw [hafter, Session.log, hnew]
        exact .failed hrecall hcomplete
      | ok reply =>
        have hafter : after = _ := congrArg Prod.snd (ask_of_replied hprompt hrecall hcomplete)
        rw [hafter, finish_cache, finish_events, Session.log, hnew]
        exact .replied hrecall hcomplete _

namespace Course

variable {complete : String → Except CompletionError String} {memory after : Option ReplyCache}
  {prompt? : Option String} {events log : List Event} {prompt : String} {cache : ReplyCache}
  {completion : Except CompletionError String}

theorem prompted_mem_iff (h : Course complete memory prompt? events after) :
    .prompted prompt ∈ events ↔ prompt? = some prompt := by
  cases h <;> simp [Asking.choice, eq_comm]

/-- The model is asked for the prompt, and a failure of the model leaves the memory as it is. -/
theorem of_asked (h : Course complete memory prompt? events after)
    (hasked : .asked prompt completion ∈ events) :
    complete prompt = completion ∧ ∀ cause, completion = .error cause → after = memory := by
  cases h with
  | undescribed => cases hasked
  | recalled => simp [Asking.choice] at hasked
  | failed hnone hcomplete =>
    obtain ⟨rfl, rfl⟩ : prompt = _ ∧ completion = _ := by simpa using hasked
    exact ⟨hcomplete, fun _ _ ↦ rfl⟩
  | replied hnone hcomplete =>
    obtain ⟨rfl, rfl⟩ : prompt = _ ∧ completion = _ := by simpa [Asking.choice] using hasked
    refine ⟨hcomplete, fun cause hcause ↦ ?_⟩
    cases hcause

theorem records (h : Course complete (some cache) prompt? events after)
    (hrecords : cache.Records log) :
    ∃ cache', after = some cache' ∧ cache'.Records (log ++ events) := by
  cases h with
  | undescribed => exact ⟨cache, rfl, by rwa [List.append_nil]⟩
  | recalled prompt code => exact ⟨_, rfl, hrecords.recalled prompt code⟩
  | failed hnone => exact ⟨_, rfl, hrecords.failed hnone _⟩
  | replied hnone _ code => exact ⟨_, rfl, hrecords.replied hnone _ code⟩

end Course

/-! ## Questions that are answered from a reply -/

/-- The answer is that of the code in a reply: the action and the warnings are those of the code,
and the only thing that can fail is the action. -/
inductive Follows (reply : String) : Except AskError Answer → Prop
  | answered {answer : Answer} (action_eq : answer.action = (compile (Reply.code reply)).action)
    (warnings_eq : answer.warnings = (compile (Reply.code reply)).warnings.map (·.message)) :
    Follows reply (.ok answer)
  | failed (error : ExecutionError) : Follows reply (.error (.execution error))

/-- A question with this prompt was answered from a reply. The model was not asked. -/
structure AnsweredFrom (reply prompt : String) (outcome : Except AskError Answer × List Event) :
    Prop where
  events_eq : outcome.2
    = .prompted prompt :: .coded (Reply.code reply) :: Asking.choice (Reply.code reply)
  follows : Follows reply outcome.1

namespace Asking

variable {settings : Settings} {complete : String → Except CompletionError String}
  {question prompt reply : String} {session : Session π β}

private theorem follows_carryOut (settings : Settings) (reply : String) (host : Host π β) :
    Follows reply (carryOut settings (Reply.code reply) host).1 := by
  rw [carryOut]
  cases haction : (compile (Reply.code reply)).action with
  | none => exact .answered haction.symm (by dsimp only)
  | some action =>
    dsimp only
    cases (Host.execute settings action host).1 with
    | error error => exact .failed error
    | ok sentence => exact .answered haction.symm (by dsimp only)

/-- **A prompt that is remembered** is answered from the reply, whatever the model is. -/
theorem answeredFrom_ask (hnew : session.events = [])
    (hprompt : session.prompt? question = some prompt)
    (hrecall : session.recall? prompt = some reply) :
    AnsweredFrom reply prompt
        ((ask settings complete question session).1,
          (ask settings complete question session).2.events) ∧
      ∀ complete', ask settings complete' question session
        = ask settings complete question session := by
  have hask (complete' : String → Except CompletionError String) :
      ask settings complete' question session = _ := ask_of_recalled hprompt hrecall
  refine ⟨⟨?_, ?_⟩, fun complete' ↦ (hask complete').trans (hask complete).symm⟩
  · dsimp only
    rw [hask complete, finish_events, Session.log, hnew]
    rfl
  · dsimp only
    rw [hask complete, finish_fst]
    exact follows_carryOut settings reply session.host

end Asking

/-! ## Turns -/

namespace Desk

variable {turn : Turn π β} {turns : List (Turn π β)} {desk : Desk π β} {cache : ReplyCache}
  {log : List Event} {prompt reply : String}

theorem course_take (turn : Turn π β) (desk : Desk π β) :
    ∃ after, Course turn.complete (desk.memory turn.assistant)
        ((session turn desk).prompt? turn.question) (take turn desk).1.2 after ∧
      (take turn desk).2.caches = replaceCache desk.caches turn.assistant after := by
  have hnew : (session turn desk).events = [] := rfl
  exact ⟨_, Asking.course_ask turn.assistant.settings turn.complete turn.question hnew, rfl⟩

private theorem prompted_mem_take_iff :
    .prompted prompt ∈ (take turn desk).1.2 ↔
      (session turn desk).prompt? turn.question = some prompt := by
  obtain ⟨after, hcourse, -⟩ := course_take turn desk
  exact hcourse.prompted_mem_iff

private theorem replaceCache_memory (desk : Desk π β) (assistant : Assistant) :
    replaceCache desk.caches assistant (desk.memory assistant) = desk.caches := by
  unfold replaceCache
  split
  · rename_i place cache hplace hcache
    rw [memory, hplace] at hcache
    obtain ⟨hlt, rfl⟩ := List.getElem?_eq_some_iff.mp hcache
    exact List.set_getElem_self hlt
  · rfl

/-- The model is asked for the prompt, and **a failure of the model leaves the caches as they
are**. -/
theorem of_asked_take {completion : Except CompletionError String}
    (h : .asked prompt completion ∈ (take turn desk).1.2) :
    turn.complete prompt = completion ∧
      ∀ cause, completion = .error cause → (take turn desk).2.caches = desk.caches := by
  obtain ⟨after, hcourse, hcaches⟩ := course_take turn desk
  obtain ⟨hcomplete, hsame⟩ := hcourse.of_asked h
  refine ⟨hcomplete, fun cause hcause ↦ ?_⟩
  rw [hcaches, hsame cause hcause, replaceCache_memory]

theorem answeredFrom_take (hprompted : .prompted prompt ∈ (take turn desk).1.2)
    (hrecall : (session turn desk).recall? prompt = some reply) :
    AnsweredFrom reply prompt (take turn desk).1 ∧
      ∀ complete, take { turn with complete } desk = take turn desk := by
  obtain ⟨hanswered, hsame⟩ :=
    Asking.answeredFrom_ask rfl (prompted_mem_take_iff.mp hprompted) hrecall
  refine ⟨hanswered, fun complete ↦ ?_⟩
  rw [take_eq, take_eq]
  dsimp only
  rw [← hsame complete]
  rfl

/-! ### One cache for all -/

private theorem memory_of_shared {assistant : Assistant} (hassistant : assistant.cache = some 0)
    (hdesk : desk.caches = [cache]) : desk.memory assistant = some cache := by
  rw [memory, hassistant, hdesk]
  rfl

theorem exists_records_take (hturn : turn.assistant.cache = some 0) (hdesk : desk.caches = [cache])
    (h : cache.Records log) :
    ∃ cache', (take turn desk).2.caches = [cache'] ∧
      cache'.Records (log ++ (take turn desk).1.2) := by
  obtain ⟨after, hcourse, hcaches⟩ := course_take turn desk
  rw [memory_of_shared hturn hdesk] at hcourse
  obtain ⟨cache', rfl, hrecords⟩ := hcourse.records h
  refine ⟨cache', ?_, hrecords⟩
  unfold replaceCache at hcaches
  rw [hcaches, hdesk, hturn]
  rfl

theorem exists_records_takeAll (hturns : ∀ turn ∈ turns, turn.assistant.cache = some 0)
    (hdesk : desk.caches = [cache]) (h : cache.Records log) :
    ∃ cache', (takeAll turns desk).2.caches = [cache'] ∧
      cache'.Records (log ++ (takeAll turns desk).1.flatMap Prod.snd) := by
  -- The record grows at its end, and what a turn adds is there before the other turns begin.
  induction turns generalizing desk cache log with
  | nil => exact ⟨cache, hdesk, by rwa [takeAll, List.flatMap_nil, List.append_nil]⟩
  | cons turn turns ih =>
    obtain ⟨hturn, hturns⟩ := List.forall_mem_cons.mp hturns
    obtain ⟨cache', hcaches, hrecords⟩ := exists_records_take hturn hdesk h
    obtain ⟨last, hlast, hall⟩ := ih hturns hcaches hrecords
    refine ⟨last, hlast, ?_⟩
    rw [List.append_assoc] at hall
    exact hall

/-- **The model replies once at most for each key.** Assistants that share a cache without limit
take turns. For each key the model fails some times and then replies at most once, and is not asked
again. A question that is asked after the reply and has the same key is answered from it, whatever
the model is. A failure leaves the caches as they are. -/
theorem takeAll_completions (hturns : ∀ turn ∈ turns, turn.assistant.cache = some 0)
    (host : Host π β) :
    let run := takeAll turns ⟨[.empty none], host⟩
    (∀ key, ∃ (failures : List CompletionError) (success : Option String),
      completions key (run.1.flatMap Prod.snd)
        = failures.map .error ++ success.toList.map .ok) ∧
    (∀ outcome ∈ run.1, ∀ prompt reply, .asked prompt (.ok reply) ∈ outcome.2 →
      ∀ (turn : Turn π β) (prompt' : String), turn.assistant.cache = some 0 →
        promptKey prompt' = promptKey prompt → .prompted prompt' ∈ (take turn run.2).1.2 →
        AnsweredFrom reply prompt' (take turn run.2).1 ∧
          ∀ complete, take { turn with complete } run.2 = take turn run.2) ∧
    ∀ (turn : Turn π β) (desk : Desk π β) prompt completion,
      .asked prompt completion ∈ (take turn desk).1.2 →
        turn.complete prompt = completion ∧
          ∀ cause, completion = .error cause → (take turn desk).2.caches = desk.caches := by
  intro run
  have hdesk : (⟨[.empty none], host⟩ : Desk π β).caches = [.empty none] := rfl
  obtain ⟨cache, hcaches, hrecords⟩ := exists_records_takeAll hturns hdesk .empty
  rw [List.nil_append] at hrecords
  refine ⟨fun key ↦ ?_, ?_, fun turn desk prompt completion h ↦ of_asked_take h⟩
  · obtain ⟨failures, hfailures⟩ := hrecords.completions_eq key
    exact ⟨failures, _, hfailures⟩
  · intro outcome houtcome prompt reply hasked turn prompt' hturn hkey hprompted
    have hknown : cache.reply? prompt = some reply :=
      hrecords.reply?_eq_some (List.mem_flatMap.mpr ⟨outcome, houtcome, hasked⟩)
    have hreply : cache.reply? prompt' = some reply := by rwa [ReplyCache.reply?, hkey]
    refine answeredFrom_take hprompted ?_
    rwa [Session.recall?, session, memory_of_shared hturn hcaches]

open Memory in
/-- A model that replies once and is then offline. The second question is answered. -/
theorem takeAll_completions_offline :
    let reply := "count(get_layer('Roads'))"
    let turn (complete : String → Except CompletionError String) : Turn Workspace Engine :=
      ⟨id, ⟨.default, some 0⟩, complete, "How many roads are there?"⟩
    let online := turn fun _ ↦ .ok reply
    let offline := turn fun _ ↦ .error ⟨"offline"⟩
    let desk : Desk Workspace Engine := ⟨[.empty none], ⟨Town.workspace, .new⟩⟩
    (∀ turn ∈ [online], turn.assistant.cache = some 0) ∧
      ∃ prompt, .asked prompt (.ok reply) ∈ (take online desk).1.2 ∧
        AnsweredFrom reply prompt (take offline (take online desk).2).1 := by
  intro reply turn online offline desk
  have hturns : ∀ turn ∈ [online], turn.assistant.cache = some 0 := by
    simp [online, turn]
  have hdescribed : (describeProject Town.workspace).toOption.isSome = true := by decide +kernel
  obtain ⟨schema, hschema⟩ := Option.isSome_iff_exists.mp hdescribed
  have hsame : describeProject
        (Asking.carryOut .default (Reply.code reply)
          (⟨Town.workspace, .new⟩ : Host Workspace Engine)).2.project
      = describeProject Town.workspace := by decide +kernel
  let prompt := Prompt.render schema "How many roads are there?"
  have hprompt : (session online desk).prompt? online.question = some prompt :=
    congrArg (Option.map (Prompt.render · "How many roads are there?")) hschema
  have hnone : (session online desk).recall? prompt = none := Std.TreeMap.getElem?_emptyc
  have hask : Asking.ask online.assistant.settings online.complete online.question
      (session online desk) = _ := Asking.ask_of_replied hprompt hnone rfl
  have hcompletions := takeAll_completions hturns desk.host
  have htake := take_eq online desk
  have hrun : takeAll [online] ⟨[.empty none], desk.host⟩
      = ([(take online desk).1], (take online desk).2) := by
    rw [takeAll_cons, takeAll_nil]
  rw [hrun] at hcompletions
  rw [hask] at htake
  -- The turn is known by its equation from here on; its key is not computed.
  generalize take online desk = after at htake hcompletions
  have hasked : .asked prompt (.ok reply) ∈ after.1.2 := by
    rw [htake]
    dsimp only
    rw [Asking.finish_events]
    exact List.mem_append_left _ (List.mem_cons_of_mem _ List.mem_cons_self)
  have hhost : describeProject after.2.host.project = describeProject Town.workspace := by
    rw [htake]
    dsimp only
    rw [Asking.finish_host, show online.assistant.settings = .default from rfl]
    dsimp only [Session.log]
    rw [show (session online desk).host = ⟨Town.workspace, .new⟩ from rfl, hsame]
  have hagain : (session offline after.2).prompt? offline.question = some prompt := by
    rw [Session.prompt?, show (session offline after.2).host = after.2.host from rfl, hhost,
      hschema]
    rfl
  have hprompted := prompted_mem_take_iff.mpr hagain
  refine ⟨hturns, prompt, hasked, ?_⟩
  exact (hcompletions.2.1 _ List.mem_cons_self prompt reply hasked offline prompt rfl rfl
    hprompted).1

end Desk

end MapQuery
