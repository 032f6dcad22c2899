import MapQuery.Memory.Engine
import MapQuery.Memory.Town
import MapQuery.Proofs.Assistant.Asking
import MapQuery.Proofs.Text.Layout

/-!
# Fences around the code

A model may put code between fences, with the name of a language behind the first one and blanks
around it all. What is taken out of such a reply is what is taken out of the bare code
(`Reply.code_fenced`), to the last blank, so that the compiler says the same about both and points
to the same lines.

From a reply on, nothing but its code counts. So two models whose replies have the same code are
not told apart by the answers, neither now (`Asking.ask_alike`) nor in later turns
(`Desk.takeAll_fences`). What carries through the turns is that the caches have used the same keys
in the same order, and hold replies with the same code (`ReplyCache.Alike`): which replies are
dropped depends on the keys alone.
-/

namespace MapQuery

open Text

namespace Reply

/-! ## The code between fences -/

section Chars

variable {before name code after text : List Char}

private theorem dropFirstLine_append (hname : '\n' ∉ name) (rest : List Char) :
    dropFirstLine (name ++ '\n' :: rest) = rest := by
  have hline : ∀ c ∈ name, (c != '\n') = true := by
    intro c hc
    rw [bne_iff_ne]
    rintro rfl
    exact hname hc
  rw [dropFirstLine, List.dropWhile_append_of_pos hline, List.dropWhile_cons_of_neg]
  simp

private theorem dropClosingFence_append (code : List Char) :
    dropClosingFence (code ++ fence) = code := by
  rw [dropClosingFence, if_pos (List.isSuffixOf_iff_suffix.mpr (List.suffix_append code fence)),
    List.length_append, Nat.add_sub_cancel, List.take_left]

theorem trim_fences (inside : List Char) :
    trim (fence ++ inside ++ fence) = fence ++ inside ++ fence := by
  have hblank : ∀ c ∈ fence, isBlank c = false := by
    intro c hc
    obtain rfl : c = '`' := by simpa [fence] using hc
    decide
  have hne : fence ≠ [] := List.cons_ne_nil _ _
  refine trim_of_ends (fun c hc ↦ hblank c ?_) fun c hc ↦ hblank c ?_
  · exact List.mem_of_mem_head? hc
  · rw [List.getLast?_append_of_ne_nil _ hne] at hc
    exact List.mem_of_getLast? hc

/-- **What is taken out of a reply with fences** is the code between them. -/
theorem codeChars_fenced (hbefore : ∀ c ∈ before, isBlank c = true) (hname : '\n' ∉ name)
    (hafter : ∀ c ∈ after, isBlank c = true) :
    codeChars (before ++ (fence ++ (name ++ '\n' :: code) ++ fence) ++ after)
      = trimStart code := by
  have hprefix : fence.isPrefixOf (fence ++ (name ++ '\n' :: code) ++ fence) = true := by
    rw [List.isPrefixOf_iff_prefix, List.append_assoc]
    exact List.prefix_append _ _
  rw [codeChars, trim_append hbefore hafter, trim_fences, if_pos hprefix, List.append_assoc,
    List.drop_left, List.append_assoc, List.cons_append, dropFirstLine_append hname,
    dropClosingFence_append]

private theorem codeChars_of_plain (h : ¬fence <+: trim text) :
    codeChars text = trimStart text := by
  rw [codeChars, if_neg (fun hfence ↦ h (List.isPrefixOf_iff_prefix.mp hfence))]

@[simp] theorem trimStart_trimStart (text : List Char) :
    trimStart (trimStart text) = trimStart text :=
  List.dropWhile_idempotent _ _

end Chars

/-- A reply with the code between fences. Behind the first one stands the name of a language, and
around it all stand blanks. -/
inductive Fences (code : String) : String → Prop
  | intro {before name after : String} (hbefore : ∀ c ∈ before.toList, isBlank c = true)
    (hname : '\n' ∉ name.toList) (hafter : ∀ c ∈ after.toList, isBlank c = true) :
    Fences code (before ++ "```" ++ name ++ "\n" ++ code ++ "```" ++ after)

/-- The code does not look like a reply with fences itself. -/
def IsPlain (code : String) : Prop := ¬fence <+: trim code.toList

section Code

variable {code reply : String}

theorem Fences.code_eq (h : Fences code reply) :
    Reply.code reply = String.ofList (trimStart code.toList) := by
  obtain @⟨before, name, after, hbefore, hname, hafter⟩ := h
  have hchars : (before ++ "```" ++ name ++ "\n" ++ code ++ "```" ++ after).toList
      = before.toList ++ (fence ++ (name.toList ++ '\n' :: code.toList) ++ fence)
        ++ after.toList := by
    simp [fence]
  rw [Reply.code, hchars, codeChars_fenced hbefore hname hafter]

theorem IsPlain.code_eq (h : IsPlain code) :
    Reply.code code = String.ofList (trimStart code.toList) := by
  rw [Reply.code, codeChars_of_plain h]

/-- **Fences make no difference to the code.** -/
theorem code_fenced (hplain : IsPlain code) (h : Fences code reply) :
    Reply.code reply = Reply.code code :=
  h.code_eq.trans hplain.code_eq.symm

/-- The compiler looks at the code from its first character that is not blank anyway. -/
theorem compile_code (h : IsPlain code) : compile (Reply.code code) = compile code := by
  rw [h.code_eq, compile, tryCompile, String.toList_ofList, trimStart_trimStart]
  rfl

end Code

end Reply

variable {π δ β : Type} [Dataset δ] [Project π δ]

/-! ## Replies with the same code -/

/-- The models fail together, and otherwise give replies with the same code. -/
def SameCode (complete complete' : String → Except CompletionError String) : Prop :=
  ∀ prompt, (complete prompt).map Reply.code = (complete' prompt).map Reply.code

private theorem SameCode.failed_or_replied
    {complete complete' : String → Except CompletionError String}
    (h : SameCode complete complete') (prompt : String) :
    (∃ cause, complete prompt = .error cause ∧ complete' prompt = .error cause) ∨
      ∃ reply reply', complete prompt = .ok reply ∧ complete' prompt = .ok reply' ∧
        Reply.code reply = Reply.code reply' := by
  have hreplies := h prompt
  generalize complete prompt = completion, complete' prompt = completion' at hreplies ⊢
  rcases completion with cause | reply <;> rcases completion' with cause' | reply'
  · exact Or.inl ⟨cause, rfl, hreplies.symm⟩
  · cases hreplies
  · cases hreplies
  · exact Or.inr ⟨reply, reply', rfl, rfl, Except.ok.inj hreplies⟩

namespace ReplyCache

/-- There are replies with the same code under the same keys. -/
structure StoresAlike (replies replies' : Std.TreeMap String String) : Prop where
  size_eq : replies.size = replies'.size
  code_eq (key : String) : replies[key]?.map Reply.code = replies'[key]?.map Reply.code

section Stores

variable {replies replies' : Std.TreeMap String String} {reply reply' : String}

theorem StoresAlike.mem_iff (h : StoresAlike replies replies') (key : String) :
    key ∈ replies ↔ key ∈ replies' := by
  rw [Std.TreeMap.mem_iff_isSome_getElem?, Std.TreeMap.mem_iff_isSome_getElem?,
    ← Option.isSome_map (f := Reply.code), h.code_eq, Option.isSome_map]

theorem StoresAlike.insert (h : StoresAlike replies replies') (key : String)
    (hcode : Reply.code reply = Reply.code reply') :
    StoresAlike (replies.insert key reply) (replies'.insert key reply') := by
  refine ⟨?_, fun other ↦ ?_⟩
  · rw [Std.TreeMap.size_insert, Std.TreeMap.size_insert, h.size_eq]
    exact if_congr (h.mem_iff key) rfl rfl
  · rw [Std.TreeMap.getElem?_insert, Std.TreeMap.getElem?_insert, apply_ite (Option.map Reply.code),
      apply_ite (Option.map Reply.code), Option.map_some, Option.map_some, hcode, h.code_eq]

theorem StoresAlike.erase (h : StoresAlike replies replies') (key : String) :
    StoresAlike (replies.erase key) (replies'.erase key) := by
  refine ⟨?_, fun other ↦ ?_⟩
  · rw [Std.TreeMap.size_erase, Std.TreeMap.size_erase, h.size_eq]
    exact if_congr (h.mem_iff key) rfl rfl
  · rw [Std.TreeMap.getElem?_erase, Std.TreeMap.getElem?_erase, apply_ite (Option.map Reply.code),
      apply_ite (Option.map Reply.code), h.code_eq]

theorem StoresAlike.evict (h : StoresAlike replies replies') (limit : ℕ) (queue : List String) :
    StoresAlike (evict limit replies queue).1 (evict limit replies' queue).1 ∧
      (evict limit replies queue).2 = (evict limit replies' queue).2 := by
  induction queue generalizing replies replies' with
  | nil => exact ⟨h, rfl⟩
  | cons oldest rest ih =>
    rw [ReplyCache.evict, ReplyCache.evict, ← h.size_eq]
    by_cases hlimit : limit < replies.size
    · rw [if_pos hlimit, if_pos hlimit]
      exact ih (h.erase oldest)
    · rw [if_neg hlimit, if_neg hlimit]
      exact ⟨h, rfl⟩

end Stores

/-- The caches have used the same keys in the same order, and hold replies with the same code. -/
structure Alike (cache cache' : ReplyCache) : Prop where
  capacity_eq : cache.capacity = cache'.capacity
  recency_eq : cache.recency = cache'.recency
  stores : StoresAlike cache.replies cache'.replies

section Alike

variable {cache cache' : ReplyCache} {reply reply' : String}

theorem Alike.refl (cache : ReplyCache) : cache.Alike cache := ⟨rfl, rfl, rfl, fun _ ↦ rfl⟩

private theorem Alike.reply?_eq (h : cache.Alike cache') (prompt : String) :
    (cache.reply? prompt).map Reply.code = (cache'.reply? prompt).map Reply.code :=
  h.stores.code_eq (promptKey prompt)

theorem Alike.get (h : cache.Alike cache') (prompt : String) :
    (cache.get prompt).2.Alike (cache'.get prompt).2 := by
  have hreply := h.reply?_eq prompt
  rw [reply?, reply?] at hreply
  rw [ReplyCache.get, ReplyCache.get, getKey, getKey]
  cases hfound : cache.replies[promptKey prompt]? with
  | none =>
    rw [hfound, Option.map_none, eq_comm, Option.map_eq_none_iff] at hreply
    rwa [hreply]
  | some reply =>
    rw [hfound, Option.map_some, eq_comm, Option.map_eq_some_iff] at hreply
    obtain ⟨reply', hfound', -⟩ := hreply
    rw [hfound']
    exact ⟨h.capacity_eq, by rw [h.recency_eq], h.stores⟩

theorem Alike.put (h : cache.Alike cache') (prompt : String)
    (hcode : Reply.code reply = Reply.code reply') :
    (cache.put prompt reply).Alike (cache'.put prompt reply') := by
  have hstores := h.stores.insert (promptKey prompt) hcode
  have hqueue :
      (if promptKey prompt ∈ cache.replies then touch (promptKey prompt) cache.recency
        else cache.recency ++ [promptKey prompt])
      = if promptKey prompt ∈ cache'.replies then touch (promptKey prompt) cache'.recency
        else cache'.recency ++ [promptKey prompt] := by
    rw [h.recency_eq]
    exact if_congr (h.stores.mem_iff _) rfl rfl
  rw [ReplyCache.put, ReplyCache.put, putKey, putKey, hqueue, ← h.capacity_eq]
  by_cases hcapacity : cache.capacity = some 0
  · rwa [if_pos hcapacity, if_pos hcapacity]
  · rw [if_neg hcapacity, if_neg hcapacity]
    cases cache.capacity with
    | none => exact ⟨rfl, rfl, hstores⟩
    | some limit =>
      obtain ⟨hkept, hrest⟩ := hstores.evict limit _
      exact ⟨rfl, hrest, hkept⟩

private theorem rel_map {memory memory' : Option ReplyCache} {f g : ReplyCache → ReplyCache}
    (h : Option.Rel Alike memory memory')
    (hstep : ∀ {cache cache' : ReplyCache}, cache.Alike cache' → (f cache).Alike (g cache')) :
    Option.Rel Alike (memory.map f) (memory'.map g) := by
  cases h with
  | none => exact .none
  | some hcache => exact .some (hstep hcache)

end Alike

end ReplyCache

/-! ## One question -/

/-- The event with the code of the reply in place of the reply. -/
def Event.withCode : Event → Event
  | asked prompt reply => asked prompt (reply.map Reply.code)
  | event => event

namespace Session

/-- The sessions differ only in fences around the code of replies. -/
structure Alike (session session' : Session π β) : Prop where
  cache : Option.Rel ReplyCache.Alike session.cache session'.cache
  host_eq : session.host = session'.host
  events_eq : session.events.map Event.withCode = session'.events.map Event.withCode

variable {session session' : Session π β} {events events' : List Event}

private theorem Alike.prompt?_eq (h : session.Alike session') (question : String) :
    session.prompt? question = session'.prompt? question := by
  rw [prompt?, prompt?, h.host_eq]

private theorem Alike.recall?_eq (h : session.Alike session') (prompt : String) :
    (session.recall? prompt).map Reply.code = (session'.recall? prompt).map Reply.code := by
  have hmemory := h.cache
  rw [Session.recall?, Session.recall?]
  generalize session.cache = memory, session'.cache = memory' at hmemory ⊢
  cases hmemory with
  | none => rfl
  | some hcache => exact hcache.reply?_eq prompt

theorem Alike.log (h : session.Alike session')
    (hevents : events.map Event.withCode = events'.map Event.withCode) :
    (session.log events).Alike (session'.log events') := by
  refine ⟨h.cache, h.host_eq, ?_⟩
  rw [Session.log, Session.log, List.map_append, List.map_append, h.events_eq, hevents]

private theorem Alike.withCache (h : session.Alike session') {cache cache' : Option ReplyCache}
    (hcache : Option.Rel ReplyCache.Alike cache cache') :
    ({ session with cache } : Session π β).Alike { session' with cache := cache' } :=
  ⟨hcache, h.host_eq, h.events_eq⟩

end Session

variable [Processing β δ]

namespace Asking

variable {settings : Settings} {complete complete' : String → Except CompletionError String}
  {question prompt reply reply' : String} {session session' : Session π β}

/-- From the reply on nothing but its code counts. -/
theorem finish_alike (h : session.Alike session') (hcode : Reply.code reply = Reply.code reply') :
    (finish settings reply session).1 = (finish settings reply' session').1 ∧
      (finish settings reply session).2.Alike (finish settings reply' session').2 := by
  have hlog := h.log (rfl : (Event.coded (Reply.code reply) :: choice (Reply.code reply)).map
    Event.withCode = _)
  rw [finish, finish, ← hcode, ← h.host_eq]
  exact ⟨rfl, hlog.cache, rfl, hlog.events_eq⟩

/-- **A question to two models** whose replies have the same code. -/
theorem ask_alike (settings : Settings) (question : String)
    (hmodel : SameCode complete complete') (h : session.Alike session') :
    let after := ask settings complete question session
    let after' := ask settings complete' question session'
    after.1 = after'.1 ∧ after.2.Alike after'.2 := by
  intro after after'
  cases hprompt : session.prompt? question with
  | none =>
    obtain ⟨cause, hschema⟩ := Session.prompt?_eq_none_iff.mp hprompt
    have hschema' := hschema
    rw [h.host_eq] at hschema'
    have hafter : after = _ := ask_of_undescribed hschema
    have hafter' : after' = _ := ask_of_undescribed hschema'
    rw [hafter, hafter']
    exact ⟨rfl, h⟩
  | some prompt =>
    have hprompt' := hprompt
    rw [h.prompt?_eq] at hprompt'
    have hrecalls := h.recall?_eq prompt
    cases hrecall : session.recall? prompt with
    | some reply =>
      rw [hrecall, Option.map_some, eq_comm, Option.map_eq_some_iff] at hrecalls
      obtain ⟨reply', hrecall', hcode⟩ := hrecalls
      have hafter : after = _ := ask_of_recalled hprompt hrecall
      have hafter' : after' = _ := ask_of_recalled hprompt' hrecall'
      rw [hafter, hafter']
      exact finish_alike
        ((h.log rfl).withCache (ReplyCache.rel_map h.cache (·.get prompt))) hcode.symm
    | none =>
      rw [hrecall, Option.map_none, eq_comm, Option.map_eq_none_iff] at hrecalls
      rcases hmodel.failed_or_replied prompt with
        ⟨cause, hcomplete, hcomplete'⟩ | ⟨reply, reply', hcomplete, hcomplete', hcode⟩
      · have hafter : after = _ := ask_of_failed hprompt hrecall hcomplete
        have hafter' : after' = _ := ask_of_failed hprompt' hrecalls hcomplete'
        rw [hafter, hafter']
        exact ⟨rfl, h.log rfl⟩
      · have hafter : after = _ := ask_of_replied hprompt hrecall hcomplete
        have hafter' : after' = _ := ask_of_replied hprompt' hrecalls hcomplete'
        have hevents : [Event.prompted prompt, .asked prompt (.ok reply)].map Event.withCode
            = [Event.prompted prompt, .asked prompt (.ok reply')].map Event.withCode := by
          simp [Event.withCode, Except.map, hcode]
        rw [hafter, hafter']
        exact finish_alike
          ((h.log hevents).withCache (ReplyCache.rel_map h.cache (·.put prompt hcode))) hcode

end Asking

/-! ## Turns -/

/-- The second model puts fences around some of the replies of the first. -/
def AddsFences (complete complete' : String → Except CompletionError String) : Prop :=
  ∀ prompt, complete' prompt = complete prompt ∨
    ∃ code reply, complete prompt = .ok code ∧ complete' prompt = .ok reply ∧
      Reply.IsPlain code ∧ Reply.Fences code reply

private theorem AddsFences.sameCode {complete complete' : String → Except CompletionError String}
    (h : AddsFences complete complete') : SameCode complete complete' := by
  intro prompt
  rcases h prompt with heq | ⟨code, reply, hcode, hreply, hplain, hfences⟩
  · rw [heq]
  · rw [hcode, hreply, Except.map, Except.map, Reply.code_fenced hplain hfences]

/-- The turns are the same, but the model in the second may put fences around its replies. -/
def Turn.AddsFences (turn turn' : Turn π β) : Prop :=
  ∃ complete, MapQuery.AddsFences turn.complete complete ∧ turn' = { turn with complete }

namespace Desk

/-- The desks differ only in fences around the code of replies. -/
structure Alike (desk desk' : Desk π β) : Prop where
  caches : List.Forall₂ ReplyCache.Alike desk.caches desk'.caches
  host_eq : desk.host = desk'.host

section Caches

variable {caches caches' : List ReplyCache}

private theorem rel_getElem? (h : List.Forall₂ ReplyCache.Alike caches caches') (place : ℕ) :
    Option.Rel ReplyCache.Alike caches[place]? caches'[place]? := by
  induction h generalizing place with
  | nil => exact .none
  | cons hcache _ ih =>
    cases place with
    | zero => exact .some hcache
    | succ place => exact ih place

private theorem rel_set (h : List.Forall₂ ReplyCache.Alike caches caches')
    {cache cache' : ReplyCache} (hcache : cache.Alike cache') (place : ℕ) :
    List.Forall₂ ReplyCache.Alike (caches.set place cache) (caches'.set place cache') := by
  induction h generalizing place with
  | nil => exact .nil
  | cons hfirst hrest ih =>
    cases place with
    | zero => exact .cons hcache hrest
    | succ place => exact .cons hfirst (ih place)

private theorem rel_replaceCache (h : List.Forall₂ ReplyCache.Alike caches caches')
    (assistant : Assistant) {cache cache' : Option ReplyCache}
    (hcache : Option.Rel ReplyCache.Alike cache cache') :
    List.Forall₂ ReplyCache.Alike (replaceCache caches assistant cache)
      (replaceCache caches' assistant cache') := by
  unfold replaceCache
  cases assistant.cache with
  | none => exact h
  | some place =>
    cases hcache with
    | none => exact h
    | some hcache => exact rel_set h hcache place

end Caches

variable {turn turn' : Turn π β} {turns turns' : List (Turn π β)} {desk desk' : Desk π β}

theorem Alike.refl (desk : Desk π β) : desk.Alike desk :=
  ⟨List.forall₂_same.mpr fun cache _ ↦ .refl cache, rfl⟩

theorem Alike.memory (h : desk.Alike desk') (assistant : Assistant) :
    Option.Rel ReplyCache.Alike (desk.memory assistant) (desk'.memory assistant) := by
  unfold Desk.memory
  cases assistant.cache with
  | none => exact .none
  | some place => exact rel_getElem? h.caches place

theorem take_alike (hturn : turn.AddsFences turn') (h : desk.Alike desk') :
    (take turn desk).1.1 = (take turn' desk').1.1 ∧
      (take turn desk).1.2.map Event.withCode = (take turn' desk').1.2.map Event.withCode ∧
      (take turn desk).2.Alike (take turn' desk').2 := by
  obtain ⟨complete', hfences, rfl⟩ := hturn
  have hsession :
      (session turn desk).Alike (session { turn with complete := complete' } desk') :=
    ⟨h.memory turn.assistant, congrArg turn.meanwhile h.host_eq, rfl⟩
  obtain ⟨hanswer, hafter⟩ :=
    Asking.ask_alike turn.assistant.settings turn.question hfences.sameCode hsession
  exact ⟨hanswer, hafter.events_eq, rel_replaceCache h.caches turn.assistant hafter.cache,
    hafter.host_eq⟩

private theorem takeAll_alike (hturns : List.Forall₂ Turn.AddsFences turns turns')
    (h : desk.Alike desk') :
    let run := takeAll turns desk
    let run' := takeAll turns' desk'
    run.1.map Prod.fst = run'.1.map Prod.fst ∧
      run.1.map (·.2.map Event.withCode) = run'.1.map (·.2.map Event.withCode) ∧
      run.2.Alike run'.2 := by
  induction hturns generalizing desk desk' with
  | nil => exact ⟨rfl, rfl, h⟩
  | cons hturn _ ih =>
    obtain ⟨hanswer, hevents, hafter⟩ := take_alike hturn h
    obtain ⟨hanswers, hall, hlast⟩ := ih hafter
    exact ⟨List.cons_eq_cons.mpr ⟨hanswer, hanswers⟩, List.cons_eq_cons.mpr ⟨hevents, hall⟩,
      hlast⟩

/-- **Fences around the code make no difference.** To compile what is taken out of a reply with
fences is to compile the code between them. So the models may put fences around their replies in
any turns: the answers are the same, the same is shown on the way, and the host and the use of the
caches are the same in the end. -/
theorem takeAll_fences (hturns : List.Forall₂ Turn.AddsFences turns turns') (desk : Desk π β) :
    (∀ code reply, Reply.IsPlain code → Reply.Fences code reply →
      compile (Reply.code reply) = compile (Reply.code code) ∧
        compile (Reply.code code) = compile code) ∧
    let run := takeAll turns desk
    let run' := takeAll turns' desk
    run.1.map Prod.fst = run'.1.map Prod.fst ∧
      run.1.map (·.2.map Event.withCode) = run'.1.map (·.2.map Event.withCode) ∧
      run.2.Alike run'.2 := by
  refine ⟨fun code reply hplain hfences ↦ ⟨?_, Reply.compile_code hplain⟩,
    takeAll_alike hturns (.refl desk)⟩
  rw [Reply.code_fenced hplain hfences]

open Memory in
/-- In the first of two turns the model names the language of its code. The second action is
discarded, and there is a warning about the last line. -/
theorem takeAll_fences_town :
    let code := "count(get_layer('Roads'))\ncount(get_layer('Parks'))\nget_layer('Parks')\n"
    let reply := "\n" ++ "```" ++ "python" ++ "\n" ++ code ++ "```" ++ "  "
    let turn (complete : String → Except CompletionError String) : Turn Workspace Engine :=
      ⟨id, ⟨.default, some 0⟩, complete, "How many roads are there?"⟩
    let plain := turn fun _ ↦ .ok code
    let fenced := turn fun _ ↦ .ok reply
    let desk : Desk Workspace Engine := ⟨[.empty (some 1)], ⟨Town.workspace, .new⟩⟩
    List.Forall₂ Turn.AddsFences [plain, plain] [fenced, plain] ∧
      (takeAll [plain, plain] desk).1.map Prod.fst
        = (takeAll [fenced, plain] desk).1.map Prod.fst ∧
      (takeAll [plain, plain] desk).2.Alike (takeAll [fenced, plain] desk).2 := by
  intro code reply turn plain fenced desk
  have hplain : Reply.IsPlain code := by
    unfold Reply.IsPlain
    decide +kernel
  have hfences : Reply.Fences code reply :=
    .intro (List.all_eq_true.mp (by decide)) (by decide) (List.all_eq_true.mp (by decide))
  have hfirst : plain.AddsFences fenced :=
    ⟨fun _ ↦ .ok reply, fun _ ↦ Or.inr ⟨code, reply, rfl, rfl, hplain, hfences⟩, rfl⟩
  have hsecond : plain.AddsFences plain := ⟨fun _ ↦ .ok code, fun _ ↦ Or.inl rfl, rfl⟩
  have hturns : List.Forall₂ Turn.AddsFences [plain, plain] [fenced, plain] :=
    .cons hfirst (.cons hsecond .nil)
  obtain ⟨-, hanswers, -, hlast⟩ := takeAll_fences hturns desk
  exact ⟨hturns, hanswers, hlast⟩

end Desk

end MapQuery
