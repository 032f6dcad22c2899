import MapQuery.Text.Blank
import MapQuery.Cache.ReplyCache
import MapQuery.Execution.Outcome
import MapQuery.Language.Compilation
import MapQuery.Prompt

/-!
# Asking

A question is answered in steps: the project is described, the prompt is written, the model replies,
the code in the reply is compiled, and the first action in it is carried out. The model is a
function from prompts to replies, which may fail. It is not asked if the cache knows the reply.

A reply that does not compile, or in which there is no action, is no error: the answer then has the
warnings of the compiler and nothing is done.

Each step that is reached is recorded as an event, so that a front end can show what is going on. An
error leaves everything as the steps before it left it.

Models often put code between the fences of a markup language: a line of three backticks, perhaps
with the name of a language, in front of the code, and three backticks behind it. These are removed.

Several assistants can work on one host. Each has settings of its own, and may remember replies in a
cache that it shares with others.
-/

namespace MapQuery.Reply

/-! ## The code in a reply -/

def fence : List Char := ['`', '`', '`']

/-- The text without the fence at its end, if there is one. -/
def dropClosingFence (text : List Char) : List Char :=
  if fence.isSuffixOf text then text.take (text.length - fence.length) else text

/-- The text after its first line; a text of one line stays. -/
def dropFirstLine (text : List Char) : List Char :=
  match text.dropWhile (· != '\n') with
  | [] => text
  | _ :: rest => rest

/-- The code in a reply, without blanks in front of it. -/
def codeChars (reply : List Char) : List Char :=
  let trimmed := Text.trim reply
  if fence.isPrefixOf trimmed then
    Text.trimStart (dropClosingFence (dropFirstLine (trimmed.drop fence.length)))
  else Text.trimStart reply

def code (reply : String) : String := String.ofList (codeChars reply.toList)

end MapQuery.Reply

namespace MapQuery

/-! ## Questions -/

structure CompletionError where
  message : String
deriving Repr, DecidableEq

inductive AskError where
  | schema (cause : SchemaError)
  | completion (cause : CompletionError)
  | execution (cause : ExecutionError)
deriving Repr, DecidableEq

def AskError.message : AskError → String
  | schema cause => "failed to describe project layers: " ++ cause.message
  | completion cause => "model completion failed: " ++ cause.message
  | execution cause => cause.message

structure Answer where
  /-- The action that was carried out, if the reply had one. -/
  action : Option Action
  /-- What the action came to. -/
  result : Option String
  /-- What the compiler had to say about the reply. -/
  warnings : List String
deriving DecidableEq

namespace Answer

/-- What users are told when there is no action in the reply. -/
def noActionSentence : String := "Could not determine an action for this request"

/-- What users are told. -/
def message (answer : Answer) : String := answer.result.getD noActionSentence

end Answer

/-- What happens on the way to an answer. -/
inductive Event where
  /-- The prompt was written. -/
  | prompted (prompt : String)
  /-- The model was asked, and replied or failed. -/
  | asked (prompt : String) (reply : Except CompletionError String)
  /-- The code was taken out of the reply. -/
  | coded (code : String)
  /-- The action was found. -/
  | chosen (action : Action)

/-- What a question can change. -/
structure Session (π β : Type) where
  /-- The replies that are remembered, if there is a memory. -/
  cache : Option ReplyCache
  host : Host π β
  events : List Event

/-- A computation on the way to an answer. -/
abbrev Asking (π β α : Type) := ExceptT AskError (StateM (Session π β)) α

namespace Asking

variable {π β : Type}

def record (event : Event) : Asking π β Unit :=
  modify fun session ↦ { session with events := session.events ++ [event] }

/-- The reply to a prompt that is remembered. -/
def remembered? (prompt : String) : Asking π β (Option String) := fun session ↦
  match session.cache with
  | none => (.ok none, session)
  | some cache =>
    let (reply, cache) := cache.get prompt
    (.ok reply, { session with cache := some cache })

def remember (prompt reply : String) : Asking π β Unit :=
  modify fun session ↦ { session with cache := session.cache.map (·.put prompt reply) }

def onHost {α : Type} (x : Execution (Host π β) α) : Asking π β α := fun session ↦
  let (result, host) := x session.host
  (result.mapError .execution, { session with host })

/-- The reply to a prompt, from the memory or from the model. -/
def replyTo (complete : String → Except CompletionError String) (prompt : String) :
    Asking π β String := do
  match ← remembered? prompt with
  | some reply => return reply
  | none =>
    let answer := complete prompt
    record (.asked prompt answer)
    match answer with
    | .error cause => throw (.completion cause)
    | .ok reply =>
      remember prompt reply
      return reply

variable {δ : Type} [Dataset δ] [Project π δ] [Processing β δ]

/-- Carries out the first action in the code of a reply. -/
def act (settings : Settings) (code : String) : Asking π β Answer := do
  let compilation := compile code
  let warnings := compilation.warnings.map (·.message)
  match compilation.action with
  | none => return ⟨none, none, warnings⟩
  | some action =>
    record (.chosen action)
    let result ← onHost (Host.execute settings action)
    return ⟨some action, some result, warnings⟩

/-- The prompt for a question about the project. -/
def promptFor (question : String) : Asking π β String := do
  match describeProject (← get).host.project with
  | .error cause => throw (.schema cause)
  | .ok schema => return Prompt.render schema question

/-- Answers a question. -/
def ask (settings : Settings) (complete : String → Except CompletionError String)
    (question : String) : Asking π β Answer := do
  let prompt ← promptFor question
  record (.prompted prompt)
  let reply ← replyTo complete prompt
  let code := Reply.code reply
  record (.coded code)
  act settings code

end Asking

/-! ## Assistants at one desk -/

structure Assistant where
  settings : Settings
  /-- The place of its cache among the caches of the desk, if it remembers replies. -/
  cache : Option Nat
deriving Repr, DecidableEq

/-- The assistant in words, for people who look into a running program. -/
def Assistant.describe (assistant : Assistant) : String :=
  "Assistant \x7b cached: " ++ (if assistant.cache.isSome then "true" else "false")
    ++ ", config: " ++ assistant.settings.describe ++ ", .. \x7d"

/-- The caches of some assistants and the host that they work on. -/
structure Desk (π β : Type) where
  caches : List ReplyCache
  host : Host π β

namespace Desk

variable {π δ β : Type} [Dataset δ] [Project π δ] [Processing β δ]

/-- The caches after a question to an assistant; `cache` is what became of its own. -/
def replaceCache (caches : List ReplyCache) (assistant : Assistant) (cache : Option ReplyCache) :
    List ReplyCache :=
  match assistant.cache, cache with
  | some place, some cache => caches.set place cache
  | _, _ => caches

/-- Asks an assistant. Gives the answer and what happened on the way. -/
def ask (assistant : Assistant) (complete : String → Except CompletionError String)
    (question : String) (desk : Desk π β) :
    (Except AskError Answer × List Event) × Desk π β :=
  let session := ⟨assistant.cache.bind (desk.caches[·]?), desk.host, []⟩
  let (answer, session) := Asking.ask assistant.settings complete question session
  ((answer, session.events),
    ⟨replaceCache desk.caches assistant session.cache, session.host⟩)

end Desk

end MapQuery
