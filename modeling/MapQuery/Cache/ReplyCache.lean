import MapQuery.Text.Blank
import Std.Data.TreeMap.Basic

/-!
# The cache of replies

The cache remembers the reply to each prompt under the prompt's key. Beside the replies it keeps its
keys in a queue, the least recently used one first: storing a reply and finding one move its key to
the end. When there are more replies than the cache may hold, those at the front of the queue are
dropped. A cache of capacity zero stores nothing.

The key of a prompt is a digest of its text without layout, so indentation and blank lines make no
difference. The digest has 64 bits and serves to tell prompts apart, not to keep them secret. It
starts from a fixed basis; each byte of the UTF-8 form is mixed in by exclusive or, and the result
is multiplied by a fixed prime.
-/

namespace MapQuery

namespace PromptKey

/-! ## Keys -/

def basis : UInt64 := 0xcbf29ce484222325

/-- The factor of each step. -/
def prime : UInt64 := 0x100000001b3

def digest (bytes : List UInt8) : UInt64 :=
  bytes.foldl (fun hash byte ↦ (hash ^^^ byte.toUInt64) * prime) basis

/-- The 16 hexadecimal digits of a word. -/
def hexWord (word : UInt64) : List Char :=
  let digits := Nat.toDigits 16 word.toNat
  List.replicate (16 - digits.length) '0' ++ digits

def bytes (text : List Char) : List UInt8 := text.flatMap String.utf8EncodeChar

end PromptKey

def promptKey (prompt : String) : String :=
  "fnv1a64:" ++ String.ofList
    (PromptKey.hexWord (PromptKey.digest (PromptKey.bytes (Text.withoutLayout prompt.toList))))

/-! ## The cache -/

/-- Replies by key, and the keys in the order of their last use. -/
structure ReplyCache where
  /-- The most replies that are kept; there is no limit if it is missing. -/
  capacity : Option Nat
  replies : Std.TreeMap String String
  /-- The keys, the least recently used one first. -/
  recency : List String

namespace ReplyCache

/-- The cache that holds nothing yet. -/
def empty (capacity : Option Nat) : ReplyCache := ⟨capacity, ∅, []⟩

def size (cache : ReplyCache) : Nat := cache.replies.size

def isEmpty (cache : ReplyCache) : Bool := cache.size == 0

/-- Moves a key to the end of the queue, if it is in there. -/
def touch (key : String) (recency : List String) : List String :=
  if key ∈ recency then recency.erase key ++ [key] else recency

/-- Drops replies from the front of the queue until no more than `limit` are left or the queue is
empty. -/
def evict (limit : Nat) (replies : Std.TreeMap String String) :
    List String → Std.TreeMap String String × List String
  | [] => (replies, [])
  | oldest :: rest =>
    if limit < replies.size then evict limit (replies.erase oldest) rest
    else (replies, oldest :: rest)

/-- Looks a key up. A reply that is found counts as used. -/
def getKey (cache : ReplyCache) (key : String) : Option String × ReplyCache :=
  match cache.replies[key]? with
  | some reply => (some reply, { cache with recency := touch key cache.recency })
  | none => (none, cache)

/-- Stores a reply under a key. -/
def putKey (cache : ReplyCache) (key reply : String) : ReplyCache :=
  if cache.capacity = some 0 then cache
  else
    let recency :=
      if key ∈ cache.replies then touch key cache.recency else cache.recency ++ [key]
    let replies := cache.replies.insert key reply
    match cache.capacity with
    | none => { cache with replies, recency }
    | some limit =>
      let (replies, recency) := evict limit replies recency
      { cache with replies, recency }

/-- The reply to a prompt, if it is kept. -/
def get (cache : ReplyCache) (prompt : String) : Option String × ReplyCache :=
  cache.getKey (promptKey prompt)

/-- Stores the reply to a prompt. -/
def put (cache : ReplyCache) (prompt reply : String) : ReplyCache :=
  cache.putKey (promptKey prompt) reply

end ReplyCache

end MapQuery
