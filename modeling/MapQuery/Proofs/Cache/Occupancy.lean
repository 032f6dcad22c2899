import Mathlib.Logic.Relation
import MapQuery.Proofs.Cache.Room

/-!
# How many replies a cache holds

A cache keeps its replies and the queue of their keys apart. After every run of requests the queue
lists the keys of the replies, each of them once, and the cache holds as many replies as different
keys were given to it, or as many as it has room for if that is less (`queue_serveAll`).

To store a reply in a cache with a limit is to add the reply and its key, and then to drop the reply
of the first key in the queue as long as there are too many (`drops_put`). Each drop takes one reply
and one key away, and the queue keeps listing the keys (`Lists.drops`), so there is always a key to
drop while there are too many replies.
-/

namespace MapQuery.ReplyCache

open Relation

/-! ## The keys that were stored -/

/-- The key under which the request stores a reply, if it does. -/
def Request.storedKey? : Request → Option String
  | put prompt _ => some (promptKey prompt)
  | get _ => none

/-- The different keys under which replies were stored, or were refused by a cache without room. -/
def storedKeys (requests : List Request) : Finset String :=
  (requests.filterMap Request.storedKey?).toFinset

private theorem isSome_lastReply?_iff {key : String} {requests : List Request} :
    (lastReply? key requests).isSome ↔ key ∈ storedKeys requests := by
  rw [lastReply?, List.getLast?_isSome, storedKeys, List.mem_toFinset, List.mem_filterMap, ne_eq,
    List.filterMap_eq_nil_iff]
  push Not
  refine exists_congr fun request ↦ and_congr_right fun _ ↦ ?_
  cases request with
  | put prompt reply => simp [Request.replyFor?, Request.storedKey?]
  | get prompt => simp [Request.replyFor?, Request.storedKey?]

theorem length_newest_dedup (capacity : Option ℕ) (used : List String) :
    (newest capacity used.dedup).length
      = capacity.elim used.toFinset.card (min · used.toFinset.card) := by
  cases capacity with
  | none => rw [newest, List.card_toFinset, Option.elim_none]
  | some limit => rw [newest, length_rtake, List.card_toFinset, Option.elim_some]

section Size

variable {cache : ReplyCache} {used : List String} {requests : List Request}

/-- **The number of replies** is the number of different keys, up to the limit. -/
theorem Tracks.size_eq (h : cache.Tracks used (lastReply? · requests)) :
    cache.size
      = cache.capacity.elim (storedKeys requests).card (min · (storedKeys requests).card) := by
  rw [size, h.lists.size_eq, h.recency_eq, length_newest_dedup]
  by_cases hcapacity : cache.capacity = some 0
  · rw [hcapacity, Option.elim_some, Option.elim_some, Nat.zero_min, Nat.zero_min]
  · have hused : used.toFinset = storedKeys requests := by
      ext key
      rw [List.mem_toFinset, h.mem_used_iff, isSome_lastReply?_iff]
      exact and_iff_right hcapacity
    rw [hused]

end Size

/-! ## Dropping one reply after the other -/

/-- One reply is dropped: there are more than `limit` of them, and it is the one of the first key in
the queue. -/
inductive Drops (limit : ℕ) :
    Std.TreeMap String String × List String → Std.TreeMap String String × List String → Prop
  | oldest {replies : Std.TreeMap String String} {oldest : String} {queue : List String}
    (hlimit : limit < replies.size) :
    Drops limit (replies, oldest :: queue) (replies.erase oldest, queue)

/-- The replies and the queue with one more reply, before any is dropped. -/
def withReply (cache : ReplyCache) (key reply : String) :
    Std.TreeMap String String × List String :=
  (cache.replies.insert key reply,
    if key ∈ cache.replies then touch key cache.recency else cache.recency ++ [key])

section Drops

variable {cache : ReplyCache} {limit : ℕ} {key reply : String} {used : List String}
  {reply? : String → Option String} {state state' : Std.TreeMap String String × List String}

private theorem drops_evict (limit : ℕ) (replies : Std.TreeMap String String)
    (queue : List String) :
    ReflTransGen (Drops limit) (replies, queue) (evict limit replies queue) := by
  induction queue generalizing replies with
  | nil => exact .refl
  | cons oldest rest ih =>
    rw [evict]
    by_cases hlimit : limit < replies.size
    · rw [if_pos hlimit]
      exact .head (.oldest hlimit) (ih (replies.erase oldest))
    · rw [if_neg hlimit]

private theorem putKey_eq_evict (hlimit : cache.capacity = some limit) (hpos : limit ≠ 0)
    (key reply : String) :
    ((cache.putKey key reply).replies, (cache.putKey key reply).recency)
      = evict limit (cache.withReply key reply).1 (cache.withReply key reply).2 := by
  have hcapacity : cache.capacity ≠ some 0 := by
    rw [hlimit]
    exact fun h ↦ hpos (Option.some.inj h)
  rw [putKey, if_neg hcapacity, hlimit]
  rfl

/-- **Storing a reply** is adding it and then dropping replies. -/
theorem drops_put (hlimit : cache.capacity = some limit) (hpos : limit ≠ 0)
    (key reply : String) :
    ReflTransGen (Drops limit) (cache.withReply key reply)
      ((cache.putKey key reply).replies, (cache.putKey key reply).recency) := by
  rw [putKey_eq_evict hlimit hpos]
  exact drops_evict limit _ _

private theorem Tracks.lists_withReply (h : cache.Tracks used reply?) (key reply : String) :
    Lists (cache.withReply key reply).2 (cache.withReply key reply).1 := by
  rw [withReply, h.lists.requeue]
  exact h.lists.insert key reply

theorem Lists.drops (h : Lists state.2 state.1) (hdrops : ReflTransGen (Drops limit) state state') :
    Lists state'.2 state'.1 := by
  induction hdrops with
  | refl => exact h
  | tail _ hdrop ih =>
    obtain ⟨-⟩ := hdrop
    exact ih.drop

/-- While there are too many replies there is a key in the queue. -/
theorem Lists.queue_ne_nil (h : Lists state.2 state.1) (hlimit : limit < state.1.size) :
    state.2 ≠ [] := by
  rw [h.size_eq] at hlimit
  exact List.ne_nil_of_length_pos (Nat.zero_lt_of_lt hlimit)

end Drops

/-- **The queue and the replies belong together.** After any run of requests to a cache that was
empty in the beginning, no key is twice in the queue, and the keys in the queue are those of the
replies. There are as many replies as different keys were stored, up to the limit if there is one.
When another reply is stored in a cache with a limit, replies are dropped until there are no more
than that, and while there are more, the queue has a key left to drop. -/
theorem queue_serveAll (capacity : Option ℕ) (requests : List Request) :
    let cache := (empty capacity).serveAll requests
    cache.recency.Nodup ∧ (∀ key, key ∈ cache.recency ↔ key ∈ cache.replies) ∧
    cache.size = capacity.elim (storedKeys requests).card (min · (storedKeys requests).card) ∧
    ∀ limit, capacity = some limit → cache.size ≤ limit ∧
      ∀ prompt reply, limit ≠ 0 →
        let start := cache.withReply (promptKey prompt) reply
        let after := cache.put prompt reply
        ReflTransGen (Drops limit) start (after.replies, after.recency) ∧ after.size ≤ limit ∧
        ∀ state, ReflTransGen (Drops limit) start state → limit < state.1.size → state.2 ≠ [] := by
  intro cache
  have htracks : cache.Tracks _ (lastReply? · requests) := tracks_serveAll capacity requests
  have hcapacity : cache.capacity = capacity := capacity_serveAll _ requests
  have hsize := htracks.size_eq
  rw [hcapacity] at hsize
  refine ⟨htracks.lists.nodup, fun key ↦ (htracks.lists.mem_iff key).symm, hsize, ?_⟩
  rintro limit rfl
  refine ⟨?_, fun prompt reply hpos ↦ ⟨drops_put hcapacity hpos _ reply, ?_, ?_⟩⟩
  · rw [hsize]
    exact Nat.min_le_left _ _
  · -- Storing a reply is one more request of the run.
    have hafter := (htracks.serve (.put prompt reply)).size_eq
    rw [capacity_serve, hcapacity] at hafter
    exact hafter.trans_le (Nat.min_le_left _ _)
  · intro state hdrops hlimit
    exact ((htracks.lists_withReply (promptKey prompt) reply).drops hdrops).queue_ne_nil hlimit

/-- A third reply in a cache for two: for a moment there are too many, and there is a key to
drop. -/
theorem queue_serveAll_full :
    let requests : List Request := [.put "a" "1", .put "b" "2", .get "a"]
    let cache := (empty (some 2)).serveAll requests
    let start := cache.withReply (promptKey "c") "3"
    cache.size = 2 ∧ 2 < start.1.size ∧ start.2 ≠ [] ∧ (cache.put "c" "3").size ≤ 2 := by
  intro requests cache start
  have hfull : 2 < start.1.size := by decide +kernel
  have hsize : cache.size = 2 := by decide +kernel
  obtain ⟨-, -, -, hlimit⟩ := queue_serveAll (some 2) requests
  obtain ⟨-, hafter, hqueue⟩ := (hlimit 2 rfl).2 "c" "3" (by decide)
  exact ⟨hsize, hfull, hqueue start .refl hfull, hafter⟩

end MapQuery.ReplyCache
