import Mathlib.Data.Finset.Card
import Mathlib.Data.List.DropRight
import Mathlib.Data.List.Nodup
import MapQuery.Cache.ReplyCache

/-!
# Which replies are found again

A request *uses* a key when it stores a reply under it or finds one there. The queue of the cache
holds the keys in the order of their last use, and a cache with a limit holds the last ones of all
keys that were ever used. So a reply is found again exactly when the number of distinct keys that
were used after its key is smaller than the limit (`get_serveAll`).

What holds after every request is `Tracks`: the queue is the end of the list of used keys without
repetitions, and the replies of the keys in the queue are those that were stored last. One request
keeps it (`Tracks.serve`), and so does a run of requests (`Tracks.serveAll`).
-/

namespace MapQuery.ReplyCache

/-! ## Requests and their history -/

inductive Request where
  | put (prompt reply : String)
  | get (prompt : String)

/-- The reply that the request stores under the key, if it does. -/
def Request.replyFor? (key : String) : Request → Option String
  | put prompt reply => if promptKey prompt = key then some reply else none
  | get _ => none

/-- The reply that was stored last under the key. -/
def lastReply? (key : String) (requests : List Request) : Option String :=
  (requests.filterMap (·.replyFor? key)).getLast?

def serve (cache : ReplyCache) : Request → ReplyCache
  | .put prompt reply => cache.put prompt reply
  | .get prompt => (cache.get prompt).2

def serveAll (cache : ReplyCache) (requests : List Request) : ReplyCache :=
  requests.foldl serve cache

theorem capacity_serve (cache : ReplyCache) (request : Request) :
    (cache.serve request).capacity = cache.capacity := by
  cases request with
  | put prompt reply =>
    rw [serve, put, putKey]
    split
    · rfl
    · cases hlimit : cache.capacity <;> rfl
  | get prompt =>
    rw [serve, get, getKey]
    split <;> rfl

theorem capacity_serveAll (cache : ReplyCache) (requests : List Request) :
    (cache.serveAll requests).capacity = cache.capacity := by
  induction requests generalizing cache with
  | nil => rfl
  | cons request rest ih => exact (ih (cache.serve request)).trans (cache.capacity_serve request)

/-- The key that the request uses: that of a reply which is stored or found. -/
def usedKey? (cache : ReplyCache) : Request → Option String
  | .put prompt _ => if cache.capacity = some 0 then none else some (promptKey prompt)
  | .get prompt => if (cache.get prompt).1.isSome then some (promptKey prompt) else none

/-- The keys that the requests use, in the order of the requests. -/
def usedKeys (cache : ReplyCache) : List Request → List String
  | [] => []
  | request :: rest => (cache.usedKey? request).toList ++ (cache.serve request).usedKeys rest

/-- The uses that come after the last use of the key. -/
def usesSince (key : String) (used : List String) : List String := used.rtakeWhile (· ≠ key)

/-- The end of a list of keys that a cache of the given capacity has room for. -/
def newest (capacity : Option ℕ) (keys : List String) : List String :=
  match capacity with
  | none => keys
  | some limit => keys.rtake limit

/-! ## Keys in the order of their last use -/

section Order

variable {keys before after : List String} {key : String} {limit : ℕ}

theorem dedup_concat (used : List String) (key : String) :
    (used ++ [key]).dedup = used.dedup.erase key ++ [key] := by
  induction used with
  | nil => simp
  | cons first used ih =>
    by_cases hused : first ∈ used
    · rw [List.cons_append, List.dedup_cons_of_mem (List.mem_append_left _ hused), ih,
        List.dedup_cons_of_mem hused]
    · rw [List.cons_append, List.dedup_cons_of_notMem hused]
      by_cases hkey : first = key
      · subst hkey
        have hdedup : first ∉ used.dedup := fun h ↦ hused (List.mem_dedup.mp h)
        rw [List.dedup_cons_of_mem (by simp), ih, List.erase_of_not_mem hdedup,
          List.erase_cons_head]
      · rw [List.dedup_cons_of_notMem (by simp [hused, hkey]), ih,
          List.erase_cons_tail (by simpa using hkey), List.cons_append]

theorem rtake_append (hlimit : limit ≤ after.length) :
    (before ++ after).rtake limit = after.rtake limit := by
  have hdrop : before.length + after.length - limit
      = before.length + (after.length - limit) := by omega
  rw [List.rtake, List.rtake, List.length_append, hdrop, List.drop_append,
    List.drop_of_length_le (Nat.le_add_right _ _), List.nil_append, Nat.add_sub_cancel_left]

private theorem rtake_append_of_length_le (hlimit : after.length ≤ limit) :
    (before ++ after).rtake limit = before.rtake (limit - after.length) ++ after := by
  have hdrop : before.length + after.length - limit
      = before.length - (limit - after.length) := by omega
  have hafter : before.length - (limit - after.length) - before.length = 0 := by omega
  rw [List.rtake, List.rtake, List.length_append, hdrop, List.drop_append, hafter, List.drop_zero]

theorem rtake_of_length_le (hlimit : keys.length ≤ limit) : keys.rtake limit = keys := by
  rw [List.rtake, Nat.sub_eq_zero_of_le hlimit, List.drop_zero]

theorem length_rtake (keys : List String) (limit : ℕ) :
    (keys.rtake limit).length = min limit keys.length := by
  rw [List.rtake, List.length_drop]
  omega

theorem exists_append_rtake (keys : List String) (limit : ℕ) :
    ∃ before, before ++ keys.rtake limit = keys ∧
      (before = [] ∨ (keys.rtake limit).length = limit) := by
  refine ⟨keys.take (keys.length - limit), List.take_append_drop _ keys, ?_⟩
  rw [List.rtake, List.length_drop, List.take_eq_nil_iff]
  omega

theorem rtake_erase_of_mem (hnodup : keys.Nodup) (hkey : key ∈ keys.rtake (limit + 1)) :
    (keys.erase key).rtake limit = (keys.rtake (limit + 1)).erase key := by
  obtain ⟨before, hsplit, hroom⟩ := exists_append_rtake keys (limit + 1)
  have hle : (keys.rtake (limit + 1)).length ≤ limit + 1 := by
    rw [length_rtake]
    exact Nat.min_le_left _ _
  generalize keys.rtake (limit + 1) = last at *
  subst hsplit
  have hbefore : key ∉ before := fun h ↦ List.disjoint_of_nodup_append hnodup h hkey
  have herase := List.length_erase_of_mem hkey
  rw [List.erase_append_right _ hbefore]
  rcases hroom with rfl | hfull
  · rw [List.nil_append, rtake_of_length_le (by omega)]
  · rw [rtake_append (by omega), rtake_of_length_le (by omega)]

theorem rtake_erase_of_notMem (hkey : key ∉ keys.rtake (limit + 1)) :
    (keys.erase key).rtake limit = keys.rtake limit := by
  obtain ⟨before, hsplit, hroom⟩ := exists_append_rtake keys (limit + 1)
  generalize keys.rtake (limit + 1) = last at *
  subst hsplit
  by_cases hbefore : key ∈ before
  · rcases hroom with rfl | hfull
    · cases hbefore
    · rw [List.erase_append_left _ hbefore, rtake_append (by omega), rtake_append (by omega)]
  · rw [List.erase_of_not_mem (by simp [hbefore, hkey])]

private theorem rtake_rtake (keys : List String) (m n : ℕ) :
    (keys.rtake m).rtake n = keys.rtake (min n m) := by
  simp only [List.rtake_eq_reverse_take_reverse, List.reverse_reverse, List.take_take]

/-- A list of used keys, split at the last use of a key. -/
theorem exists_append_usesSince {used : List String} (hkey : key ∈ used) :
    ∃ before, used = before ++ key :: usesSince key used ∧ key ∉ usesSince key used := by
  have hsince : key ∉ usesSince key used :=
    fun h ↦ absurd (List.mem_rtakeWhile_imp h) (by simp)
  have hsplit := List.rdropWhile_append_rtakeWhile (p := (· ≠ key)) (l := used)
  have hne : used.rdropWhile (· ≠ key) ≠ [] := by
    intro hnil
    rw [hnil, List.nil_append] at hsplit
    exact hsince (by rwa [usesSince, hsplit])
  have hlast : (used.rdropWhile (· ≠ key)).getLast hne = key := by
    simpa using List.rdropWhile_last_not (· ≠ key) used hne
  refine ⟨(used.rdropWhile (· ≠ key)).dropLast, ?_, hsince⟩
  have hfirst := List.dropLast_append_getLast hne
  rw [hlast] at hfirst
  rw [List.append_cons, hfirst, usesSince, hsplit]

/-- **The keys used since tell whether a key is still among the last ones.** -/
theorem mem_rtake_dedup_iff {used : List String} (hkey : key ∈ used) (limit : ℕ) :
    key ∈ used.dedup.rtake limit ↔ (usesSince key used).toFinset.card < limit := by
  obtain ⟨before, hsplit, hsince⟩ := exists_append_usesSince hkey
  have hnodup := List.nodup_dedup used
  -- Behind the key stand exactly the distinct keys used since.
  obtain ⟨older, -, holder⟩ :=
    List.sublist_suffix_of_union before (key :: usesSince key used).dedup
  have hdedup : used.dedup = older ++ key :: (usesSince key used).dedup := by
    conv_lhs => rw [hsplit]
    rw [List.dedup_append, ← holder, List.dedup_cons_of_notMem hsince]
  rw [hdedup] at hnodup
  rw [List.card_toFinset, hdedup]
  generalize (usesSince key used).dedup = newer at hnodup ⊢
  rcases Nat.lt_or_ge newer.length limit with hlimit | hlimit
  · refine iff_of_true ?_ hlimit
    rw [rtake_append_of_length_le hlimit]
    exact List.mem_append_right _ List.mem_cons_self
  · refine iff_of_false ?_ (Nat.not_lt.mpr hlimit)
    rw [List.append_cons, rtake_append hlimit]
    have hnewer : key ∉ newer := (List.nodup_cons.mp (List.nodup_append.mp hnodup).2.1).1
    exact fun h ↦ hnewer (List.mem_of_mem_drop h)

/-- What there is room for after a use is decided by what there was room for before. -/
theorem newest_erase_concat {capacity : Option ℕ} (hcapacity : capacity ≠ some 0)
    (hnodup : keys.Nodup) (key : String) :
    newest capacity (keys.erase key ++ [key])
      = newest capacity ((newest capacity keys).erase key ++ [key]) := by
  rcases capacity with _ | _ | limit
  · rfl
  · exact absurd rfl hcapacity
  · simp only [newest, List.rtake_concat_succ]
    by_cases hkey : key ∈ keys.rtake (limit + 1)
    · have hlength := List.length_erase_of_mem hkey
      rw [length_rtake] at hlength
      have hroom : ((keys.rtake (limit + 1)).erase key).length ≤ limit := by omega
      rw [rtake_erase_of_mem hnodup hkey, rtake_of_length_le hroom]
    · rw [rtake_erase_of_notMem hkey, List.erase_of_not_mem hkey, rtake_rtake,
        Nat.min_eq_left (Nat.le_succ limit)]

theorem newest_concat_of_mem {capacity : Option ℕ} {queue : List String}
    (hqueue : newest capacity keys = queue) (hkey : key ∈ queue) :
    newest capacity (queue.erase key ++ [key]) = queue.erase key ++ [key] := by
  rcases capacity with _ | limit
  · rfl
  · subst hqueue
    have hlength := List.length_erase_add_one hkey
    rw [newest, length_rtake] at hlength
    refine rtake_of_length_le ?_
    rw [List.length_append, newest]
    simp only [List.length_singleton]
    omega

end Order

/-! ## The queue and the replies -/

/-- The queue lists the keys of the replies, each of them once. -/
structure Lists (queue : List String) (replies : Std.TreeMap String String) : Prop where
  nodup : queue.Nodup
  size_eq : replies.size = queue.length
  mem_iff : ∀ key, key ∈ replies ↔ key ∈ queue

section Queue

variable {replies : Std.TreeMap String String} {queue : List String}

theorem Lists.perm {other : List String} (h : Lists queue replies) (hperm : queue.Perm other) :
    Lists other replies :=
  ⟨hperm.nodup_iff.mp h.nodup, by rw [h.size_eq, hperm.length_eq],
    fun key ↦ by rw [h.mem_iff, hperm.mem_iff]⟩

theorem Lists.requeue (h : Lists queue replies) (key : String) :
    (if key ∈ replies then touch key queue else queue ++ [key]) = queue.erase key ++ [key] := by
  by_cases hkey : key ∈ queue
  · rw [if_pos ((h.mem_iff key).mpr hkey), touch, if_pos hkey]
  · rw [if_neg (fun hmem ↦ hkey ((h.mem_iff key).mp hmem)), List.erase_of_not_mem hkey]

theorem Lists.insert (h : Lists queue replies) (key reply : String) :
    Lists (queue.erase key ++ [key]) (replies.insert key reply) := by
  have hcontains : replies.contains key = true ↔ key ∈ queue := h.mem_iff key
  refine ⟨?_, ?_, fun other ↦ ?_⟩
  · rw [List.nodup_append]
    refine ⟨h.nodup.erase key, List.nodup_singleton key, fun other hother last hlast ↦ ?_⟩
    obtain rfl := List.mem_singleton.mp hlast
    rintro rfl
    exact h.nodup.not_mem_erase hother
  · rw [Std.TreeMap.size_insert, List.length_append, h.size_eq, List.length_singleton]
    by_cases hkey : key ∈ queue
    · rw [if_pos (hcontains.mpr hkey), List.length_erase_add_one hkey]
    · rw [if_neg (fun hc ↦ hkey (hcontains.mp hc)), List.erase_of_not_mem hkey]
  · rw [Std.TreeMap.mem_insert, Std.LawfulEqCmp.compare_eq_iff_eq, h.mem_iff, List.mem_append,
      h.nodup.mem_erase_iff, List.mem_singleton]
    tauto

theorem Lists.drop {oldest : String} (h : Lists (oldest :: queue) replies) :
    Lists queue (replies.erase oldest) := by
  obtain ⟨holdest, hnodup⟩ := List.nodup_cons.mp h.nodup
  refine ⟨hnodup, ?_, fun key ↦ ?_⟩
  · have hmem : replies.contains oldest = true := (h.mem_iff oldest).mpr List.mem_cons_self
    rw [Std.TreeMap.size_erase, if_pos hmem, h.size_eq, List.length_cons, Nat.add_sub_cancel]
  · rw [Std.TreeMap.mem_erase, h.mem_iff, List.mem_cons, ne_eq,
      Std.LawfulEqCmp.compare_eq_iff_eq]
    constructor
    · rintro ⟨hne, rfl | hkey⟩
      · exact absurd rfl hne
      · exact hkey
    · intro hkey
      refine ⟨?_, Or.inr hkey⟩
      rintro rfl
      exact holdest hkey

/-- **Dropping replies** from the front of the queue leaves those at its end. -/
theorem Lists.evict (limit : ℕ) (h : Lists queue replies) :
    (evict limit replies queue).2 = queue.rtake limit ∧
    Lists (queue.rtake limit) (evict limit replies queue).1 ∧
    ∀ key ∈ queue.rtake limit, (evict limit replies queue).1[key]? = replies[key]? := by
  induction queue generalizing replies with
  | nil =>
    rw [List.rtake_nil]
    exact ⟨rfl, h, fun _ _ ↦ rfl⟩
  | cons oldest rest ih =>
    rw [ReplyCache.evict]
    split
    · rename_i hlimit
      rw [h.size_eq, List.length_cons] at hlimit
      have hrest : (oldest :: rest).rtake limit = rest.rtake limit :=
        @rtake_append [oldest] rest limit (Nat.le_of_lt_succ hlimit)
      obtain ⟨hqueue, hlists, hvalue⟩ := ih h.drop
      rw [hrest]
      refine ⟨hqueue, hlists, fun key hkey ↦ ?_⟩
      rw [hvalue key hkey, Std.TreeMap.getElem?_erase, if_neg]
      rw [Std.LawfulEqCmp.compare_eq_iff_eq]
      rintro rfl
      exact (List.nodup_cons.mp h.nodup).1 (List.mem_of_mem_drop hkey)
    · rename_i hlimit
      rw [h.size_eq] at hlimit
      rw [rtake_of_length_le (Nat.not_lt.mp hlimit)]
      exact ⟨rfl, h, fun _ _ ↦ rfl⟩

end Queue

/-! ## What the cache knows of its history -/

/-- A cache that has used the keys `used`, in this order, and has been given the replies `reply?`
last. -/
structure Tracks (cache : ReplyCache) (used : List String) (reply? : String → Option String) :
    Prop where
  /-- The queue is the end of the list of keys in the order of their last use. -/
  recency_eq : cache.recency = newest cache.capacity used.dedup
  /-- There is a reply for each of them. -/
  lists : Lists cache.recency cache.replies
  /-- It is the reply that was stored last. -/
  getElem?_eq : ∀ key ∈ cache.recency, cache.replies[key]? = reply? key
  /-- The used keys are those under which a reply was stored. -/
  mem_used_iff : ∀ key, key ∈ used ↔ cache.capacity ≠ some 0 ∧ (reply? key).isSome

section Tracks

variable {cache : ReplyCache} {used : List String} {reply? : String → Option String}

theorem tracks_empty (capacity : Option ℕ) : (empty capacity).Tracks [] fun _ ↦ none := by
  have hnewest : newest capacity [] = [] := by
    cases capacity with
    | none => rfl
    | some limit => exact List.rtake_nil limit
  refine ⟨hnewest.symm, ⟨List.nodup_nil, rfl, fun key ↦ ?_⟩, nofun, fun key ↦ by simp⟩
  exact iff_of_false Std.TreeMap.not_mem_emptyc List.not_mem_nil

theorem Tracks.getElem?_eq_some_iff (h : cache.Tracks used reply?) (key reply : String) :
    cache.replies[key]? = some reply ↔ reply? key = some reply ∧ key ∈ cache.recency := by
  constructor
  · intro hfound
    have hmem : key ∈ cache.recency := by
      rw [← h.lists.mem_iff, Std.TreeMap.mem_iff_isSome_getElem?, hfound]
      rfl
    exact ⟨by rw [← h.getElem?_eq key hmem, hfound], hmem⟩
  · rintro ⟨hreply, hmem⟩
    rw [h.getElem?_eq key hmem, hreply]

theorem Tracks.newest_concat (h : cache.Tracks used reply?) (hcapacity : cache.capacity ≠ some 0)
    (key : String) : newest cache.capacity (used ++ [key]).dedup
      = newest cache.capacity (cache.recency.erase key ++ [key]) := by
  rw [dedup_concat, newest_erase_concat hcapacity (List.nodup_dedup used), h.recency_eq]

private theorem Tracks.mem_used (h : cache.Tracks used reply?) {key : String}
    (hkey : key ∈ cache.recency) : key ∈ used := by
  rw [h.recency_eq] at hkey
  refine List.mem_dedup.mp ?_
  cases hcapacity : cache.capacity with
  | none => rwa [hcapacity] at hkey
  | some limit =>
    rw [hcapacity] at hkey
    exact List.mem_of_mem_drop hkey

theorem getKey_fst (cache : ReplyCache) (key : String) :
    (cache.getKey key).1 = cache.replies[key]? := by
  rw [ReplyCache.getKey]
  split
  · rename_i reply hfound
    exact hfound.symm
  · rename_i hmissing
    exact hmissing.symm

theorem getKey_snd_of_eq_none {key : String} (h : (cache.getKey key).1 = none) :
    (cache.getKey key).2 = cache := by
  rw [getKey_fst] at h
  rw [ReplyCache.getKey, h]

/-- **A lookup** uses the key if it finds a reply. -/
theorem Tracks.getKey (h : cache.Tracks used reply?) (key : String) :
    (cache.getKey key).2.Tracks
      (if (cache.getKey key).1.isSome then used ++ [key] else used) reply? := by
  rw [ReplyCache.getKey]
  split
  · rename_i reply hfound
    obtain ⟨-, hmem⟩ := (h.getElem?_eq_some_iff key reply).mp hfound
    have hused := (h.mem_used_iff key).mp (h.mem_used hmem)
    have htouch : touch key cache.recency = cache.recency.erase key ++ [key] := if_pos hmem
    have hperm : cache.recency.Perm (cache.recency.erase key ++ [key]) :=
      (List.perm_cons_erase hmem).trans (List.perm_append_singleton _ _).symm
    rw [htouch]
    refine ⟨?_, h.lists.perm hperm, fun other hother ↦ ?_, fun other ↦ ?_⟩
    · exact (newest_concat_of_mem h.recency_eq.symm hmem).symm.trans
        (h.newest_concat hused.1 key).symm
    · exact h.getElem?_eq other (hperm.mem_iff.mpr hother)
    · have hmemUsed : other ∈ used ++ [key] ↔ other ∈ used := by
        rw [List.mem_append, List.mem_singleton]
        refine or_iff_left_of_imp ?_
        rintro rfl
        exact h.mem_used hmem
      simpa [hmemUsed] using h.mem_used_iff other
  · exact h

theorem Tracks.getElem?_insert (h : cache.Tracks used reply?) {key other : String}
    (hother : other ∈ cache.recency.erase key ++ [key]) (reply : String) :
    (cache.replies.insert key reply)[other]?
      = Function.update reply? key (some reply) other := by
  rw [Std.TreeMap.getElem?_insert]
  by_cases hsame : key = other
  · subst hsame
    simp
  · have hmem : other ∈ cache.recency := by
      simpa [h.lists.nodup.mem_erase_iff, Ne.symm hsame] using hother
    rw [if_neg (by simpa using hsame), Function.update_of_ne (Ne.symm hsame),
      h.getElem?_eq other hmem]

private theorem Tracks.mem_used_concat_iff (h : cache.Tracks used reply?)
    (hcapacity : cache.capacity ≠ some 0) (key reply other : String) :
    other ∈ used ++ [key] ↔ cache.capacity ≠ some 0 ∧
      (Function.update reply? key (some reply) other).isSome := by
  by_cases hsame : other = key
  · subst hsame
    simp [hcapacity]
  · simp [hsame, h.mem_used_iff]

/-- **Storing a reply** uses the key, unless nothing is ever stored. -/
theorem Tracks.putKey (h : cache.Tracks used reply?) (key reply : String) :
    (cache.putKey key reply).Tracks (if cache.capacity = some 0 then used else used ++ [key])
      (Function.update reply? key (some reply)) := by
  rw [ReplyCache.putKey]
  split
  · rename_i hcapacity
    have hempty : cache.recency = [] := by
      rw [h.recency_eq, hcapacity]
      exact List.rtake_zero _
    exact ⟨h.recency_eq, h.lists, by simp [hempty], fun other ↦ by
      simp [h.mem_used_iff, hcapacity]⟩
  · rename_i hcapacity
    have hinsert := h.lists.insert key reply
    rw [h.lists.requeue]
    have hused := h.mem_used_concat_iff hcapacity key reply
    have hqueue := h.newest_concat hcapacity key
    cases hlimit : cache.capacity with
    | none =>
      rw [hlimit] at hqueue hused
      exact ⟨hqueue.symm, hinsert, fun other hother ↦ h.getElem?_insert hother reply, hused⟩
    | some limit =>
      rw [hlimit] at hqueue hused
      -- What is dropped is no longer in the queue, so nothing has to be known about it.
      obtain ⟨hevicted, hlists, hkept⟩ := hinsert.evict limit
      refine ⟨hevicted.trans hqueue.symm, ?_, fun other hother ↦ ?_, hused⟩
      · rw [← hevicted] at hlists
        exact hlists
      · change other ∈ (evict limit _ _).2 at hother
        rw [hevicted] at hother
        have hmem := List.mem_of_mem_drop hother
        exact (hkept other hother).trans (h.getElem?_insert hmem reply)

/-- **One request** keeps track of what it uses and stores. -/
theorem Tracks.serve {earlier : List Request} (h : cache.Tracks used (lastReply? · earlier))
    (request : Request) :
    (cache.serve request).Tracks (used ++ (cache.usedKey? request).toList)
      (lastReply? · (earlier ++ [request])) := by
  cases request with
  | put prompt reply =>
    have hput := h.putKey (promptKey prompt) reply
    have hlast : Function.update (lastReply? · earlier) (promptKey prompt) (some reply)
        = (lastReply? · (earlier ++ [.put prompt reply])) := by
      funext key
      by_cases hsame : promptKey prompt = key
      · subst hsame
        simp [lastReply?, Request.replyFor?]
      · simp [lastReply?, Request.replyFor?, hsame, Ne.symm hsame]
    rw [hlast] at hput
    have hused : used ++ (cache.usedKey? (.put prompt reply)).toList
        = if cache.capacity = some 0 then used else used ++ [promptKey prompt] := by
      rw [usedKey?]
      split <;> simp
    rwa [hused]
  | get prompt =>
    have hget := h.getKey (promptKey prompt)
    have hlast : (lastReply? · (earlier ++ [.get prompt])) = (lastReply? · earlier) := by
      funext key
      simp [lastReply?, Request.replyFor?]
    have hused : used ++ (cache.usedKey? (.get prompt)).toList
        = if (cache.get prompt).1.isSome then used ++ [promptKey prompt] else used := by
      rw [usedKey?]
      split <;> simp
    rw [hlast, hused]
    exact hget

/-- **A run of requests** keeps track of what they use and store. -/
theorem Tracks.serveAll {earlier : List Request} (h : cache.Tracks used (lastReply? · earlier))
    (requests : List Request) :
    (cache.serveAll requests).Tracks (used ++ cache.usedKeys requests)
      (lastReply? · (earlier ++ requests)) := by
  induction requests generalizing cache used earlier with
  | nil => simpa [usedKeys, ReplyCache.serveAll] using h
  | cons request rest ih =>
    have hrest := ih (h.serve request)
    rw [usedKeys, ← List.append_assoc]
    rwa [List.append_assoc earlier] at hrest

end Tracks

/-- The keys for which there is room are those that few others were used after. -/
theorem mem_newest_dedup_iff {capacity : Option ℕ} {used : List String} {key : String}
    (hkey : key ∈ used) : key ∈ newest capacity used.dedup ↔
      ∀ limit, capacity = some limit → (usesSince key used).toFinset.card < limit := by
  cases capacity with
  | none => simp [newest, hkey]
  | some limit => simp [newest, mem_rtake_dedup_iff hkey]

/-- **Which replies are found again.** Whatever was stored and looked up before, a prompt has the
reply that was stored last under its key, if the number of distinct keys used since the key's last
use is below the limit; otherwise it has none, and looking it up changes nothing. -/
theorem get_serveAll (capacity : Option ℕ) (requests : List Request) (prompt : String) :
    let cache := (empty capacity).serveAll requests
    let since := usesSince (promptKey prompt) ((empty capacity).usedKeys requests)
    (∀ reply, (cache.get prompt).1 = some reply ↔
      lastReply? (promptKey prompt) requests = some reply ∧
        ∀ limit, capacity = some limit → since.toFinset.card < limit) ∧
    ((cache.get prompt).1 = none → (cache.get prompt).2 = cache) := by
  intro cache since
  have htracks : cache.Tracks ((empty capacity).usedKeys requests) (lastReply? · requests) := by
    have hempty : (empty capacity).Tracks [] (lastReply? · []) := tracks_empty capacity
    simpa using hempty.serveAll requests
  have hcapacity : cache.capacity = capacity := capacity_serveAll _ requests
  refine ⟨fun reply ↦ ?_, getKey_snd_of_eq_none⟩
  rw [ReplyCache.get, getKey_fst, htracks.getElem?_eq_some_iff, and_congr_right_iff]
  intro hreply
  rw [htracks.recency_eq, hcapacity]
  by_cases hused : promptKey prompt ∈ (empty capacity).usedKeys requests
  · exact mem_newest_dedup_iff hused
  · -- Only a cache that stores nothing has not used a key under which a reply was stored.
    rw [htracks.mem_used_iff, hreply, hcapacity] at hused
    obtain rfl : capacity = some 0 := by simpa using hused
    simp [newest]

end MapQuery.ReplyCache
