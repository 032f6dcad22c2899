import MapQuery.Proofs.Cache.Recency

/-!
# More room

Two caches that serve the same requests do not use the same keys: a reply that only the larger one
still has is used there and missed in the smaller one, so the two queues are in different orders.
The order of the keys that both hold is the same all the same. The queue of the smaller cache is a
part of the other one, and leaves something out only once it is full (`Nests`). One use of a key
keeps this (`Nests.use`): what the larger cache drops then is dropped by the smaller one too, or is
not there any more. So a cache with more room finds whatever one with less room finds
(`get_of_roomLe`).
-/

namespace MapQuery.ReplyCache

/-! ## Queues of different length -/

section Queues

variable {queue larger : List String} {key : String} {limit limit' : ℕ}

private theorem rtake_sublist (queue : List String) (limit : ℕ) :
    (queue.rtake limit).Sublist queue :=
  List.drop_sublist _ _

theorem rtake_sublist_rtake (h : queue.Sublist larger)
    (hdrop : larger.length - limit' ≤ queue.length - limit) :
    (queue.rtake limit).Sublist (larger.rtake limit') := by
  have hsplit : queue.length - limit
      = (larger.length - limit') + (queue.length - limit - (larger.length - limit')) := by omega
  rw [List.rtake, List.rtake, hsplit, ← List.drop_drop]
  exact (List.drop_sublist _ _).trans (h.drop _)

/-- A cache of the second capacity has room for all that one of the first has room for. -/
def RoomLe : Option ℕ → Option ℕ → Prop
  | _, none => True
  | none, some _ => False
  | some limit, some limit' => limit ≤ limit'

/-- The smaller queue is a part of the larger one, and leaves something out only if it is as long as
it can be. -/
structure Nests (capacity : Option ℕ) (queue larger : List String) : Prop where
  sublist : queue.Sublist larger
  full : queue = larger ∨ capacity = some queue.length

variable {capacity capacity' : Option ℕ}

theorem nests_newest (h : RoomLe capacity capacity') (queue : List String) :
    Nests capacity (newest capacity queue) (newest capacity' queue) := by
  rcases capacity with _ | limit
  · rcases capacity' with _ | limit'
    · exact ⟨List.Sublist.refl queue, Or.inl rfl⟩
    · exact h.elim
  rcases capacity' with _ | limit'
  · refine ⟨rtake_sublist queue limit, ?_⟩
    rcases Nat.le_total queue.length limit with hlimit | hlimit
    · exact Or.inl (rtake_of_length_le hlimit)
    · exact Or.inr (by rw [newest, length_rtake, Nat.min_eq_left hlimit])
  · have hle : limit ≤ limit' := h
    refine ⟨rtake_sublist_rtake (List.Sublist.refl queue) (by omega), ?_⟩
    rcases Nat.le_total queue.length limit with hlimit | hlimit
    · refine Or.inl ?_
      rw [newest, newest, rtake_of_length_le hlimit, rtake_of_length_le (hlimit.trans hle)]
    · exact Or.inr (by rw [newest, length_rtake, Nat.min_eq_left hlimit])

private theorem length_le_length_use (queue : List String) (key : String) :
    queue.length ≤ (queue.erase key ++ [key]).length := by
  have herase := List.le_length_erase (a := key) (l := queue)
  rw [List.length_append, List.length_singleton]
  omega

/-- **One use of a key**, in both queues. -/
theorem Nests.use (h : Nests capacity queue larger) (hroom : RoomLe capacity capacity')
    (hlarger : ∀ limit, capacity' = some limit → larger.length ≤ limit) (key : String) :
    Nests capacity (newest capacity (queue.erase key ++ [key]))
      (newest capacity' (larger.erase key ++ [key])) := by
  obtain rfl | rfl := h.full
  · exact nests_newest hroom _
  · have hsublist : (queue.erase key ++ [key]).Sublist (larger.erase key ++ [key]) :=
      (h.sublist.erase key).append (List.Sublist.refl [key])
    have hlength := length_le_length_use queue key
    refine ⟨?_, Or.inr (by rw [newest, length_rtake, Nat.min_eq_left hlength])⟩
    rcases capacity' with _ | limit'
    · exact (rtake_sublist _ _).trans hsublist
    · -- The larger queue drops a key only if the key is new to it, and so to the smaller one.
      refine rtake_sublist_rtake hsublist ?_
      have hlimit := hlarger limit' rfl
      simp only [List.length_append, List.length_singleton, List.length_erase]
      split
      · have hpos : 0 < larger.length := List.length_pos_of_mem ‹key ∈ larger›
        omega
      · have hkey : key ∉ queue := fun hmem ↦ ‹key ∉ larger› (h.sublist.subset hmem)
        rw [if_neg hkey]
        omega

/-- A key that both queues hold is found in both. -/
theorem Nests.touch (h : Nests capacity queue larger) (hkey : key ∈ queue) :
    Nests capacity (queue.erase key ++ [key]) (larger.erase key ++ [key]) := by
  refine ⟨(h.sublist.erase key).append (List.Sublist.refl [key]), ?_⟩
  have hlength : (queue.erase key ++ [key]).length = queue.length := by
    rw [List.length_append, List.length_singleton, List.length_erase_add_one hkey]
  rw [hlength]
  exact h.full.imp_left fun heq ↦ by rw [heq]

/-- A key that only the larger queue holds is missed in the other one, which is full. -/
theorem Nests.touch_of_notMem (h : Nests capacity queue larger) (hkey : key ∉ queue)
    (hmem : key ∈ larger) : Nests capacity queue (larger.erase key ++ [key]) := by
  have herase := h.sublist.erase key
  rw [List.erase_of_not_mem hkey] at herase
  refine ⟨herase.trans (List.sublist_append_left _ _), Or.inr (h.full.resolve_left ?_)⟩
  rintro rfl
  exact hkey hmem

end Queues

/-! ## Two caches -/

section Caches

variable {small large cache : ReplyCache} {used used' : List String} {earlier : List Request}
  {reply? : String → Option String}

private theorem Tracks.length_recency_le (h : cache.Tracks used reply?) (limit : ℕ)
    (hlimit : cache.capacity = some limit) : cache.recency.length ≤ limit := by
  rw [h.recency_eq, hlimit, newest, length_rtake]
  exact Nat.min_le_left _ _

theorem Tracks.recency_put (h : cache.Tracks used (lastReply? · earlier)) (prompt reply : String) :
    (cache.put prompt reply).recency
      = newest cache.capacity (cache.recency.erase (promptKey prompt) ++ [promptKey prompt]) := by
  have hput : (cache.put prompt reply).recency = newest (cache.serve (.put prompt reply)).capacity
      (used ++ (cache.usedKey? (.put prompt reply)).toList).dedup :=
    (h.serve (.put prompt reply)).recency_eq
  rw [hput, capacity_serve]
  by_cases hcapacity : cache.capacity = some 0
  · rw [hcapacity, newest, newest, List.rtake_zero, List.rtake_zero]
  · rw [usedKey?, if_neg hcapacity]
    exact h.newest_concat hcapacity (promptKey prompt)

theorem Tracks.recency_get (h : cache.Tracks used reply?) (prompt : String) :
    (cache.get prompt).2.recency =
      if promptKey prompt ∈ cache.recency then
        cache.recency.erase (promptKey prompt) ++ [promptKey prompt]
      else cache.recency := by
  rw [← ReplyCache.touch, ReplyCache.get, ReplyCache.getKey]
  split
  · rfl
  · rename_i hmissing
    have hkey : promptKey prompt ∉ cache.recency := by
      rw [← h.lists.mem_iff, Std.TreeMap.mem_iff_isSome_getElem?, hmissing]
      exact Bool.false_ne_true
    rw [ReplyCache.touch, if_neg hkey]

/-- **One request** to both caches. -/
theorem Nests.serve (hsmall : small.Tracks used (lastReply? · earlier))
    (hlarge : large.Tracks used' (lastReply? · earlier))
    (hroom : RoomLe small.capacity large.capacity)
    (h : Nests small.capacity small.recency large.recency) (request : Request) :
    Nests small.capacity (small.serve request).recency (large.serve request).recency := by
  cases request with
  | put prompt reply =>
    change Nests _ (small.put prompt reply).recency (large.put prompt reply).recency
    rw [hsmall.recency_put, hlarge.recency_put]
    exact h.use hroom hlarge.length_recency_le _
  | get prompt =>
    change Nests _ (small.get prompt).2.recency (large.get prompt).2.recency
    rw [hsmall.recency_get, hlarge.recency_get]
    by_cases hkey : promptKey prompt ∈ small.recency
    · rw [if_pos hkey, if_pos (h.sublist.subset hkey)]
      exact h.touch hkey
    · rw [if_neg hkey]
      split
      · exact h.touch_of_notMem hkey ‹_›
      · exact h

/-- **A run of requests** to both caches. -/
theorem Nests.serveAll (hsmall : small.Tracks used (lastReply? · earlier))
    (hlarge : large.Tracks used' (lastReply? · earlier))
    (hroom : RoomLe small.capacity large.capacity)
    (h : Nests small.capacity small.recency large.recency) (requests : List Request) :
    Nests small.capacity (small.serveAll requests).recency
      (large.serveAll requests).recency := by
  induction requests generalizing small large used used' earlier with
  | nil => exact h
  | cons request rest ih =>
    have hstep := h.serve hsmall hlarge hroom request
    rw [← capacity_serve small request] at hroom hstep ⊢
    rw [← capacity_serve large request] at hroom
    exact ih (hsmall.serve request) (hlarge.serve request) hroom hstep

end Caches

theorem tracks_serveAll (capacity : Option ℕ) (requests : List Request) :
    ((empty capacity).serveAll requests).Tracks ((empty capacity).usedKeys requests)
      (lastReply? · requests) := by
  have hempty : (empty capacity).Tracks [] (lastReply? · []) := tracks_empty capacity
  simpa using hempty.serveAll requests

private theorem nests_serveAll {capacity capacity' : Option ℕ} (hroom : RoomLe capacity capacity')
    (requests : List Request) :
    Nests capacity ((empty capacity).serveAll requests).recency
      ((empty capacity').serveAll requests).recency := by
  have hempty : ∀ capacity, (empty capacity).Tracks [] (lastReply? · []) := tracks_empty
  have hnests : Nests capacity (empty capacity).recency (empty capacity').recency :=
    ⟨List.Sublist.refl [], Or.inl rfl⟩
  exact hnests.serveAll (hempty capacity) (hempty capacity') hroom requests

/-- **A larger cache loses nothing.** After any run of requests, a cache that was empty in the
beginning holds every key that one with less room holds after the same run, and whatever prompt is
looked up then, it has the reply that the other one has. -/
theorem get_of_roomLe {capacity capacity' : Option ℕ} (hroom : RoomLe capacity capacity')
    (requests : List Request) :
    let small := (empty capacity).serveAll requests
    let large := (empty capacity').serveAll requests
    (∀ key, key ∈ small.replies → key ∈ large.replies) ∧
      ∀ prompt reply, (small.get prompt).1 = some reply → (large.get prompt).1 = some reply := by
  intro small large
  have hsmall : small.Tracks _ (lastReply? · requests) := tracks_serveAll capacity requests
  have hlarge : large.Tracks _ (lastReply? · requests) := tracks_serveAll capacity' requests
  have hnests : Nests capacity small.recency large.recency := nests_serveAll hroom requests
  refine ⟨fun key hkey ↦ ?_, fun prompt reply hreply ↦ ?_⟩
  · rw [hsmall.lists.mem_iff] at hkey
    exact (hlarge.lists.mem_iff key).mpr (hnests.sublist.subset hkey)
  · rw [ReplyCache.get, getKey_fst, hsmall.getElem?_eq_some_iff] at hreply
    rw [ReplyCache.get, getKey_fst, hlarge.getElem?_eq_some_iff]
    exact hreply.imp_right fun hkey ↦ hnests.sublist.subset hkey

/-- The lookup in the middle finds a reply in the larger cache only, and puts its queue in another
order. -/
theorem get_of_roomLe_reordered :
    let requests : List Request :=
      [.put "a" "1", .put "b" "2", .put "c" "3", .get "a", .put "d" "4"]
    let small := (empty (some 2)).serveAll requests
    let large := (empty (some 3)).serveAll requests
    RoomLe (some 2) (some 3) ∧ small.recency = ["c", "d"].map promptKey ∧
      large.recency = ["c", "a", "d"].map promptKey ∧ promptKey "d" ∈ large.replies ∧
      (small.get "c").1 = some "3" ∧ (large.get "c").1 = some "3" := by
  intro requests small large
  have hroom : RoomLe (some 2) (some 3) := Nat.le_succ 2
  have hkey : promptKey "d" ∈ small.replies := by decide +kernel
  have hreply : (small.get "c").1 = some "3" := by decide +kernel
  obtain ⟨hkeys, hreplies⟩ := get_of_roomLe hroom requests
  exact ⟨hroom, by decide +kernel, by decide +kernel, hkeys _ hkey, hreply, hreplies "c" "3" hreply⟩

end MapQuery.ReplyCache
