import MapQuery.Proofs.Cache.Recency

/-!
# What a cache knows

To look a prompt up tells what is stored under its key, and leaves the replies as they are. To store
a reply adds it, and may drop others: whatever is found afterwards is the new reply, under its key,
or was there before (`getElem?_putKey_eq_some`). A cache without limit drops nothing
(`replies_putKey_of_unbounded`).
-/

namespace MapQuery.ReplyCache

variable {cache : ReplyCache} {prompt key other reply found : String}

/-- The reply to a prompt that the cache knows. -/
def reply? (cache : ReplyCache) (prompt : String) : Option String :=
  cache.replies[promptKey prompt]?

/-! ## Looking up -/

@[simp] theorem get_fst (cache : ReplyCache) (prompt : String) :
    (cache.get prompt).1 = cache.reply? prompt :=
  cache.getKey_fst (promptKey prompt)

@[simp] theorem replies_get_snd (cache : ReplyCache) (prompt : String) :
    (cache.get prompt).2.replies = cache.replies := by
  rw [get, getKey]
  split <;> rfl

theorem get_snd_of_reply?_eq_none (h : cache.reply? prompt = none) :
    (cache.get prompt).2 = cache :=
  getKey_snd_of_eq_none ((cache.get_fst prompt).trans h)

/-! ## Storing -/

private theorem getElem?_evict_eq_some {limit : ℕ} {replies : Std.TreeMap String String}
    {queue : List String} (h : (evict limit replies queue).1[key]? = some found) :
    replies[key]? = some found := by
  induction queue generalizing replies with
  | nil => exact h
  | cons oldest rest ih =>
    rw [evict] at h
    split at h
    · have herase := ih h
      rw [Std.TreeMap.getElem?_erase] at herase
      split at herase
      · cases herase
      · exact herase
    · exact h

/-- **Storing adds one reply**, and nothing but this one. -/
theorem getElem?_putKey_eq_some (h : (cache.putKey key reply).replies[other]? = some found) :
    other = key ∧ found = reply ∨ cache.replies[other]? = some found := by
  have hinsert : (cache.replies.insert key reply)[other]? = some found →
      other = key ∧ found = reply ∨ cache.replies[other]? = some found := by
    intro hfound
    rw [Std.TreeMap.getElem?_insert] at hfound
    split at hfound
    · rename_i hkey
      exact Or.inl ⟨(Std.LawfulEqCmp.compare_eq_iff_eq.mp hkey).symm, (Option.some.inj hfound).symm⟩
    · exact Or.inr hfound
  rw [putKey] at h
  split at h
  · exact Or.inr h
  · cases hcapacity : cache.capacity with
    | none =>
      rw [hcapacity] at h
      exact hinsert h
    | some limit =>
      rw [hcapacity] at h
      exact hinsert (getElem?_evict_eq_some h)

theorem replies_putKey_of_unbounded (h : cache.capacity = none) (key reply : String) :
    (cache.putKey key reply).replies = cache.replies.insert key reply := by
  have hcapacity : cache.capacity ≠ some 0 := by
    rw [h]
    exact (Option.some_ne_none 0).symm
  rw [putKey, if_neg hcapacity, h]

end MapQuery.ReplyCache
