import Mathlib
import MapQuery.Host.Value

/-!
# Values that count as the same, and repetitions

The host compares values of one kind as that kind is compared. Floats make this less than an
equality: what is not a number is not the same as itself, and the two zeros are the same. What is
left is that the relation is symmetric and transitive (`AttributeValue.same_symm`,
`AttributeValue.same_trans`), as the comparison of floats is, and that a value is the same as null
only if it is null.

To drop repetitions is to keep each element that is like none that was kept before. What likeness
is, is left open here, since values of a host are not alike as they are equal: it need be neither
reflexive nor symmetric. All follows from what happens to the last element of a list
(`eraseDupsBy_concat`).
-/

namespace MapQuery.AttributeValue

/-! ## Equality -/

variable {a b c : AttributeValue}

/-- Two values are the same if they are reals that are equal as floats, or else if they are one and
the same value. -/
theorem same_iff : a.same b = true ↔
    (∃ x y, a = real x ∧ b = real y ∧ (x == y) = true) ∨ (a = b ∧ ∀ x, a ≠ real x) := by
  cases a <;> cases b <;> simp [same]

theorem same_symm (h : a.same b = true) : b.same a = true := by
  rw [same_iff] at h ⊢
  rcases h with ⟨x, y, ha, hb, heq⟩ | ⟨rfl, hreal⟩
  · exact Or.inl ⟨y, x, hb, ha, BEq.symm heq⟩
  · exact Or.inr ⟨rfl, hreal⟩

theorem same_trans (hab : a.same b = true) (hbc : b.same c = true) : a.same c = true := by
  rw [same_iff] at hab hbc ⊢
  rcases hab with ⟨x, y, ha, hb, hxy⟩ | ⟨rfl, -⟩
  · rcases hbc with ⟨y', z, hb', hc, hyz⟩ | ⟨-, hreal⟩
    · cases hb.symm.trans hb'
      exact Or.inl ⟨x, z, ha, hc, BEq.trans hxy hyz⟩
    · exact absurd hb (hreal y)
  · exact hbc

theorem same_comm (a b : AttributeValue) : a.same b = b.same a :=
  Bool.eq_iff_iff.mpr ⟨same_symm, same_symm⟩

theorem same_self_iff : a.same a = true ↔ a ≠ real .nan := by
  cases a <;> simp [same]

theorem eq_null_of_same (h : a.same null = true) : a = null := by
  rcases same_iff.mp h with ⟨-, y, -, hnull, -⟩ | ⟨heq, -⟩
  · cases hnull
  · exact heq

end MapQuery.AttributeValue

namespace MapQuery

/-! ## Repetitions -/

section EraseDups

variable {α : Type}

private theorem eraseDupsByLoop_concat (r : α → α → Bool) (xs : List α) (x : α) (kept : List α) :
    List.eraseDupsBy.loop r (xs ++ [x]) kept
      = if (List.eraseDupsBy.loop r xs kept).any (r x) then List.eraseDupsBy.loop r xs kept
        else List.eraseDupsBy.loop r xs kept ++ [x] := by
  induction xs generalizing kept with
  | nil =>
    rw [List.nil_append, List.eraseDupsBy.loop, List.eraseDupsBy.loop, List.any_reverse]
    cases kept.any (r x) <;> simp [List.eraseDupsBy.loop]
  | cons y ys ih =>
    rw [List.cons_append, List.eraseDupsBy.loop, List.eraseDupsBy.loop]
    cases kept.any (r y) with
    | true => exact ih kept
    | false => exact ih (y :: kept)

theorem eraseDupsBy_concat (r : α → α → Bool) (xs : List α) (x : α) :
    (xs ++ [x]).eraseDupsBy r
      = if (xs.eraseDupsBy r).any (r x) then xs.eraseDupsBy r else xs.eraseDupsBy r ++ [x] :=
  eraseDupsByLoop_concat r xs x []

theorem pairwise_eraseDupsBy (r : α → α → Bool) (xs : List α) :
    (xs.eraseDupsBy r).Pairwise fun first second ↦ r second first = false := by
  induction xs using List.reverseRecOn with
  | nil => exact List.Pairwise.nil
  | append_singleton xs x ih =>
    rw [eraseDupsBy_concat]
    split
    · exact ih
    · rename_i hnew
      refine List.pairwise_append.mpr ⟨ih, List.pairwise_singleton _ _, fun first hfirst y hy ↦ ?_⟩
      rw [List.mem_singleton.mp hy, ← Bool.not_eq_true]
      exact fun hlike ↦ hnew (List.any_eq_true.mpr ⟨first, hfirst, hlike⟩)

theorem eraseDupsBy_sublist (r : α → α → Bool) (xs : List α) : (xs.eraseDupsBy r).Sublist xs := by
  induction xs using List.reverseRecOn with
  | nil => exact List.Sublist.refl []
  | append_singleton xs x ih =>
    rw [eraseDupsBy_concat]
    split
    · exact ih.trans (List.sublist_append_left xs [x])
    · exact ih.append (List.Sublist.refl [x])

theorem nodup_eraseDups [DecidableEq α] (xs : List α) : xs.eraseDups.Nodup :=
  (pairwise_eraseDupsBy (· == ·) xs).imp fun hne ↦ (beq_eq_false_iff_ne.mp hne).symm

theorem map_eraseDupsBy {β : Type} (f : α → β) (r : β → β → Bool) (xs : List α) :
    (xs.eraseDupsBy fun a b ↦ r (f a) (f b)).map f = (xs.map f).eraseDupsBy r := by
  induction xs using List.reverseRecOn with
  | nil => rfl
  | append_singleton xs x ih =>
    have hany : (xs.eraseDupsBy fun a b ↦ r (f a) (f b)).any (fun a ↦ r (f x) (f a))
        = ((xs.map f).eraseDupsBy r).any (r (f x)) := by
      rw [← ih, List.any_map]
      rfl
    rw [List.map_append, List.map_singleton, eraseDupsBy_concat, eraseDupsBy_concat, hany,
      apply_ite (List.map f), List.map_append, ih, List.map_singleton]

theorem exists_mem_eraseDupsBy {r : α → α → Bool} {xs : List α} {x : α} (h : x ∈ xs) :
    ∃ kept ∈ xs.eraseDupsBy r, kept = x ∨ r x kept = true := by
  induction xs using List.reverseRecOn with
  | nil => cases h
  | append_singleton xs last ih =>
    have hsubset : ∀ kept ∈ xs.eraseDupsBy r, kept ∈ (xs ++ [last]).eraseDupsBy r := by
      intro kept hkept
      rw [eraseDupsBy_concat]
      split
      · exact hkept
      · exact List.mem_append_left _ hkept
    rcases List.mem_append.mp h with hxs | hlast
    · obtain ⟨kept, hkept, hlike⟩ := ih hxs
      exact ⟨kept, hsubset kept hkept, hlike⟩
    · obtain rfl := List.mem_singleton.mp hlast
      -- What is kept as new need not be like itself.
      by_cases hany : (xs.eraseDupsBy r).any (r x) = true
      · obtain ⟨kept, hkept, hlike⟩ := List.any_eq_true.mp hany
        exact ⟨kept, hsubset kept hkept, Or.inr hlike⟩
      · rw [eraseDupsBy_concat, if_neg hany]
        exact ⟨x, List.mem_append_right _ (List.mem_singleton_self x), Or.inl rfl⟩

end EraseDups

end MapQuery
