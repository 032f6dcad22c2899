import Mathlib.Data.List.Induction
import Mathlib.Data.List.Perm.Basic
import MapQuery.Memory.FeatureCollection

/-!
# The parts that envelopes merge to

Merging goes on until no two parts meet. An envelope that is added is scanned against the parts that
are there, and it may grow during a scan. But a scan that absorbs nothing has compared every part
that is left with one and the same envelope, the one that it ends with (`absorb_of_length_eq`).
Scans are repeated up to such a one, so what is left does not meet what has grown, whatever happened
before and whatever the bounds are.

Nothing is lost on the way. The envelopes fall into groups, and each part is what the members of one
group merge to, two at a time and only if these two meet (`Merges`).
-/

namespace MapQuery.Memory.Envelope

variable {envelope part : Envelope} {envelopes others parts parts' : List Envelope}

/-! ## Groups of envelopes -/

/-- The members of the group merge to the envelope: it is the only member, or it covers what two
parts of the group merge to, and these two meet. -/
inductive Merges : List Envelope → Envelope → Prop
  | single (envelope : Envelope) : Merges [envelope] envelope
  | join {group group' : List Envelope} {envelope part : Envelope} (h : Merges group envelope)
    (h' : Merges group' part) (hmeets : part.meets envelope = true) :
    Merges (group ++ group') (envelope.cover part)

theorem Merges.length_pos {group : List Envelope} (h : Merges group envelope) :
    0 < group.length := by
  induction h with
  | single => exact Nat.one_pos
  | join _ _ _ ih _ =>
    rw [List.length_append]
    exact Nat.add_pos_left ih _

/-- The envelopes fall into groups, and the parts are what these merge to. -/
def FallInto (envelopes parts : List Envelope) : Prop :=
  ∃ groups : List (List Envelope), groups.flatten.Perm envelopes ∧ List.Forall₂ Merges groups parts

namespace FallInto

theorem nil : FallInto [] [] := ⟨[], .refl [], .nil⟩

theorem cons (h : FallInto envelopes parts) (envelope : Envelope) :
    FallInto (envelope :: envelopes) (envelope :: parts) := by
  obtain ⟨groups, hperm, hmerges⟩ := h
  exact ⟨[envelope] :: groups, hperm.cons envelope, .cons (.single envelope) hmerges⟩

theorem of_perm (h : FallInto envelopes parts) (hperm : envelopes.Perm others) :
    FallInto others parts := by
  obtain ⟨groups, hgroups, hmerges⟩ := h
  exact ⟨groups, hgroups.trans hperm, hmerges⟩

theorem perm (h : FallInto envelopes parts) (hperm : parts.Perm parts') :
    FallInto envelopes parts' := by
  obtain ⟨groups, hgroups, hmerges⟩ := h
  obtain ⟨groups', hmerges', hperm'⟩ := List.perm_comp_forall₂ hperm.symm hmerges.flip
  exact ⟨groups', hperm'.symm.flatten.symm.trans hgroups, hmerges'.flip⟩

/-- Two parts that meet become one, and their groups become one group. -/
theorem join (h : FallInto envelopes (envelope :: part :: parts))
    (hmeets : part.meets envelope = true) :
    FallInto envelopes (envelope.cover part :: parts) := by
  obtain ⟨groups, hgroups, hmerges⟩ := h
  cases hmerges with
  | @cons group _ _ _ hfirst hmore =>
    cases hmore with
    | @cons group' _ groups _ hsecond hmerges =>
      refine ⟨(group ++ group') :: groups, ?_, .cons (.join hfirst hsecond hmeets) hmerges⟩
      rwa [List.flatten_cons, List.append_assoc]

/-- A group has one member or more, so there are at most as many parts as envelopes. -/
theorem length_le (h : FallInto envelopes parts) : parts.length ≤ envelopes.length := by
  obtain ⟨groups, hgroups, hmerges⟩ := h
  rw [← hgroups.length_eq]
  clear hgroups
  induction hmerges with
  | nil => exact Nat.le_refl 0
  | cons hfirst _ ih =>
    have hpos := hfirst.length_pos
    rw [List.flatten_cons, List.length_append, List.length_cons]
    omega

end FallInto

/-! ## Scans -/

theorem absorb_cons_of_meets (hmeets : part.meets envelope = true) (parts : List Envelope) :
    envelope.absorb (part :: parts) = (envelope.cover part).absorb parts := by
  rw [absorb, if_pos hmeets]

theorem absorb_cons_of_not_meets (hmeets : ¬part.meets envelope = true) (parts : List Envelope) :
    envelope.absorb (part :: parts)
      = ((envelope.absorb parts).1, part :: (envelope.absorb parts).2) := by
  rw [absorb, if_neg hmeets]

theorem absorb_sublist (envelope : Envelope) (parts : List Envelope) :
    (envelope.absorb parts).2.Sublist parts := by
  induction parts generalizing envelope with
  | nil => exact .slnil
  | cons part parts ih =>
    by_cases hmeets : part.meets envelope = true
    · rw [absorb_cons_of_meets hmeets]
      exact (ih _).cons part
    · rw [absorb_cons_of_not_meets hmeets]
      exact (ih _).cons_cons part

/-- **A scan that absorbs nothing** leaves the envelope as it is, and it meets none of the parts. -/
theorem absorb_of_length_eq (h : (envelope.absorb parts).2.length = parts.length) :
    (envelope.absorb parts).1 = envelope ∧ ∀ part ∈ parts, part.meets envelope = false := by
  induction parts with
  | nil => exact ⟨rfl, fun _ hpart ↦ absurd hpart List.not_mem_nil⟩
  | cons part parts ih =>
    by_cases hmeets : part.meets envelope = true
    · rw [absorb_cons_of_meets hmeets, List.length_cons] at h
      have hle := length_absorb_le (envelope.cover part) parts
      omega
    · rw [absorb_cons_of_not_meets hmeets] at h ⊢
      obtain ⟨heq, hparts⟩ := ih (Nat.succ.inj h)
      exact ⟨heq, List.forall_mem_cons.mpr ⟨Bool.eq_false_iff.mpr hmeets, hparts⟩⟩

/-- A scan merges what it absorbs. The other parts are those that it has passed already. -/
theorem FallInto.absorb_append (h : FallInto envelopes (envelope :: (parts ++ others))) :
    FallInto envelopes ((envelope.absorb parts).1 :: ((envelope.absorb parts).2 ++ others)) := by
  induction parts generalizing envelope others with
  | nil => exact h
  | cons part parts ih =>
    by_cases hmeets : part.meets envelope = true
    · rw [absorb_cons_of_meets hmeets]
      exact ih (h.join hmeets)
    · rw [absorb_cons_of_not_meets hmeets]
      have hpassed : FallInto envelopes (envelope :: (parts ++ part :: others)) :=
        h.perm (List.perm_middle.symm.cons envelope)
      exact (ih hpassed).perm (List.perm_middle.cons _)

theorem FallInto.absorb (h : FallInto envelopes (envelope :: parts)) :
    FallInto envelopes ((envelope.absorb parts).1 :: (envelope.absorb parts).2) := by
  rw [← List.append_nil parts] at h
  simpa using h.absorb_append

/-! ## Repeated scans -/

theorem absorbAll_of_lt (h : (envelope.absorb parts).2.length < parts.length) :
    envelope.absorbAll parts = (envelope.absorb parts).1.absorbAll (envelope.absorb parts).2 := by
  rw [absorbAll]
  exact if_pos h

theorem absorbAll_of_not_lt (h : ¬(envelope.absorb parts).2.length < parts.length) :
    envelope.absorbAll parts = envelope.absorb parts := by
  rw [absorbAll]
  exact if_neg h

private theorem absorbAll_sublist (envelope : Envelope) (parts : List Envelope) :
    (envelope.absorbAll parts).2.Sublist parts := by
  induction envelope, parts using absorbAll.induct with
  | case1 envelope parts scanned hlt ih =>
    rw [absorbAll_of_lt hlt]
    exact ih.trans (absorb_sublist envelope parts)
  | case2 envelope parts scanned hlt =>
    rw [absorbAll_of_not_lt hlt]
    exact absorb_sublist envelope parts

/-- **What is left does not meet what has grown.** The last scan has absorbed nothing. -/
theorem not_meets_of_mem_absorbAll (h : part ∈ (envelope.absorbAll parts).2) :
    part.meets (envelope.absorbAll parts).1 = false := by
  induction envelope, parts using absorbAll.induct with
  | case1 envelope parts scanned hlt ih =>
    rw [absorbAll_of_lt hlt] at h ⊢
    exact ih h
  | case2 envelope parts scanned hlt =>
    have hlength : (envelope.absorb parts).2.length = parts.length :=
      Nat.le_antisymm (length_absorb_le envelope parts) (Nat.not_lt.mp hlt)
    obtain ⟨heq, hparts⟩ := absorb_of_length_eq hlength
    rw [absorbAll_of_not_lt hlt] at h ⊢
    rw [heq]
    exact hparts part ((absorb_sublist envelope parts).subset h)

theorem FallInto.absorbAll (h : FallInto envelopes (envelope :: parts)) :
    FallInto envelopes ((envelope.absorbAll parts).1 :: (envelope.absorbAll parts).2) := by
  induction envelope, parts using absorbAll.induct with
  | case1 envelope parts scanned hlt ih =>
    rw [absorbAll_of_lt hlt]
    exact ih h.absorb
  | case2 envelope parts scanned hlt =>
    rw [absorbAll_of_not_lt hlt]
    exact h.absorb

/-! ## Parts of a dataset -/

/-- No two of the parts meet, and the envelopes fall into them. -/
structure ArePartsOf (parts envelopes : List Envelope) : Prop where
  apart : parts.Pairwise fun a b ↦ a.meets b = false
  fallInto : FallInto envelopes parts

private theorem arePartsOf_nil : ArePartsOf [] [] := ⟨.nil, .nil⟩

theorem ArePartsOf.addPart (h : ArePartsOf parts envelopes) (envelope : Envelope) :
    ArePartsOf (addPart parts envelope) (envelope :: envelopes) where
  apart := by
    refine List.pairwise_append.mpr
      ⟨h.apart.sublist (absorbAll_sublist envelope parts), List.pairwise_singleton _ _, ?_⟩
    intro part hpart grown hgrown
    rw [List.mem_singleton.mp hgrown]
    exact not_meets_of_mem_absorbAll hpart
  fallInto := (h.fallInto.cons envelope).absorbAll.perm (List.perm_append_singleton _ _).symm

/-- **Merging gives parts.** This needs nothing of the envelopes: they may touch, lie in one another
or have their bounds the wrong way round. -/
theorem arePartsOf_mergeMeeting (envelopes : List Envelope) :
    ArePartsOf (mergeMeeting envelopes) envelopes := by
  induction envelopes using List.reverseRecOn with
  | nil => exact arePartsOf_nil
  | append_singleton envelopes envelope ih =>
    rw [mergeMeeting, List.foldl_concat]
    have hparts := ih.addPart envelope
    exact ⟨hparts.apart, hparts.fallInto.of_perm (List.perm_append_singleton _ _).symm⟩

end MapQuery.Memory.Envelope
