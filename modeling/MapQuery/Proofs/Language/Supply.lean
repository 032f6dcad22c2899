import Mathlib.Data.List.Forall2
import Mathlib.Data.List.Perm.Subperm
import MapQuery.Proofs.Language.Binding

/-!
# Supplying every parameter once

A parameter is supplied by the argument at its position among those without keyword, and by the
arguments that have its name as keyword (`Constructor.suppliers`). A call is well supplied if every
parameter has exactly one supplier and no argument is left over; a variadic constructor may have
operands beyond its parameters (`Constructor.Supplies`). What an argument is does not matter here:
the same is said of expressions, of their types, and of their values.

Where nothing is overwritten, a call is bound exactly if it is well supplied, and to its suppliers
(`Constructor.supplies_of_bind`, `Constructor.bind_of_supplies`).
-/

namespace MapQuery.Constructor

section Supply

variable {α β : Type} {R : α → β → Prop} {c : Constructor}
  {arguments : List (Option String × α)} {arguments' : List (Option String × β)}
  {operands : List α} {operands' : List β}

/-! ## Suppliers -/

/-- The arguments with the given keyword, or those without one. -/
def withKeyword (keyword : Option String) (arguments : List (Option String × α)) : List α :=
  arguments.filterMap fun argument ↦ if argument.1 = keyword then some argument.2 else none

/-- The arguments for a slot: the one at this position among those without keyword, and those with
the name of the parameter as keyword. -/
def suppliers (c : Constructor) (arguments : List (Option String × α)) (slot : ℕ) : List α :=
  (withKeyword none arguments)[slot]?.toList ++
    c.parameters[slot]?.toList.flatMap fun p ↦ withKeyword (some p.name) arguments

/-- The operands are what the arguments supply. -/
structure Supplies (c : Constructor) (arguments : List (Option String × α)) (operands : List α) :
    Prop where
  /-- Every parameter has an operand. -/
  parameters_le : c.parameters.length ≤ operands.length
  /-- There are no other operands, unless the last parameter may be repeated. -/
  length_eq : c.isVariadic = false → operands.length = c.parameters.length
  /-- Every keyword is the name of a parameter. -/
  known : ∀ keyword, some keyword ∈ arguments.map Prod.fst → keyword ∈ c.parameters.map (·.name)
  /-- Each operand is the only argument for its slot, and there are none for other slots. -/
  once : ∀ slot, c.suppliers arguments slot = operands[slot]?.toList

theorem withKeyword_cons (keyword : Option String) (argument : Option String × α)
    (rest : List (Option String × α)) : withKeyword keyword (argument :: rest)
      = (if argument.1 = keyword then [argument.2] else []) ++ withKeyword keyword rest := by
  by_cases h : argument.1 = keyword <;> simp [withKeyword, h]

private theorem mem_withKeyword {keyword : Option String} {a : α} :
    a ∈ withKeyword keyword arguments ↔ (keyword, a) ∈ arguments := by
  rw [withKeyword, List.mem_filterMap]
  constructor
  · rintro ⟨⟨keyword', a'⟩, hmem, hif⟩
    by_cases h : keyword' = keyword
    · obtain rfl : a' = a := by simpa [h] using hif
      rwa [← h]
    · simp [h] at hif
  · intro hmem
    exact ⟨(keyword, a), hmem, if_pos rfl⟩

theorem Supplies.unique {others : List α} (h : c.Supplies arguments operands)
    (h' : c.Supplies arguments others) : operands = others := by
  refine List.ext_getElem? fun slot ↦ ?_
  have hsame := (h.once slot).symm.trans (h'.once slot)
  rcases hleft : operands[slot]? with _ | a
  · rw [hleft] at hsame
    rcases hright : others[slot]? with _ | b
    · rfl
    · rw [hright] at hsame
      cases hsame
  · rw [hleft] at hsame
    rcases hright : others[slot]? with _ | b
    · rw [hright] at hsame
      cases hsame
    · rw [hright] at hsame
      exact congrArg some (List.cons.inj hsame).1

theorem Supplies.mem_of_mem (h : c.Supplies arguments operands) {argument : Option String × α}
    (hmem : argument ∈ arguments) : argument.2 ∈ operands := by
  obtain ⟨slot, hslot⟩ : ∃ slot, argument.2 ∈ c.suppliers arguments slot := by
    obtain ⟨_ | keyword, a⟩ := argument
    · obtain ⟨slot, hslot⟩ := List.mem_iff_getElem?.mp (mem_withKeyword.mpr hmem)
      exact ⟨slot, List.mem_append_left _ (by rw [hslot]; exact List.mem_cons_self)⟩
    · obtain ⟨p, hp, hname⟩ := List.mem_map.mp (h.known keyword (List.mem_map_of_mem hmem))
      obtain ⟨slot, hslot⟩ := List.mem_iff_getElem?.mp hp
      refine ⟨slot, List.mem_append_right _ ?_⟩
      rw [hslot, Option.toList_some, List.flatMap_singleton, hname]
      exact mem_withKeyword.mpr hmem
  rw [h.once, Option.mem_toList] at hslot
  exact List.mem_of_getElem? hslot

/-! ## Other arguments with the same keywords -/

/-- Two arguments with the same keyword, whose values are related. -/
def Argumentwise (R : α → β → Prop) (a : Option String × α) (b : Option String × β) : Prop :=
  a.1 = b.1 ∧ R a.2 b.2

private theorem map_fst_of_argumentwise (h : List.Forall₂ (Argumentwise R) arguments arguments') :
    arguments.map Prod.fst = arguments'.map Prod.fst := by
  induction h with
  | nil => rfl
  | cons hfirst _ ih => rw [List.map_cons, List.map_cons, hfirst.1, ih]

private theorem withKeyword_rel (h : List.Forall₂ (Argumentwise R) arguments arguments')
    (keyword : Option String) :
    List.Forall₂ R (withKeyword keyword arguments) (withKeyword keyword arguments') := by
  induction h with
  | nil => exact List.Forall₂.nil
  | @cons a b _ _ hfirst _ ih =>
    rw [withKeyword_cons, withKeyword_cons, hfirst.1]
    by_cases hkeyword : b.1 = keyword
    · rw [if_pos hkeyword, if_pos hkeyword]
      exact List.Forall₂.cons hfirst.2 ih
    · rw [if_neg hkeyword, if_neg hkeyword]
      exact ih

private theorem getElem?_rel (h : List.Forall₂ R operands operands') (slot : ℕ) :
    List.Forall₂ R operands[slot]?.toList operands'[slot]?.toList := by
  induction h generalizing slot with
  | nil => exact List.Forall₂.nil
  | cons hfirst _ ih =>
    rcases slot with _ | slot
    · exact List.Forall₂.cons hfirst List.Forall₂.nil
    · exact ih slot

private theorem suppliers_rel (h : List.Forall₂ (Argumentwise R) arguments arguments') (slot : ℕ) :
    List.Forall₂ R (c.suppliers arguments slot) (c.suppliers arguments' slot) := by
  refine List.rel_append (getElem?_rel (withKeyword_rel h none) slot) ?_
  rcases c.parameters[slot]? with _ | p
  · exact List.Forall₂.nil
  · rw [Option.toList_some, List.flatMap_singleton, List.flatMap_singleton]
    exact withKeyword_rel h (some p.name)

/-- **Supply depends on the keywords only**: related arguments supply related operands. -/
theorem Supplies.rel (h : c.Supplies arguments operands)
    (hrel : List.Forall₂ (Argumentwise R) arguments arguments') :
    ∃ operands', c.Supplies arguments' operands' ∧ List.Forall₂ R operands operands' := by
  have hslot : ∀ slot (hlt : slot < operands.length), ∃ b,
      c.suppliers arguments' slot = [b] ∧ R operands[slot] b := by
    intro slot hlt
    have hboth := suppliers_rel (c := c) hrel slot
    rw [h.once, List.getElem?_eq_getElem hlt, Option.toList_some,
      List.forall₂_cons_left_iff] at hboth
    obtain ⟨b, rest, hb, hrest, heq⟩ := hboth
    rw [List.forall₂_nil_left_iff.mp hrest] at heq
    exact ⟨b, heq, hb⟩
  -- The operand of each slot is the only supplier of the slot on the other side.
  choose f hf using hslot
  have hlength : (List.ofFn fun i : Fin operands.length ↦ f i i.2).length = operands.length :=
    List.length_ofFn
  refine ⟨List.ofFn fun i : Fin operands.length ↦ f i i.2, ⟨?_, ?_, ?_, fun slot ↦ ?_⟩, ?_⟩
  · rw [hlength]
    exact h.parameters_le
  · rw [hlength]
    exact h.length_eq
  · rw [← map_fst_of_argumentwise hrel]
    exact h.known
  · by_cases hlt : slot < operands.length
    · rw [(hf slot hlt).1, List.getElem?_ofFn, dif_pos hlt]
      rfl
    · have hboth := suppliers_rel (c := c) hrel slot
      rw [h.once, List.getElem?_eq_none (Nat.le_of_not_lt hlt)] at hboth
      rw [List.forall₂_nil_left_iff.mp hboth, List.getElem?_eq_none (by omega)]
      rfl
  · refine List.forall₂_iff_get.mpr ⟨hlength.symm, fun slot hlt _ ↦ ?_⟩
    rw [List.get_eq_getElem, List.get_eq_getElem, List.getElem_ofFn]
    exact (hf slot hlt).2

theorem Supplies.forall₂ (h : c.Supplies arguments operands) (h' : c.Supplies arguments' operands')
    (hrel : List.Forall₂ (Argumentwise R) arguments arguments') :
    List.Forall₂ R operands operands' := by
  obtain ⟨others, hothers, hoperands⟩ := h.rel hrel
  rwa [hothers.unique h'] at hoperands

private theorem forall₂_eq_iff {f : α → β} :
    List.Forall₂ (fun a b ↦ b = f a) operands operands' ↔ operands' = operands.map f := by
  induction operands generalizing operands' with
  | nil => exact List.forall₂_nil_left_iff
  | cons a rest ih =>
    rw [List.forall₂_cons_left_iff, List.map_cons]
    constructor
    · rintro ⟨b, others, rfl, hothers, rfl⟩
      rw [ih.mp hothers]
    · rintro rfl
      exact ⟨f a, rest.map f, rfl, ih.mpr rfl, rfl⟩

private theorem argumentwise_map (f : α → β) (arguments : List (Option String × α)) :
    List.Forall₂ (Argumentwise fun a b ↦ b = f a) arguments
      (arguments.map fun a ↦ (a.1, f a.2)) := by
  rw [List.forall₂_map_right_iff]
  exact List.forall₂_same.mpr fun _ _ ↦ ⟨rfl, rfl⟩

theorem Supplies.map (h : c.Supplies arguments operands) (f : α → β) :
    c.Supplies (arguments.map fun a ↦ (a.1, f a.2)) (operands.map f) := by
  obtain ⟨operands', hsupplies, hrel⟩ := h.rel (argumentwise_map f arguments)
  rwa [forall₂_eq_iff.mp hrel] at hsupplies

theorem exists_supplies_of_map {f : α → β}
    (h : c.Supplies (arguments.map fun a ↦ (a.1, f a.2)) operands') :
    ∃ operands, c.Supplies arguments operands ∧ operands' = operands.map f := by
  have hflip : List.Forall₂ (Argumentwise fun b a ↦ b = f a)
      (arguments.map fun a ↦ (a.1, f a.2)) arguments := by
    rw [List.forall₂_map_left_iff]
    exact List.forall₂_same.mpr fun _ _ ↦ ⟨rfl, rfl⟩
  obtain ⟨operands, hsupplies, -⟩ := h.rel hflip
  exact ⟨operands, hsupplies, h.unique (hsupplies.map f)⟩

end Supply

/-! ## Destinations -/

section Binding

variable {c : Constructor} {arguments : List (Option String × Value)} {bound : List Value}

/-- The values of the arguments that are bound for a slot. -/
def boundFor (c : Constructor) (next slot : ℕ) (arguments : List (Option String × Value)) :
    List Value :=
  ((c.destinations next arguments).zip (arguments.map Prod.snd)).filterMap fun p ↦
    if p.1 = some slot then some p.2 else none

private theorem mem_boundFor {next slot : ℕ} {value : Value} :
    value ∈ c.boundFor next slot arguments ↔
      (some slot, value) ∈ (c.destinations next arguments).zip (arguments.map Prod.snd) := by
  rw [boundFor, List.mem_filterMap]
  constructor
  · rintro ⟨⟨destination, value'⟩, hmem, hif⟩
    by_cases h : destination = some slot
    · obtain rfl : value' = value := by simpa [h] using hif
      rwa [← h]
    · simp [h] at hif
  · intro hmem
    exact ⟨_, hmem, if_pos rfl⟩

private theorem length_boundFor (next slot : ℕ) :
    (c.boundFor next slot arguments).length
      = (c.destinations next arguments).count (some slot) := by
  induction arguments generalizing next with
  | nil => rfl
  | cons argument rest ih =>
    obtain ⟨_ | keyword, value⟩ := argument
    · have hrest := ih (next + 1)
      by_cases h : next = slot <;> simp_all [boundFor, destinations]
    · have hrest := ih next
      by_cases h : c.parameterIndex? keyword = some slot <;> simp_all [boundFor, destinations]

theorem parameterIndex?_eq_some_iff (hnames : (c.parameters.map (·.name)).Nodup)
    {keyword : String} {slot : ℕ} :
    c.parameterIndex? keyword = some slot ↔
      ∃ p, c.parameters[slot]? = some p ∧ p.name = keyword := by
  rw [parameterIndex?, List.findIdx?_eq_some_iff_getElem]
  constructor
  · rintro ⟨hlt, hname, -⟩
    exact ⟨_, List.getElem?_eq_getElem hlt, by simpa using hname⟩
  · rintro ⟨p, hp, rfl⟩
    obtain ⟨hlt, rfl⟩ := List.getElem?_eq_some_iff.mp hp
    refine ⟨hlt, by simp, fun slot' hslot' hname ↦ ?_⟩
    have hne := List.pairwise_iff_getElem.mp hnames slot' slot
      (by simpa using Nat.lt_trans hslot' hlt) (by simpa using hlt) hslot'
    rw [List.getElem_map, List.getElem_map] at hne
    exact hne (by simpa using hname)

/-- What is bound for a slot is what supplies it, when the slots of arguments without keyword are
counted from `next`. -/
theorem boundFor_perm (hnames : (c.parameters.map (·.name)).Nodup)
    (arguments : List (Option String × Value)) (next slot : ℕ) :
    (c.boundFor next slot arguments).Perm
      ((if next ≤ slot then (withKeyword none arguments)[slot - next]?.toList else []) ++
        c.parameters[slot]?.toList.flatMap fun p ↦ withKeyword (some p.name) arguments) := by
  induction arguments generalizing next with
  | nil =>
    rcases c.parameters[slot]? with _ | p <;> simp [boundFor, destinations, withKeyword]
  | cons argument rest ih =>
    obtain ⟨_ | keyword, value⟩ := argument
    · -- The argument takes the slot `next`, and those behind it are counted from the one after it.
      have hfirst : c.boundFor next slot ((none, value) :: rest)
          = (if next = slot then [value] else []) ++ c.boundFor (next + 1) slot rest := by
        by_cases h : next = slot <;> simp [boundFor, destinations, h]
      have hnamed : (c.parameters[slot]?.toList.flatMap fun p ↦
            withKeyword (some p.name) ((none, value) :: rest))
          = c.parameters[slot]?.toList.flatMap fun p ↦ withKeyword (some p.name) rest := by
        simp [withKeyword_cons]
      rw [hfirst, hnamed]
      refine ((ih (next + 1)).append_left _).trans (List.Perm.of_eq ?_)
      rw [withKeyword_cons, if_pos rfl, List.singleton_append, ← List.append_assoc]
      congr 1
      rcases Nat.lt_trichotomy next slot with hlt | rfl | hlt
      · obtain ⟨distance, rfl⟩ := Nat.exists_eq_add_of_lt hlt
        rw [if_neg (by omega), if_pos (by omega), if_pos (by omega),
          show next + distance + 1 - (next + 1) = distance by omega,
          show next + distance + 1 - next = distance + 1 by omega]
        rfl
      · rw [if_pos rfl, if_neg (by omega), if_pos (Nat.le_refl _), Nat.sub_self]
        rfl
      · rw [if_neg (by omega), if_neg (by omega), if_neg (by omega)]
        rfl
    · -- The argument takes the slot of its parameter, and moves no other argument.
      have hfirst : c.boundFor next slot ((some keyword, value) :: rest)
          = (if c.parameterIndex? keyword = some slot then [value] else [])
            ++ c.boundFor next slot rest := by
        by_cases h : c.parameterIndex? keyword = some slot <;> simp [boundFor, destinations, h]
      have hnamed : (c.parameters[slot]?.toList.flatMap fun p ↦
            withKeyword (some p.name) ((some keyword, value) :: rest))
          = (if c.parameterIndex? keyword = some slot then [value] else [])
            ++ c.parameters[slot]?.toList.flatMap fun p ↦ withKeyword (some p.name) rest := by
        simp only [parameterIndex?_eq_some_iff hnames]
        rcases c.parameters[slot]? with _ | p
        · simp
        · simp [withKeyword_cons, eq_comm]
      have hpositional :
          withKeyword none ((some keyword, value) :: rest) = withKeyword none rest := by
        simp [withKeyword_cons]
      rw [hfirst, hnamed, hpositional]
      refine ((ih next).append_left _).trans ?_
      rw [← List.append_assoc, ← List.append_assoc]
      exact List.perm_append_comm.append_right _

theorem perm_suppliers (hnames : (c.parameters.map (·.name)).Nodup)
    (arguments : List (Option String × Value)) (slot : ℕ) :
    (c.boundFor 0 slot arguments).Perm (c.suppliers arguments slot) := by
  have hperm := boundFor_perm hnames arguments 0 slot
  rwa [if_pos (Nat.zero_le slot), Nat.sub_zero] at hperm

/-! ## Binding what is supplied -/

private theorem length_destinations (next : ℕ) :
    (c.destinations next arguments).length = arguments.length := by
  induction arguments generalizing next with
  | nil => rfl
  | cons argument rest ih =>
    obtain ⟨_ | keyword, value⟩ := argument
    · rw [destinations, List.length_cons, List.length_cons, ih]
    · rw [destinations, List.length_cons, List.length_cons, ih]

private theorem mem_destinations_of_keyword {keyword : String}
    (h : some keyword ∈ arguments.map Prod.fst) (next : ℕ) :
    c.parameterIndex? keyword ∈ c.destinations next arguments := by
  induction arguments generalizing next with
  | nil => cases h
  | cons argument rest ih =>
    obtain ⟨_ | keyword', value⟩ := argument
    · have hrest : some keyword ∈ rest.map Prod.fst := by simpa using h
      exact List.mem_cons_of_mem _ (ih hrest (next + 1))
    · rw [destinations]
      rcases List.mem_cons.mp h with heq | hrest
      · obtain rfl : keyword = keyword' := Option.some.inj heq
        exact List.mem_cons_self
      · exact List.mem_cons_of_mem _ (ih hrest next)

private theorem Rearranges.mem_destinations (h : c.Rearranges arguments bound)
    {destination : Option ℕ} (hmem : destination ∈ c.destinations 0 arguments) :
    ∃ slot, destination = some slot ∧ slot < bound.length := by
  have hlength : (c.destinations 0 arguments).length = (arguments.map Prod.snd).length := by
    rw [length_destinations, List.length_map]
  rw [← List.map_fst_zip (Nat.le_of_eq hlength)] at hmem
  obtain ⟨p, hp, rfl⟩ := List.mem_map.mp hmem
  obtain ⟨slot, hslot, hvalue⟩ := h.at_destination p hp
  exact ⟨slot, hslot, (List.getElem?_eq_some_iff.mp hvalue).1⟩

/-- Rearranged arguments reach every slot: there are as many of them as slots, and no two share
one. -/
theorem Rearranges.boundFor_eq (h : c.Rearranges arguments bound)
    (hnodup : (c.destinations 0 arguments).Nodup) (slot : ℕ) :
    c.boundFor 0 slot arguments = bound[slot]?.toList := by
  have hmem : ∀ value ∈ c.boundFor 0 slot arguments, bound[slot]? = some value := by
    intro value hvalue
    obtain ⟨slot', hslot', hbound⟩ := h.at_destination _ (mem_boundFor.mp hvalue)
    rwa [Option.some.inj hslot']
  by_cases hlt : slot < bound.length
  · -- There are as many destinations as slots and no two are the same, so none is left out.
    have hreached : some slot ∈ c.destinations 0 arguments := by
      have hsubset : c.destinations 0 arguments ⊆ (List.range bound.length).map some := by
        intro destination hdestination
        obtain ⟨slot', rfl, hslot'⟩ := h.mem_destinations hdestination
        exact List.mem_map_of_mem (List.mem_range.mpr hslot')
      have hlength : ((List.range bound.length).map some).length
          = (c.destinations 0 arguments).length := by
        rw [List.length_map, List.length_range, length_destinations, h.perm.length_eq,
          List.length_map]
      have hperm := (hnodup.subperm hsubset).perm_of_length_le (Nat.le_of_eq hlength)
      exact hperm.mem_iff.mpr (List.mem_map_of_mem (List.mem_range.mpr hlt))
    have hone : (c.boundFor 0 slot arguments).length = 1 := by
      rw [length_boundFor]
      exact List.count_eq_one_of_mem hnodup hreached
    obtain ⟨value, hvalue⟩ := List.length_eq_one_iff.mp hone
    rw [hvalue, hmem value (by rw [hvalue]; exact List.mem_cons_self)]
    rfl
  · have hnone : bound[slot]? = none := List.getElem?_eq_none (Nat.le_of_not_lt hlt)
    rw [hnone]
    refine List.eq_nil_iff_forall_not_mem.mpr fun value hvalue ↦ ?_
    have hsome := hmem value hvalue
    rw [hnone] at hsome
    cases hsome

theorem supplies_of_bind (hnames : (c.parameters.map (·.name)).Nodup)
    (hnot : ¬c.Overwrites arguments) (h : c.bind arguments = .ok bound) :
    c.Supplies arguments bound := by
  have hnodup := (nodup_destinations_iff h).mpr hnot
  have hrearranges := rearranges_of_nodup h hnodup
  have hcapacity := (mem_of_bind h).1
  rw [capacity] at hcapacity
  refine ⟨?_, fun hvariadic ↦ ?_, fun keyword hkeyword ↦ ?_, fun slot ↦ ?_⟩
  · split at hcapacity <;> omega
  · rwa [if_neg (by simp [hvariadic])] at hcapacity
  · obtain ⟨slot, hslot, -⟩ :=
      hrearranges.mem_destinations (mem_destinations_of_keyword hkeyword 0)
    obtain ⟨p, hp, hname⟩ := (parameterIndex?_eq_some_iff hnames).mp hslot
    exact List.mem_map.mpr ⟨p, List.mem_of_getElem? hp, hname⟩
  · have hperm := perm_suppliers hnames arguments slot
    rw [hrearranges.boundFor_eq hnodup] at hperm
    rcases hvalue : bound[slot]? with _ | value
    · rw [hvalue] at hperm
      exact hperm.symm.eq_nil
    · rw [hvalue] at hperm
      exact List.perm_singleton.mp hperm.symm

theorem exists_fill_of_fresh {next : ℕ} {slots : List (Option Value)}
    (hslots : ∀ destination ∈ c.destinations next arguments,
      ∃ slot, destination = some slot ∧ slot < slots.length)
    (hfresh : Fresh slots (c.destinations next arguments)) :
    ∃ final, c.fill next slots arguments = .ok final := by
  induction arguments generalizing next slots with
  | nil => exact ⟨slots, by rw [fill]⟩
  | cons argument rest ih =>
    obtain ⟨_ | keyword, value⟩ := argument
    · rw [destinations] at hslots hfresh
      obtain ⟨⟨slot, heq, hnext⟩, hrest⟩ := List.forall_mem_cons.mp hslots
      obtain rfl := Option.some.inj heq
      rw [fill, if_pos hnext]
      exact ih (by simpa using hrest) ((fresh_cons hnext value _).mp hfresh).2
    · rw [destinations] at hslots hfresh
      obtain ⟨⟨slot, hslot, hlt⟩, hrest⟩ := List.forall_mem_cons.mp hslots
      rw [hslot, fresh_cons hlt value] at hfresh
      rw [fill, hslot]
      dsimp only
      split
      · rename_i old hold
        exact absurd ⟨old, hold⟩ hfresh.1
      · exact ih (by simpa using hrest) hfresh.2

private theorem collect_map_some (first : ℕ) (bound : List Value) :
    c.collect first (bound.map some) = .ok bound := by
  induction bound generalizing first with
  | nil => rfl
  | cons value bound ih =>
    rw [List.map_cons, collect, ih]
    rfl

theorem none_not_mem_destinations (hnames : (c.parameters.map (·.name)).Nodup)
    (hknown : ∀ keyword, some keyword ∈ arguments.map Prod.fst →
      keyword ∈ c.parameters.map (·.name)) (next : ℕ) : none ∉ c.destinations next arguments := by
  induction arguments generalizing next with
  | nil => exact List.not_mem_nil
  | cons argument rest ih =>
    have hrest := ih fun keyword hkeyword ↦ hknown keyword (List.mem_cons_of_mem _ hkeyword)
    obtain ⟨_ | keyword, value⟩ := argument
    · rw [destinations, List.mem_cons, not_or]
      exact ⟨(Option.some_ne_none next).symm, hrest (next + 1)⟩
    · rw [destinations, List.mem_cons, not_or]
      refine ⟨fun hnone ↦ ?_, hrest next⟩
      obtain ⟨p, hp, hname⟩ := List.mem_map.mp (hknown keyword List.mem_cons_self)
      obtain ⟨slot, hslot⟩ := List.mem_iff_getElem?.mp hp
      rw [(parameterIndex?_eq_some_iff hnames).mpr ⟨p, hslot, hname⟩] at hnone
      cases hnone

theorem Supplies.nodup_destinations (hnames : (c.parameters.map (·.name)).Nodup)
    (h : c.Supplies arguments bound) : (c.destinations 0 arguments).Nodup ∧
      ∀ destination ∈ c.destinations 0 arguments,
        ∃ slot, destination = some slot ∧ slot < bound.length := by
  have hcount : ∀ slot, (c.destinations 0 arguments).count (some slot)
      = bound[slot]?.toList.length := by
    intro slot
    rw [← length_boundFor, (perm_suppliers hnames arguments slot).length_eq, h.once]
  have hsome := none_not_mem_destinations hnames h.known 0
  constructor
  · refine List.nodup_iff_count_le_one.mpr fun destination ↦ ?_
    rcases destination with _ | slot
    · rw [List.count_eq_zero.mpr hsome]
      exact Nat.zero_le 1
    · rw [hcount]
      exact Option.length_toList_le
  · intro destination hmem
    rcases destination with _ | slot
    · exact absurd hmem hsome
    · refine ⟨slot, rfl, ?_⟩
      by_contra hlt
      have hpos := List.count_pos_iff.mpr hmem
      rw [hcount, List.getElem?_eq_none (Nat.le_of_not_lt hlt)] at hpos
      exact Nat.lt_irrefl 0 hpos

theorem Supplies.length_eq_capacity (h : c.Supplies arguments bound) :
    bound.length = c.capacity arguments := by
  have hcount : (withKeyword none arguments).length = arguments.countP (·.1.isNone) := by
    rw [withKeyword, List.length_filterMap_eq_countP]
    refine List.countP_congr fun argument _ ↦ ?_
    rcases argument.1 with _ | keyword <;> simp
  rw [capacity]
  split
  · rw [← hcount]
    refine Nat.le_antisymm ?_ (Nat.max_le.mpr ⟨h.parameters_le, ?_⟩)
    · -- An operand in the last slot is either that of a parameter or one without keyword.
      by_contra hlt
      rw [Nat.not_le, Nat.max_lt] at hlt
      have hlast := h.once (bound.length - 1)
      rw [suppliers, List.getElem?_eq_none (by omega), List.getElem?_eq_none (by omega),
        List.getElem?_eq_getElem (by omega)] at hlast
      cases hlast
    · by_contra hlt
      have hlast := h.once bound.length
      rw [suppliers, List.getElem?_eq_getElem (Nat.lt_of_not_le hlt),
        List.getElem?_eq_none (Nat.le_refl _)] at hlast
      cases hlast
  · rename_i hvariadic
    exact h.length_eq (by simpa using hvariadic)

theorem bind_of_supplies (hnames : (c.parameters.map (·.name)).Nodup)
    (h : c.Supplies arguments bound) : c.bind arguments = .ok bound := by
  obtain ⟨hnodup, hslots⟩ := h.nodup_destinations hnames
  have hempty : (List.replicate (c.capacity arguments) (none : Option Value)).length
      = bound.length := by
    rw [List.length_replicate, h.length_eq_capacity]
  have hfresh : Fresh (List.replicate (c.capacity arguments) none) (c.destinations 0 arguments) :=
    ⟨hnodup, fun slot _ ↦ not_filled_replicate _ slot⟩
  obtain ⟨final, hfill⟩ := exists_fill_of_fresh (by rwa [hempty]) hfresh
  have hlength : c.parameters.length ≤ (List.replicate (c.capacity arguments)
      (none : Option Value)).length := by
    rw [hempty]
    exact h.parameters_le
  -- Every slot is filled with the only argument that supplies it.
  have hfinal : final = bound.map some := by
    refine List.ext_getElem ?_ fun slot hleft hright ↦ ?_
    · rw [(mem_of_fill hlength hfill).1, hempty, List.length_map]
    · rw [List.length_map] at hright
      have hmem : bound[slot] ∈ c.boundFor 0 slot arguments := by
        rw [(perm_suppliers hnames arguments slot).mem_iff, h.once, List.getElem?_eq_getElem hright]
        exact List.mem_singleton_self _
      obtain ⟨slot', hslot', hvalue⟩ :=
        at_destination_of_fill hlength hfill hfresh _ (mem_boundFor.mp hmem)
      obtain rfl := Option.some.inj hslot'
      rw [List.getElem_map]
      exact (List.getElem?_eq_some_iff.mp hvalue).2
  rw [bind, hfill, hfinal]
  exact collect_map_some 0 bound

end Binding

end MapQuery.Constructor
