import Mathlib.Data.List.Nodup
import Mathlib.Data.List.ReduceOption
import Mathlib.Data.List.Perm.Basic
import MapQuery.Language.Evaluation

/-!
# Which arguments reach their parameters

Every argument of a call is bound for one slot: the arguments without keyword for the slots from the
left, one with a keyword for the slot of its parameter (`Constructor.destinations`). Binding puts
each into its slot, and refuses a keyword whose slot is taken. It does not refuse an argument
without keyword whose slot is taken: the new value replaces the old one, which is lost
(`Constructor.Overwrites`). Apart from that, whatever is bound is a rearrangement of what was given.

The slots hold as many values as were put into them, less those that were replaced. At the end all
of them are filled, so counting tells whether a value was lost.
-/

namespace MapQuery.Constructor

variable {c : Constructor} {next : ℕ} {slots final : List (Option Value)}
  {arguments rest : List (Option String × Value)}

/-! ## Destinations -/

/-- The slot of each argument, if it has one; `next` is the slot of the next argument without
keyword. -/
def destinations (c : Constructor) (next : ℕ) :
    List (Option String × Value) → List (Option ℕ)
  | [] => []
  | (.none, _) :: rest => some next :: c.destinations (next + 1) rest
  | (.some keyword, _) :: rest => c.parameterIndex? keyword :: c.destinations next rest

/-- The values are those of the arguments, each in the slot that it is bound for. -/
structure Rearranges (c : Constructor) (arguments : List (Option String × Value))
    (bound : List Value) : Prop where
  /-- Nothing is lost and nothing is duplicated. -/
  perm : bound.Perm (arguments.map Prod.snd)
  /-- Everything is in its place. -/
  at_destination : ∀ p ∈ (c.destinations 0 arguments).zip (arguments.map Prod.snd),
    ∃ slot, p.1 = some slot ∧ bound[slot]? = some p.2

/-- Some slot is the destination of more than one argument. -/
def SuppliesTwice (c : Constructor) (arguments : List (Option String × Value)) : Prop :=
  ∃ slot, 2 ≤ (c.destinations 0 arguments).count (some slot)

/-- Some argument without keyword is bound for a slot that an earlier argument is bound for. -/
def Overwrites (c : Constructor) (arguments : List (Option String × Value)) : Prop :=
  ∃ before value after, arguments = before ++ (none, value) :: after ∧
    some (before.countP (·.1.isNone)) ∈ c.destinations 0 before

/-! ## One slot -/

def Filled (slots : List (Option Value)) (slot : ℕ) : Prop :=
  ∃ value, slots[slot]? = some (some value)

private theorem filled_set {slot : ℕ} (hslot : slot < slots.length) (value : Value) (i : ℕ) :
    Filled (slots.set slot (some value)) i ↔ i = slot ∨ Filled slots i := by
  unfold Filled
  rw [List.getElem?_set]
  by_cases h : slot = i
  · subst h
    simp [hslot]
  · simp [h, Ne.symm h]

private theorem perm_reduceOption_set {slot : ℕ} (hslot : slot < slots.length)
    (hfree : ¬Filled slots slot) (value : Value) :
    (slots.set slot (some value)).reduceOption.Perm (value :: slots.reduceOption) := by
  induction slots generalizing slot with
  | nil => cases hslot
  | cons content slots ih =>
    cases slot with
    | zero =>
      cases content with
      | none => simp
      | some old => exact absurd ⟨old, rfl⟩ hfree
    | succ slot =>
      have hrest := ih (Nat.lt_of_succ_lt_succ hslot) (by simpa [Filled] using hfree)
      cases content with
      | none => simpa using hrest
      | some old =>
        simp only [List.set_cons_succ, List.reduceOption_cons_of_some]
        exact (hrest.cons old).trans (List.Perm.swap value old _)

private theorem length_reduceOption_set {slot : ℕ} (hfilled : Filled slots slot) (value : Value) :
    (slots.set slot (some value)).reduceOption.length = slots.reduceOption.length := by
  induction slots generalizing slot with
  | nil => simp
  | cons content slots ih =>
    cases slot with
    | zero =>
      obtain ⟨old, hold⟩ := hfilled
      obtain rfl : content = some old := by simpa using hold
      simp
    | succ slot =>
      have hfilled' : Filled slots slot := by simpa [Filled] using hfilled
      have hrest := ih hfilled'
      cases content <;> simp [hrest]

private theorem length_reduceOption_set_le {slot : ℕ} (hslot : slot < slots.length)
    (value : Value) :
    (slots.set slot (some value)).reduceOption.length ≤ slots.reduceOption.length + 1 := by
  by_cases h : Filled slots slot
  · rw [length_reduceOption_set h]
    exact Nat.le_succ _
  · exact Nat.le_of_eq (perm_reduceOption_set hslot h value).length_eq

/-! ## One argument -/

private theorem lt_of_parameterIndex? {keyword : String} {slot : ℕ}
    (h : c.parameterIndex? keyword = some slot) : slot < c.parameters.length :=
  (List.findIdx?_eq_some_iff_findIdx_eq.mp h).1

theorem fill_cons {keyword : Option String} {value : Value}
    (hlength : c.parameters.length ≤ slots.length)
    (h : c.fill next slots ((keyword, value) :: rest) = .ok final) :
    ∃ slot next', c.destinations next ((keyword, value) :: rest)
        = some slot :: c.destinations next' rest ∧
      slot < slots.length ∧
      (keyword = none → slot = next ∧ next' = next + 1) ∧
      (keyword ≠ none → ¬Filled slots slot ∧ next' = next) ∧
      c.fill next' (slots.set slot (some value)) rest = .ok final := by
  cases keyword with
  | none =>
    rw [fill] at h
    split at h
    · rename_i hnext
      exact ⟨next, next + 1, rfl, hnext, fun _ ↦ ⟨rfl, rfl⟩, fun hne ↦ absurd rfl hne, h⟩
    · cases h
  | some keyword =>
    rw [fill] at h
    split at h
    · cases h
    · rename_i slot hslot
      split at h
      · cases h
      · rename_i hfree
        refine ⟨slot, next, by rw [destinations, hslot],
          Nat.lt_of_lt_of_le (lt_of_parameterIndex? hslot) hlength, fun hne ↦ absurd hne nofun,
          fun _ ↦ ⟨?_, rfl⟩, h⟩
        rintro ⟨old, hold⟩
        exact hfree old hold

/-! ## All arguments -/

/-- No two destinations are equal, and none of them is filled. -/
def Fresh (slots : List (Option Value)) (destinations : List (Option ℕ)) : Prop :=
  destinations.Nodup ∧ ∀ slot, some slot ∈ destinations → ¬Filled slots slot

theorem fresh_cons {slot : ℕ} (hslot : slot < slots.length) (value : Value)
    (destinations : List (Option ℕ)) :
    Fresh slots (some slot :: destinations) ↔
      ¬Filled slots slot ∧ Fresh (slots.set slot (some value)) destinations := by
  simp only [Fresh, List.nodup_cons, List.mem_cons, filled_set hslot, not_or]
  constructor
  · rintro ⟨⟨hnot, hnodup⟩, hfree⟩
    refine ⟨hfree slot (Or.inl rfl), hnodup, fun i hi ↦ ⟨?_, hfree i (Or.inr hi)⟩⟩
    rintro rfl
    exact hnot hi
  · rintro ⟨hslot, hnodup, hfree⟩
    refine ⟨⟨fun hmem ↦ (hfree slot hmem).1 rfl, hnodup⟩, ?_⟩
    rintro i (hi | hi)
    · rwa [Option.some.inj hi]
    · exact (hfree i hi).2

/-- A filled slot is never emptied, and keeps its value if nothing else is bound for it. -/
theorem getElem?_of_fill (hlength : c.parameters.length ≤ slots.length)
    (h : c.fill next slots arguments = .ok final)
    (hfresh : Fresh slots (c.destinations next arguments)) {slot : ℕ} {value : Value}
    (hvalue : slots[slot]? = some (some value)) : final[slot]? = some (some value) := by
  induction arguments generalizing next slots with
  | nil =>
    rw [fill] at h
    cases h
    exact hvalue
  | cons argument rest ih =>
    obtain ⟨keyword, given⟩ := argument
    obtain ⟨target, next', hdestinations, htarget, -, -, hrest⟩ := fill_cons hlength h
    rw [hdestinations, fresh_cons htarget given] at hfresh
    refine ih (by rwa [List.length_set]) hrest hfresh.2 ?_
    rw [List.getElem?_set_ne, hvalue]
    rintro rfl
    exact hfresh.1 ⟨value, hvalue⟩

/-- Where every argument has a slot of its own, the slots gain exactly the values of the
arguments. -/
theorem perm_of_fill (hlength : c.parameters.length ≤ slots.length)
    (h : c.fill next slots arguments = .ok final)
    (hfresh : Fresh slots (c.destinations next arguments)) :
    final.reduceOption.Perm (slots.reduceOption ++ arguments.map Prod.snd) := by
  induction arguments generalizing next slots with
  | nil =>
    rw [fill] at h
    cases h
    simp
  | cons argument rest ih =>
    obtain ⟨keyword, value⟩ := argument
    obtain ⟨slot, next', hdestinations, hslot, -, -, hrest⟩ := fill_cons hlength h
    rw [hdestinations, fresh_cons hslot value] at hfresh
    refine (ih (by rwa [List.length_set]) hrest hfresh.2).trans ?_
    have hset := perm_reduceOption_set hslot hfresh.1 value
    exact (hset.append_right _).trans List.perm_middle.symm

theorem at_destination_of_fill (hlength : c.parameters.length ≤ slots.length)
    (h : c.fill next slots arguments = .ok final)
    (hfresh : Fresh slots (c.destinations next arguments)) :
    ∀ p ∈ (c.destinations next arguments).zip (arguments.map Prod.snd),
      ∃ slot, p.1 = some slot ∧ final[slot]? = some (some p.2) := by
  induction arguments generalizing next slots with
  | nil => simp [destinations]
  | cons argument rest ih =>
    obtain ⟨keyword, value⟩ := argument
    obtain ⟨slot, next', hdestinations, hslot, -, -, hrest⟩ := fill_cons hlength h
    have hlength' : c.parameters.length ≤ (slots.set slot (some value)).length := by
      rwa [List.length_set]
    rw [hdestinations, fresh_cons hslot value] at hfresh
    rw [hdestinations, List.map_cons, List.zip_cons_cons]
    intro p hp
    rcases List.mem_cons.mp hp with rfl | hp
    · refine ⟨slot, rfl, getElem?_of_fill hlength' hrest hfresh.2 ?_⟩
      rw [List.getElem?_set_self hslot]
    · exact ih hlength' hrest hfresh.2 p hp

/-- The slots never gain more values than there are arguments, and fewer if two of them share a
slot. -/
theorem length_reduceOption_of_fill (hlength : c.parameters.length ≤ slots.length)
    (h : c.fill next slots arguments = .ok final) :
    final.reduceOption.length ≤ slots.reduceOption.length + arguments.length ∧
      (¬Fresh slots (c.destinations next arguments) →
        final.reduceOption.length < slots.reduceOption.length + arguments.length) := by
  induction arguments generalizing next slots with
  | nil =>
    rw [fill] at h
    cases h
    exact ⟨Nat.le_refl _, fun hnot ↦ absurd ⟨List.nodup_nil, nofun⟩ hnot⟩
  | cons argument rest ih =>
    obtain ⟨keyword, value⟩ := argument
    obtain ⟨slot, next', hdestinations, hslot, -, -, hrest⟩ := fill_cons hlength h
    obtain ⟨hle, hlt⟩ := ih (by rwa [List.length_set]) hrest
    have hset := length_reduceOption_set_le hslot value
    rw [hdestinations, fresh_cons hslot value, List.length_cons]
    refine ⟨by omega, fun hnot ↦ ?_⟩
    by_cases hfilled : Filled slots slot
    · rw [length_reduceOption_set hfilled] at hle
      omega
    · have := hlt fun hfresh ↦ hnot ⟨hfilled, hfresh⟩
      omega

/-! ## What is refused, and what is not -/

theorem fresh_of_fill (hlength : c.parameters.length ≤ slots.length)
    (h : c.fill next slots arguments = .ok final)
    (hkept : ∀ before value after, arguments = before ++ (none, value) :: after →
      ¬Filled slots (next + before.countP (·.1.isNone)) ∧
        some (next + before.countP (·.1.isNone)) ∉ c.destinations next before) :
    Fresh slots (c.destinations next arguments) := by
  induction arguments generalizing next slots with
  | nil => exact ⟨List.nodup_nil, nofun⟩
  | cons argument rest ih =>
    obtain ⟨keyword, value⟩ := argument
    obtain ⟨slot, next', hdestinations, hslot, hnone, hsome, hrest⟩ := fill_cons hlength h
    rw [hdestinations, fresh_cons hslot value]
    -- Seen from the rest of the arguments, slots are counted from the next one, and the slot of
    -- this argument is filled.
    have hcount : ∀ before : List (Option String × Value),
        next' + before.countP (·.1.isNone)
          = next + ((keyword, value) :: before).countP (·.1.isNone) := by
      intro before
      cases keyword with
      | none =>
        rw [(hnone rfl).2, List.countP_cons_of_pos rfl]
        omega
      | some keyword => rw [(hsome nofun).2, List.countP_cons_of_neg (by simp)]
    have hbefore : ∀ before, c.destinations next ((keyword, value) :: before)
        = some slot :: c.destinations next' before := by
      intro before
      cases keyword with
      | none => rw [destinations, (hnone rfl).1, (hnone rfl).2]
      | some keyword =>
        rw [destinations] at hdestinations ⊢
        rw [(List.cons.inj hdestinations).1, (hsome nofun).2]
    constructor
    · cases keyword with
      | none => simpa [(hnone rfl).1] using (hkept [] value rest rfl).1
      | some keyword => exact (hsome nofun).1
    · refine ih (by rwa [List.length_set]) hrest fun before later after hsplit ↦ ?_
      have hk := hkept ((keyword, value) :: before) later after (by rw [hsplit, List.cons_append])
      rw [← hcount, hbefore, List.mem_cons, not_or, Option.some.injEq] at hk
      rw [filled_set hslot]
      exact ⟨fun hfilled ↦ hfilled.elim hk.2.1 hk.1, hk.2.2⟩

theorem eq_map_of_collect {first : ℕ} {bound : List Value}
    (h : c.collect first slots = .ok bound) : slots = bound.map some := by
  induction slots generalizing first bound with
  | nil =>
    rw [collect] at h
    cases h
    rfl
  | cons content slots ih =>
    cases content with
    | none => cases h
    | some value =>
      rw [collect] at h
      cases hrest : c.collect (first + 1) slots with
      | error problem =>
        rw [hrest] at h
        cases h
      | ok values =>
        rw [hrest] at h
        cases h
        rw [ih hrest, List.map_cons]

theorem not_filled_replicate (size slot : ℕ) : ¬Filled (List.replicate size none) slot := by
  rintro ⟨value, hvalue⟩
  rw [List.getElem?_replicate] at hvalue
  split at hvalue <;> cases hvalue

theorem exists_fill_of_bind {bound : List Value} (h : c.bind arguments = .ok bound) :
    ∃ empty : List (Option Value), empty.length = c.capacity arguments ∧
      c.parameters.length ≤ empty.length ∧
      empty.reduceOption = [] ∧ (∀ slot, ¬Filled empty slot) ∧
      c.fill 0 empty arguments = .ok (bound.map some) := by
  refine ⟨List.replicate (c.capacity arguments) none, List.length_replicate, ?_, ?_,
    not_filled_replicate _, ?_⟩
  · rw [List.length_replicate, capacity]
    split
    · exact Nat.le_max_left _ _
    · exact Nat.le_refl _
  · exact List.reduceOption_replicate_none
  · rw [bind] at h
    cases hfill : c.fill 0 (List.replicate (c.capacity arguments) none) arguments with
    | error problem =>
      rw [hfill] at h
      cases h
    | ok slots =>
      rw [hfill] at h
      rw [eq_map_of_collect h]

/-! ## Bound arguments -/

private theorem destinations_append (c : Constructor) (next : ℕ)
    (before rest : List (Option String × Value)) :
    c.destinations next (before ++ rest)
      = c.destinations next before ++ c.destinations (next + before.countP (·.1.isNone)) rest := by
  induction before generalizing next with
  | nil => rfl
  | cons argument before ih =>
    obtain ⟨_ | keyword, value⟩ := argument
    · rw [List.cons_append, destinations, destinations, ih, List.cons_append,
        List.countP_cons_of_pos rfl]
      congr 3
      omega
    · rw [List.cons_append, destinations, destinations, ih, List.cons_append,
        List.countP_cons_of_neg (by simp)]

/-- Two bound arguments share a slot exactly when one of them has overwritten the other. -/
theorem nodup_destinations_iff {bound : List Value} (h : c.bind arguments = .ok bound) :
    (c.destinations 0 arguments).Nodup ↔ ¬c.Overwrites arguments := by
  obtain ⟨empty, -, hlength, -, hfree, hfill⟩ := exists_fill_of_bind h
  constructor
  · rintro hnodup ⟨before, value, after, rfl, hmem⟩
    rw [destinations_append, destinations, Nat.zero_add] at hnodup
    exact (List.nodup_append.mp hnodup).2.2 _ hmem _ List.mem_cons_self rfl
  · intro hnot
    refine (fresh_of_fill hlength hfill fun before value after hsplit ↦ ⟨hfree _, ?_⟩).1
    rw [Nat.zero_add]
    exact fun hmem ↦ hnot ⟨before, value, after, hsplit, hmem⟩

theorem rearranges_of_nodup {bound : List Value} (h : c.bind arguments = .ok bound)
    (hnodup : (c.destinations 0 arguments).Nodup) : c.Rearranges arguments bound := by
  obtain ⟨empty, -, hlength, hempty, hfree, hfill⟩ := exists_fill_of_bind h
  have hfresh : Fresh empty (c.destinations 0 arguments) := ⟨hnodup, fun slot _ ↦ hfree slot⟩
  refine ⟨?_, fun p hp ↦ ?_⟩
  · have hperm := perm_of_fill hlength hfill hfresh
    rwa [hempty, List.nil_append, List.reduceOption, List.filterMap_map, Function.id_comp,
      List.filterMap_some] at hperm
  · obtain ⟨slot, hslot, hvalue⟩ := at_destination_of_fill hlength hfill hfresh p hp
    refine ⟨slot, hslot, ?_⟩
    rw [List.getElem?_map, Option.map_eq_some_iff] at hvalue
    obtain ⟨value, hbound, heq⟩ := hvalue
    rw [hbound, heq]

/-- If two bound arguments share a slot, a value is missing among what is bound. -/
theorem length_lt_of_not_nodup {bound : List Value} (h : c.bind arguments = .ok bound)
    (hnodup : ¬(c.destinations 0 arguments).Nodup) : bound.length < arguments.length := by
  obtain ⟨empty, -, hlength, hempty, -, hfill⟩ := exists_fill_of_bind h
  have hlt := (length_reduceOption_of_fill hlength hfill).2 fun hfresh ↦ hnodup hfresh.1
  rwa [hempty, List.length_nil, Nat.zero_add, List.reduceOption, List.filterMap_map,
    Function.id_comp, List.filterMap_some] at hlt

theorem mem_of_fill (hlength : c.parameters.length ≤ slots.length)
    (h : c.fill next slots arguments = .ok final) :
    final.length = slots.length ∧
      ∀ value, some value ∈ final → some value ∈ slots ∨ value ∈ arguments.map Prod.snd := by
  induction arguments generalizing next slots with
  | nil =>
    rw [fill] at h
    cases h
    exact ⟨rfl, fun value hvalue ↦ Or.inl hvalue⟩
  | cons argument rest ih =>
    obtain ⟨keyword, given⟩ := argument
    obtain ⟨slot, next', -, -, -, -, hrest⟩ := fill_cons hlength h
    obtain ⟨hfinal, hmem⟩ := ih (by rwa [List.length_set]) hrest
    rw [List.length_set] at hfinal
    refine ⟨hfinal, fun value hvalue ↦ ?_⟩
    rcases hmem value hvalue with hslots | hlater
    · rcases List.mem_or_eq_of_mem_set hslots with hold | hnew
      · exact Or.inl hold
      · obtain rfl := Option.some.inj hnew
        exact Or.inr List.mem_cons_self
    · exact Or.inr (List.mem_cons_of_mem _ hlater)

theorem mem_of_bind {bound : List Value} (h : c.bind arguments = .ok bound) :
    bound.length = c.capacity arguments ∧ ∀ value ∈ bound, value ∈ arguments.map Prod.snd := by
  obtain ⟨empty, hcapacity, hlength, -, hfree, hfill⟩ := exists_fill_of_bind h
  obtain ⟨hfinal, hmem⟩ := mem_of_fill hlength hfill
  rw [List.length_map, hcapacity] at hfinal
  refine ⟨hfinal, fun value hvalue ↦ ?_⟩
  rcases hmem value (List.mem_map_of_mem hvalue) with hempty | hgiven
  · obtain ⟨slot, hslot⟩ := List.mem_iff_getElem?.mp hempty
    exact absurd ⟨value, hslot⟩ (hfree slot)
  · exact hgiven

/-- **Binding rearranges the arguments unless it overwrites one.** If no argument is overwritten,
the bound values are the given ones, each in its place, and a call that supplies a parameter twice
is refused. If one is overwritten, a value is lost. -/
theorem bind_rearranges_iff (c : Constructor) (arguments : List (Option String × Value)) :
    (∀ bound, c.bind arguments = .ok bound →
      (c.Rearranges arguments bound ↔ ¬c.Overwrites arguments)) ∧
    (c.SuppliesTwice arguments ∧ ¬c.Overwrites arguments → ∀ line actions, ∃ problem,
      (c.apply line arguments).run actions = .error (.arguments line c.name problem)) := by
  constructor
  · intro bound h
    rw [← nodup_destinations_iff h]
    refine ⟨fun hrearranges ↦ ?_, rearranges_of_nodup h⟩
    by_contra hnodup
    have hlt := length_lt_of_not_nodup h hnodup
    rw [hrearranges.perm.length_eq, List.length_map] at hlt
    exact Nat.lt_irrefl _ hlt
  · rintro ⟨⟨slot, htwice⟩, hnot⟩ line actions
    cases h : c.bind arguments with
    | ok bound =>
      have hnodup := (nodup_destinations_iff h).mpr hnot
      have hcount := List.nodup_iff_count_le_one.mp hnodup (some slot)
      omega
    | error problem =>
      refine ⟨problem, ?_⟩
      rw [apply, h]
      rfl

/-- `intersection(source_b=b, a)` puts each layer into its place, and `intersection(a, source_a=b)`
is refused. -/
theorem intersection_rearranges :
    (Catalog.combination "intersection" .intersection false).Rearranges
      [(some "source_b", .layer (.source "b")), (none, .layer (.source "a"))]
      [.layer (.source "a"), .layer (.source "b")] ∧
    ∃ problem, ((Catalog.combination "intersection" .intersection false).apply 1
        [(none, .layer (.source "a")), (some "source_a", .layer (.source "b"))]).run []
      = .error (.arguments 1 "intersection" problem) := by
  constructor
  · refine ((bind_rearranges_iff _ _).1 _ rfl).mpr ?_
    rintro ⟨_ | ⟨first, _ | ⟨second, before⟩⟩, value, after, hsplit, hmem⟩
    · cases hmem
    · obtain rfl := (List.cons.inj hsplit).1
      exact absurd hmem (by decide)
    · simp at hsplit
  · refine (bind_rearranges_iff _ _).2 ⟨⟨0, by decide⟩, ?_⟩ 1 []
    rintro ⟨_ | ⟨first, _ | ⟨second, before⟩⟩, value, after, hsplit, hmem⟩
    · cases hmem
    · simp at hsplit
    · simp at hsplit

/-- `get_layer(id='a', 'b')` supplies its parameter twice, and is bound: the first name is lost. -/
theorem bind_overwrites_source : ∃ c, Catalog.find? "get_layer" = some c ∧
    c.SuppliesTwice [(some "id", .literal (.text "a")), (none, .literal (.text "b"))] ∧
    c.bind [(some "id", .literal (.text "a")), (none, .literal (.text "b"))]
      = .ok [.literal (.text "b")] ∧
    ¬c.Rearranges [(some "id", .literal (.text "a")), (none, .literal (.text "b"))]
      [.literal (.text "b")] := by
  refine ⟨_, rfl, ⟨0, by decide⟩, rfl, fun h ↦ ?_⟩
  exact absurd h.perm.length_eq (by decide)

end MapQuery.Constructor
