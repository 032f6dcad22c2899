import Mathlib.Data.List.Find
import MapQuery.Memory.Engine
import MapQuery.Memory.Town
import MapQuery.Proofs.Host.Computation

/-!
# Which layer a name means

A layer can go by a name in three ways: it is its id, or its name, or its short name. One could look
for the name among the ids of all layers first, then among their names, and among the short names
last (`preferredLayer?`). An evaluation looks through the layers once instead, and takes the first
one that goes by the name in any way.

How *remotely* something fits a list of tests is the number of the first test that it passes. Asking
one test after the other finds the first of those that fit least remotely, and asking all tests at
once finds the first that fits at all. Both find the same exactly if nothing fits less remotely than
the first that fits at all (`find?_any_eq_findSome?_iff`). For layers this means that the two ways
to look differ on collisions only.
-/

namespace MapQuery

open Memory

/-! ## Looking by several tests -/

section Tests

variable {α : Type} {p q : α → Bool} {xs : List α} {x : α}

/-- The number of the first test that is passed; the number of all tests if none is. -/
def remotenessBy (tests : List (α → Bool)) (x : α) : ℕ := tests.findIdx (· x)

theorem remotenessBy_cons (test : α → Bool) (tests : List (α → Bool)) (x : α) :
    remotenessBy (test :: tests) x = if test x then 0 else remotenessBy tests x + 1 := by
  rw [remotenessBy, List.findIdx_cons]
  cases test x <;> rfl

/-- The first element with a property is also the first one with a stronger property that it has. -/
theorem find?_eq_some_of_imp (hpq : ∀ y, p y = true → q y = true) (hq : xs.find? q = some x)
    (hp : p x = true) : xs.find? p = some x := by
  obtain ⟨-, before, after, rfl, hbefore⟩ := List.find?_eq_some_iff_append.mp hq
  refine List.find?_eq_some_iff_append.mpr ⟨hp, before, after, rfl, ?_⟩
  intro y hy
  have hnot := hbefore y hy
  cases hpy : p y with
  | false => rfl
  | true => simp [hpq y hpy] at hnot

/-- **When the two ways to look agree**: what is found by all tests at once is what is found by one
test after the other exactly if nothing fits less remotely. -/
theorem find?_any_eq_findSome?_iff (tests : List (α → Bool)) (xs : List α) :
    xs.find? (fun x ↦ tests.any (· x)) = tests.findSome? (xs.find? ·) ↔
      ∀ first, xs.find? (fun x ↦ tests.any (· x)) = some first →
        ∀ y ∈ xs, remotenessBy tests first ≤ remotenessBy tests y := by
  induction tests with
  | nil => simp [List.find?_eq_none.mpr]
  | cons test tests ih =>
    rw [List.findSome?_cons]
    cases htest : xs.find? test with
    | none =>
      -- Nothing passes the first test, which therefore only adds one to every number.
      have hfails : ∀ y ∈ xs, test y = false := by simpa using htest
      have hfind : xs.find? (fun x ↦ (test :: tests).any (· x))
          = xs.find? (fun x ↦ tests.any (· x)) := by
        refine List.find?_congr fun y hy ↦ ?_
        rw [List.any_cons, hfails y hy, Bool.false_or]
      have hnumber : ∀ y ∈ xs,
          remotenessBy (test :: tests) y = remotenessBy tests y + 1 := by
        intro y hy
        rw [remotenessBy_cons, hfails y hy]
        rfl
      rw [hfind, ih]
      refine forall₂_congr fun first hfirst ↦ forall₂_congr fun y hy ↦ ?_
      rw [hnumber first (List.mem_of_find?_eq_some hfirst), hnumber y hy, Nat.add_le_add_iff_right]
    | some closest =>
      have hclosest := List.find?_some htest
      constructor
      · intro heq first hfirst y _
        rw [hfirst] at heq
        obtain rfl := Option.some.inj heq
        rw [remotenessBy_cons, hclosest]
        exact Nat.zero_le _
      · intro hleast
        have hsome : (xs.find? fun x ↦ (test :: tests).any (· x)).isSome = true := by
          refine List.find?_isSome.mpr ⟨closest, List.mem_of_find?_eq_some htest, ?_⟩
          rw [List.any_cons, hclosest, Bool.true_or]
        obtain ⟨first, hfirst⟩ := Option.isSome_iff_exists.mp hsome
        -- The first that fits at all passes the first test, since another one does.
        have hnumber := hleast first hfirst closest (List.mem_of_find?_eq_some htest)
        rw [remotenessBy_cons, remotenessBy_cons, hclosest] at hnumber
        have hpass : test first = true := by
          by_contra hfails
          simp [hfails] at hnumber
        have himp : ∀ y, test y = true → ((test :: tests).any (· y)) = true := by
          intro y hy
          rw [List.any_cons, hy, Bool.true_or]
        rw [hfirst, ← htest, find?_eq_some_of_imp himp hfirst hpass]

end Tests

/-! ## Layers -/

section Layers

variable {δ : Type} [Dataset δ]

/-- Whether the name is the id of the layer, letter for letter. -/
def hasId (name : String) (layer : δ) : Bool := Dataset.id layer == name

/-- Whether the name is that of the layer, up to letter case. -/
def hasName (name : String) (layer : δ) : Bool := Text.sameName (Dataset.name layer) name

/-- Whether the name is the short name of the layer, up to letter case. -/
def hasShortName (name : String) (layer : δ) : Bool :=
  (Dataset.shortName layer).any (Text.sameName · name)

/-- The layer that a name means if ids go before names, and names before short names. -/
def preferredLayer? (layers : List δ) (name : String) : Option δ :=
  layers.find? (hasId name) <|> layers.find? (hasName name) <|> layers.find? (hasShortName name)

/-- How remotely a layer goes by a name: 0 by its id, 1 by its name, 2 by its short name, and 3 if
it does not go by the name at all. -/
def remoteness (name : String) (layer : δ) : ℕ :=
  remotenessBy [hasId name, hasName name, hasShortName name] layer

private theorem findLayer?_eq_preferredLayer?_iff (layers : List δ) (name : String) :
    findLayer? layers name = preferredLayer? layers name ↔
      ∀ first, findLayer? layers name = some first →
        ∀ layer ∈ layers, remoteness name first ≤ remoteness name layer := by
  have hpreferred : preferredLayer? layers name
      = [hasId name, hasName name, hasShortName name].findSome? (layers.find? ·) := by
    rw [preferredLayer?, List.findSome?_cons, List.findSome?_cons, List.findSome?_cons]
    cases layers.find? (hasId name) <;> cases layers.find? (hasName name) <;>
      cases layers.find? (hasShortName name) <;> rfl
  have hfind : findLayer? layers name
      = layers.find? fun layer ↦ [hasId name, hasName name, hasShortName name].any (· layer) := by
    refine List.find?_congr fun layer _ ↦ ?_
    simp [goesBy, hasId, hasName, hasShortName, Bool.or_assoc]
  rw [hpreferred, hfind]
  exact find?_any_eq_findSome?_iff _ layers

end Layers

/-! ## Leaves on a host -/

/-- What a leaf is evaluated to if the name at it means the given layer, or none. -/
def leafOutcome {δ : Type} (name : String) : Option δ → Except ExecutionError (Resolved δ)
  | none => .error (.unknownLayer name)
  | some layer => .ok ⟨layer, layer⟩

private theorem leafOutcome_inj {δ : Type} {name : String} {choice choice' : Option δ} :
    leafOutcome name choice = leafOutcome name choice' ↔ choice = choice' := by
  cases choice <;> cases choice' <;> simp [leafOutcome]

section Host

variable {π β δ : Type} [Dataset δ] [Project π δ] [Processing β δ]

private theorem Host.evaluate_source (settings : Settings) (name : String) (host : Host π β) :
    Host.evaluate settings (.source name) host
      = (leafOutcome name (findLayer? (Project.layers host.project) name), host) := by
  have hrun : MapQuery.evaluate settings (Project.layers host.project) (.source name) host.engine
      = (leafOutcome name (findLayer? (Project.layers host.project) name), host.engine) := by
    rw [MapQuery.evaluate]
    cases findLayer? (Project.layers host.project) name <;> rfl
  exact Host.evaluate_of_eq hrun

/-- **Which layer a leaf is evaluated to.** It is the first one in the project that goes by the name
by its id, its name or its short name, and the evaluation fails only if there is none. This is the
layer that the name means when ids go before names and names before short names exactly if no layer
of the project goes by the name less remotely. -/
theorem Host.evaluate_source_eq_preferred_iff (settings : Settings) (name : String)
    (host : Host π β) :
    let layers := Project.layers host.project
    let outcome := Host.evaluate settings (.source name) host
    (∀ layer, outcome = (.ok ⟨layer, layer⟩, host) ↔ goesBy layer name = true ∧
      ∃ before after, layers = before ++ layer :: after ∧
        ∀ other ∈ before, goesBy other name = false) ∧
    (outcome = (.error (.unknownLayer name), host) ↔
      ∀ layer ∈ layers, goesBy layer name = false) ∧
    (outcome = (leafOutcome name (preferredLayer? layers name), host) ↔
      ∀ first, findLayer? layers name = some first →
        ∀ layer ∈ layers, remoteness name first ≤ remoteness name layer) := by
  intro layers outcome
  have hiff : ∀ choice, outcome = (leafOutcome name choice, host) ↔
      findLayer? layers name = choice := by
    intro choice
    rw [show outcome = _ from Host.evaluate_source settings name host, Prod.mk.injEq,
      leafOutcome_inj]
    exact and_iff_left rfl
  have hfound := fun layer ↦ hiff (some layer)
  have hnone := hiff none
  rw [findLayer?, List.find?_eq_none] at hnone
  simp only [findLayer?, List.find?_eq_some_iff_append] at hfound
  refine ⟨fun layer ↦ ?_, ?_, ?_⟩
  · simpa [leafOutcome] using hfound layer
  · simpa [leafOutcome] using hnone
  · exact (hiff _).trans (findLayer?_eq_preferredLayer?_iff layers name)

/-- A layer is hidden from its own id by one in front of it that has this id as its name. -/
theorem Host.evaluate_source_hidden :
    let layer (id name : String) : FeatureCollection :=
      ⟨id, name, none, some numberField, [Town.fidField], none, .polygon, Town.metric, []⟩
    let host : Host Workspace Engine := ⟨.ofLayers [layer "a" "b", layer "b" "c"], .new⟩
    let outcome := Host.evaluate .default (.source "b") host
    (preferredLayer? host.project.layers "b").map (·.id) = some "b" ∧
      outcome.1.map (·.origin.id) = .ok "a" ∧
      outcome ≠ (leafOutcome "b" (preferredLayer? host.project.layers "b"), host) := by
  intro layer host outcome
  have hpreferred : (preferredLayer? host.project.layers "b").map (·.id) = some "b" := by
    decide +kernel
  have horigin : outcome.1.map (·.origin.id) = .ok "a" := by decide +kernel
  refine ⟨hpreferred, horigin, fun heq ↦ ?_⟩
  obtain ⟨found, hfound, hid⟩ := Option.map_eq_some_iff.mp hpreferred
  rw [heq, hfound] at horigin
  have hsame : found.id = "a" := Except.ok.inj horigin
  rw [hid] at hsame
  exact absurd hsame (by decide)

end Host

end MapQuery
