import Mathlib.Data.List.Forall2
import MapQuery.Language.Evaluation

/-!
# The values of written calls

A layer is the value of the call of its command with its parts as arguments
(`Layer.exists_constructor`), and an action is recorded by the call of its verb
(`Verb.exists_constructor`). Whether such a call has a value depends on its arguments only: it has
one if all of them have (`Expression.settles_call`).
-/

namespace MapQuery

/-! ## Expressions with and without a value -/

/-- The value of the expression, whatever was recorded before it; nothing is recorded. -/
def Expression.Denotes (e : Expression) (value : Value) : Prop :=
  ∀ lineAt actions, (e.evaluate lineAt).run actions = .ok (value, actions)

/-- The expression has no value. -/
def Expression.Fails (e : Expression) : Prop :=
  ∀ lineAt actions, ∃ error, (e.evaluate lineAt).run actions = .error error

/-- The expression has the given value if `isSound`, and none otherwise. -/
def Expression.Settles (e : Expression) (value : Value) (isSound : Bool) : Prop :=
  if isSound then e.Denotes value else e.Fails

theorem Expression.denotes_literal (value : Literal) :
    (Expression.literal value).Denotes (.literal value) :=
  fun _ _ ↦ rfl

theorem Expression.fails_name (name : String) (place : ℕ) : (Expression.name name place).Fails :=
  fun _ _ ↦ ⟨_, rfl⟩

/-! ## Arguments -/

/-- An argument of a call as it is written: its text, and the value of the text if it `isSound`. -/
structure Piece where
  text : List Char
  value : Value
  isSound : Bool

/-- The argument has no keyword, and its value is that of the piece. -/
def Piece.Settles (piece : Piece) (argument : Argument) : Prop :=
  argument.1 = none ∧ argument.2.Settles piece.value piece.isSound

def Piece.allSound (pieces : List Piece) : Bool := pieces.all (·.isSound)

variable {pieces : List Piece} {arguments : List Argument}

theorem run_evaluateArguments (h : List.Forall₂ Piece.Settles pieces arguments)
    (hsound : Piece.allSound pieces = true) (lineAt : ℕ → ℕ) (actions : List Action) :
    (Expression.evaluateArguments lineAt arguments).run actions
      = .ok (pieces.map fun piece ↦ (none, piece.value), actions) := by
  induction h with
  | nil => rfl
  | @cons piece argument pieces arguments hpiece _ ih =>
    obtain ⟨keyword, e⟩ := argument
    obtain ⟨hkeyword, hvalue⟩ := hpiece
    obtain ⟨hfirst, hrest⟩ := Bool.and_eq_true_iff.mp hsound
    rw [Expression.Settles, if_pos hfirst] at hvalue
    rw [Expression.evaluateArguments, StateT.run_bind, hvalue lineAt actions]
    change (do
      let values ← (Expression.evaluateArguments lineAt arguments).run actions
      Except.ok ((keyword, piece.value) :: values.1, values.2)) = _
    rw [ih hrest, show keyword = none from hkeyword]
    rfl

theorem exists_error_evaluateArguments (h : List.Forall₂ Piece.Settles pieces arguments)
    (hsound : Piece.allSound pieces = false) (lineAt : ℕ → ℕ) (actions : List Action) :
    ∃ error, (Expression.evaluateArguments lineAt arguments).run actions = .error error := by
  induction h with
  | nil => cases hsound
  | @cons piece argument pieces arguments hpiece _ ih =>
    obtain ⟨keyword, e⟩ := argument
    obtain ⟨-, hvalue⟩ := hpiece
    rw [Expression.evaluateArguments, StateT.run_bind]
    rw [Expression.Settles] at hvalue
    split at hvalue
    · rename_i hfirst
      have hrest : Piece.allSound pieces = false := by
        simpa [Piece.allSound, hfirst] using hsound
      obtain ⟨error, herror⟩ := ih hrest
      refine ⟨error, ?_⟩
      rw [hvalue lineAt actions]
      change (do
        let values ← (Expression.evaluateArguments lineAt arguments).run actions
        Except.ok ((keyword, piece.value) :: values.1, values.2)) = _
      rw [herror]
      rfl
    · obtain ⟨error, herror⟩ := hvalue lineAt actions
      exact ⟨error, by rw [herror]; rfl⟩

/-! ## Calls -/

/-- The values of the arguments with which a layer is built. -/
def Layer.parts : Layer → List Value
  | source id => [.literal (.text id)]
  | filtered layer field value => [.layer layer, .literal (.text field), .literal value]
  | buffered layer distance => [.layer layer, .literal (.float distance)]
  | combined _ a b => [.layer a, .layer b]

theorem Layer.exists_constructor (layer : Layer) : ∃ c, Catalog.find? layer.command = some c ∧
    ∀ line actions, (c.apply line (layer.parts.map (none, ·))).run actions
      = .ok (.layer layer, actions) := by
  rcases layer with id | ⟨layer, field, value⟩ | ⟨layer, distance⟩ | ⟨overlay, a, b⟩
  · exact ⟨_, rfl, fun _ _ ↦ rfl⟩
  · rcases value with _ | _ | _ | _ <;> exact ⟨_, rfl, fun _ _ ↦ rfl⟩
  · exact ⟨_, rfl, fun _ _ ↦ rfl⟩
  · rcases overlay with _ | _ | _ <;> exact ⟨_, rfl, fun _ _ ↦ rfl⟩

theorem Verb.exists_constructor (verb : Verb) : ∃ c, Catalog.find? verb.command = some c ∧
    ∀ line layer actions, (c.apply line [(none, .layer layer)]).run actions
      = .ok (.none, actions ++ [⟨verb, layer⟩]) := by
  rcases verb with _ | _ | _ <;> exact ⟨_, rfl, fun _ _ _ ↦ rfl⟩

variable {callee : String} {c : Constructor}

theorem run_evaluate_call (hc : Catalog.find? callee = some c)
    (h : List.Forall₂ Piece.Settles pieces arguments) (hsound : Piece.allSound pieces = true)
    (place : ℕ) (lineAt : ℕ → ℕ) (actions : List Action) :
    ((Expression.call callee arguments place).evaluate lineAt).run actions
      = (c.apply (lineAt place) (pieces.map fun piece ↦ (none, piece.value))).run actions := by
  rw [Expression.evaluate, hc]
  change (do
    let values ← (Expression.evaluateArguments lineAt arguments).run actions
    (c.apply (lineAt place) values.1).run values.2) = _
  rw [run_evaluateArguments h hsound]
  rfl

theorem fails_call (hc : Catalog.find? callee = some c)
    (h : List.Forall₂ Piece.Settles pieces arguments) (hsound : Piece.allSound pieces = false)
    (place : ℕ) : (Expression.call callee arguments place).Fails := by
  intro lineAt actions
  obtain ⟨error, herror⟩ := exists_error_evaluateArguments h hsound lineAt actions
  refine ⟨error, ?_⟩
  rw [Expression.evaluate, hc]
  change (do
    let values ← (Expression.evaluateArguments lineAt arguments).run actions
    (c.apply (lineAt place) values.1).run values.2) = _
  rw [herror]
  rfl

/-- **The call that builds a layer** has the layer as its value, if its arguments have values. -/
theorem Layer.settles_call {layer : Layer} (h : List.Forall₂ Piece.Settles pieces arguments)
    (hvalues : pieces.map (·.value) = layer.parts) (place : ℕ) :
    (Expression.call layer.command arguments place).Settles (.layer layer)
      (Piece.allSound pieces) := by
  obtain ⟨c, hc, happly⟩ := layer.exists_constructor
  rw [Expression.Settles]
  split
  · rename_i hsound
    intro lineAt actions
    rw [run_evaluate_call hc h hsound, ← happly (lineAt place) actions, ← hvalues, List.map_map]
    rfl
  · rename_i hsound
    exact fails_call hc h (Bool.eq_false_iff.mpr hsound) place

end MapQuery
