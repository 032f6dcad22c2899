import MapQuery.Language.Binding
import MapQuery.Language.Reader

/-!
# Evaluating programs

An expression is evaluated to a value. The arguments of a call are evaluated first, from left to
right; then they are bound, checked and built into a node. A layer is the value of its call. An
action is appended to the list of actions as soon as it is built, and its call has no value.
-/

namespace MapQuery

/-- A computation that records actions and may fail. -/
abbrev Evaluation := StateT (List Action) (Except CompileError)

/-- What is wrong with the arguments of a call on a line. -/
def Constructor.onLine {α : Type} (c : Constructor) (line : Nat)
    (result : Except ArgumentProblem α) : Except CompileError α :=
  result.mapError (.arguments line c.name ·)

/-- Calls a constructor with evaluated arguments. -/
def Constructor.apply (c : Constructor) (line : Nat) (arguments : List (Option String × Value)) :
    Evaluation Value := do
  let values ← c.onLine line (c.bind arguments)
  let operands ← c.accept line 0 values
  match ← c.onLine line (c.build operands) with
  | .inl layer => return .layer layer
  | .inr action =>
    modify (· ++ [action])
    return .none

mutual

/-- The value of an expression; `lineAt` tells the line of each place. -/
def Expression.evaluate (lineAt : Nat → Nat) : Expression → Evaluation Value
  | .literal value => return .literal value
  | .none => return .none
  | .name word place => throw (.unknownName (lineAt place) word)
  | .call callee arguments place =>
    match Catalog.find? callee with
    | .none => throw (.unknownName (lineAt place) callee)
    | .some c => do
      let values ← Expression.evaluateArguments lineAt arguments
      c.apply (lineAt place) values

/-- The values of the arguments of a call, from left to right. -/
def Expression.evaluateArguments (lineAt : Nat → Nat) :
    List (Option String × Expression) → Evaluation (List (Option String × Value))
  | [] => return []
  | (keyword, expression) :: rest => do
    let value ← expression.evaluate lineAt
    let values ← Expression.evaluateArguments lineAt rest
    return (keyword, value) :: values

end

/-- Evaluates statements in order. The lines of those whose value is a layer are returned: nothing
is done with that layer. -/
def evaluateStatements (lineAt : Nat → Nat) : List Statement → Evaluation (List Nat)
  | [] => return []
  | statement :: rest => do
    let value ← statement.expression.evaluate lineAt
    let lines ← evaluateStatements lineAt rest
    match value with
    | .layer _ => return lineAt statement.place :: lines
    | _ => return lines

end MapQuery
