import MapQuery.Catalog
import MapQuery.Text.Blank

/-!
# Places in a text, and what can be wrong with it

A place in a text is given by the number of characters that remain from there on, so that it means
the same to every function that reads a rest of the text. Lines and columns are counted from one;
a column counts code points.

`CompileError` lists the causes for which a text is refused, and `CompileError.message` words them.
-/

namespace MapQuery

/-! ## Places -/

namespace Place

/-- The part of the text in front of the place from which `remaining` characters remain. -/
def before (source : List Char) (remaining : Nat) : List Char :=
  source.take (source.length - remaining)

/-- The number of the line that holds the place. -/
def line (source : List Char) (remaining : Nat) : Nat :=
  (before source remaining).count '\n' + 1

/-- The number of the column at the place. -/
def column (source : List Char) (remaining : Nat) : Nat :=
  ((before source remaining).reverse.takeWhile (· != '\n')).length + 1

end Place

/-! ## Causes -/

inductive SyntaxProblem where
  /-- No expression can be read here. -/
  | invalid
  /-- Something stands between an expression and the end of its statement. -/
  | unfinished
  /-- Too many calls are open at once. -/
  | tooDeep (limit : Nat)
deriving Repr, DecidableEq

/-- A problem with the form of a text, and the rest of the text from where it is. -/
abbrev SyntaxFault := SyntaxProblem × List Char

inductive ArgumentProblem where
  | tooMany (capacity : Nat)
  | unexpectedKeyword (keyword : String)
  | repeated (keyword : String)
  | missing (parameter : String)
  | unexpectedShape
  | tooFewLayers
deriving Repr, DecidableEq

inductive CompileError where
  | malformed (line column : Nat) (problem : SyntaxProblem) (near : String)
  | unknownName (line : Nat) (name : String)
  | arguments (line : Nat) (callee : String) (problem : ArgumentProblem)
  | type (line : Nat) (callee parameter : String) (expected : ParameterType) (found : String)
deriving Repr, DecidableEq

/-- The most characters of the text that a message shows. -/
def nearLimit : Nat := 24

/-- The text at the place of a problem as a message shows it: a few characters without blanks at the
end. -/
def nearText (rest : List Char) : String :=
  String.ofList (Text.trimEnd (rest.take nearLimit))

/-- The error for a fault in the text `source`. -/
def CompileError.ofFault (source : List Char) (fault : SyntaxFault) : CompileError :=
  .malformed (Place.line source fault.2.length) (Place.column source fault.2.length) fault.1
    (nearText fault.2)

/-! ## Messages -/

def SyntaxProblem.message : SyntaxProblem → String
  | invalid => "invalid syntax"
  | unfinished => "expected end of statement"
  | tooDeep limit => s!"calls nested deeper than {limit} levels"

def ArgumentProblem.message : ArgumentProblem → String
  | tooMany capacity => s!"takes {capacity} positional argument(s) but more were given"
  | unexpectedKeyword keyword => s!"got an unexpected keyword argument `{keyword}`"
  | repeated keyword => s!"got multiple values for argument `{keyword}`"
  | missing parameter => s!"missing required argument `{parameter}`"
  | unexpectedShape => "received arguments of an unexpected shape"
  | tooFewLayers => "needs at least two layers"

def CompileError.message : CompileError → String
  | malformed line column problem near =>
    let detail := problem.message ++ (if near = "" then "" else s!" near `{near}`")
    s!"syntax error on line {line}, column {column}: {detail}"
  | unknownName line name => s!"line {line}: name `{name}` is not defined"
  | arguments line callee problem =>
    let detail := problem.message
    s!"line {line}: {callee}() {detail}"
  | type line callee parameter expected found =>
    let wanted := expected.name
    s!"line {line}: {callee}() argument `{parameter}` expects {wanted}, got {found}"

end MapQuery
