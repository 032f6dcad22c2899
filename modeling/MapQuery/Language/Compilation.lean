import MapQuery.Language.Diagnostic
import MapQuery.Language.Evaluation
import MapQuery.Language.Reader

/-!
# Compiling a text into actions

`tryCompile` returns all actions that a text builds, or the first thing that is wrong with it.
`compile` is for the replies of a model: it never fails, returns the first action only, and turns
everything else into warnings.

Before a text is read, its parentheses are counted, and a text with too many open at once is
refused. The count leaves out what stands inside quotation marks. It does not know comments, and for
it a quotation ends at the end of its line, unless a backslash stands there.
-/

namespace MapQuery.Language

/-! ## The limit on nesting -/

/-- The most calls that may be open at once. -/
def maxNesting : Nat := 64

/-- Where the count stands: outside of quotations, or inside one with the given quote, perhaps right
after a backslash. -/
inductive QuoteState where
  | outside
  | inside (quote : Char) (escaped : Bool)
deriving Repr, DecidableEq

/-- The state after one more character. -/
def QuoteState.next (state : QuoteState) (c : Char) : QuoteState :=
  match state with
  | outside => if c == '\'' || c == '"' then inside c false else outside
  | inside quote escaped =>
    if escaped then inside quote false
    else if c == '\\' then inside quote true
    else if c == quote || c == '\n' then outside
    else inside quote false

/-- The text from the first parenthesis on that opens one level too many, if there is one; `depth`
parentheses are open in front of the text. -/
def findTooDeep? (state : QuoteState) (depth : Nat) : List Char → Option (List Char)
  | [] => none
  | c :: rest =>
    if state = .outside && c == '(' then
      if maxNesting < depth + 1 then some (c :: rest)
      else findTooDeep? .outside (depth + 1) rest
    else if state = .outside && c == ')' then findTooDeep? .outside (depth - 1) rest
    else findTooDeep? (state.next c) depth rest

/-- Refuses a text in which too many parentheses are open at once. -/
def checkNesting (text : List Char) : Except SyntaxFault Unit :=
  match findTooDeep? .outside 0 text with
  | some rest => .error (.tooDeep maxNesting, rest)
  | none => .ok ()

end MapQuery.Language

namespace MapQuery

/-! ## Compiling -/

inductive Warning where
  | unusedLayer (line : Nat)
  | discarded (count : Nat)
  | failed (error : CompileError)
deriving Repr, DecidableEq

def Warning.message : Warning → String
  | unusedLayer line => s!"line {line}: layer expression is not used by any action"
  | discarded count =>
    s!"{count} additional action(s) ignored; only the first action is executed"
  | failed error => error.message

/-- The actions that a text builds, in the order in which they are built. -/
structure Program where
  actions : List Action
  warnings : List Warning
deriving DecidableEq

/-- The outcome of compiling a reply: at most one action. -/
structure Compilation where
  action : Option Action
  /-- The number of actions after the first one. -/
  discardedActions : Nat
  warnings : List Warning
deriving DecidableEq

def Compilation.isEmpty (compilation : Compilation) : Bool := compilation.action.isNone

/-- Compiles the text without the blanks in front of it. -/
def compileSource (source : List Char) : Except CompileError Program := do
  (Language.checkNesting source).mapError (.ofFault source)
  let statements ← (Language.readProgram source).mapError (.ofFault source)
  let (lines, actions) ← (evaluateStatements (Place.line source) statements).run []
  return ⟨actions, lines.map .unusedLayer⟩

/-- Compiles a text, or reports the first problem with it. -/
def tryCompile (text : String) : Except CompileError Program :=
  compileSource (Text.trimStart text.toList)

/-- The first action of a program; the others are discarded with a warning. -/
def Program.firstAction (program : Program) : Compilation :=
  let discarded := program.actions.length - 1
  ⟨program.actions.head?, discarded,
    program.warnings ++ if discarded = 0 then [] else [.discarded discarded]⟩

/-- Compiles a text. A text that is refused has no action, and its only warning is the problem. -/
def compile (text : String) : Compilation :=
  match tryCompile text with
  | .ok program => program.firstAction
  | .error error => ⟨none, 0, [.failed error]⟩

end MapQuery
