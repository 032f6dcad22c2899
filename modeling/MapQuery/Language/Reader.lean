import MapQuery.Action.Basic
import MapQuery.Text.Blank
import MapQuery.Decimal.Numeral
import MapQuery.Language.Diagnostic

/-!
# Reading programs

A program is a list of statements, and a statement is an expression. An expression is a literal, a
bare name, or a call whose arguments are expressions, each with the keyword in front of it if there
is one. Names and calls remember their place in the text, as the number of characters that remain
from there on.

Inside a statement, blanks, line ends and comments may stand between any two words; such a stretch
is a *gap*. A comment runs from `#` to the end of its line. A statement ends at a newline or a
semicolon, and only spaces, tabs, carriage returns and one comment may stand in front of that end.

A quotation is a text between two equal quotes, single or double. A backslash and the letter after
it stand for one character; before any other character a backslash stands for itself. A quotation
that the line or the text ends before its closing quote is unterminated; a newline right after a
backslash does not end it.

A reader takes an expression from the front of a text. It ends in one of three ways: with an
expression and the rest of the text; without one, so that a different reading of the same text may
still succeed; or with a fault that no other reading can mend, a quotation that does not end or an
integer that is too large.

Only the list of arguments of a call makes use of the difference: it ends where no further argument
can be read. A call whose closing parenthesis is missing is therefore no expression at all, and the
fault is reported where the outermost call begins.

The readers of expressions and of argument lists call each other. Their first argument bounds how
often; each call but the first comes after a character was read, so the length of the text suffices.
-/

namespace MapQuery

/-! ## Programs -/

inductive Expression where
  | literal (value : Literal)
  /-- The name of no value. -/
  | none
  | name (name : String) (place : Nat)
  | call (callee : String) (arguments : List (Option String × Expression)) (place : Nat)

/-- An argument of a call: its keyword, if it has one, and its value. -/
abbrev Argument := Option String × Expression

/-- An expression on its own, with the place where its statement begins. -/
structure Statement where
  expression : Expression
  place : Nat

mutual

/-- How many calls are open at once in the deepest part of the expression. -/
def Expression.depth : Expression → Nat
  | .call _ arguments _ => Expression.argumentsDepth arguments + 1
  | _ => 0

/-- The greatest depth among the arguments of a call. -/
def Expression.argumentsDepth : List (Option String × Expression) → Nat
  | [] => 0
  | (_, value) :: rest => max value.depth (Expression.argumentsDepth rest)

end

end MapQuery

namespace MapQuery.Language

/-! ## What stands between words -/

/-- The text after filler: characters that count as space, and comments. A comment goes on while
`inComment` is true, and the newline that ends it is filler too. -/
def skipFiller (isSpace : Char → Bool) (inComment : Bool) : List Char → List Char
  | [] => []
  | c :: rest =>
    if inComment then skipFiller isSpace (c != '\n') rest
    else if isSpace c then skipFiller isSpace false rest
    else if c == '#' then skipFiller isSpace true rest
    else c :: rest

/-- The text after the gap at its front. -/
def skipGap (text : List Char) : List Char := skipFiller Text.isBlank false text

/-- The text after all gaps and semicolons at its front. -/
def skipSeparators (text : List Char) : List Char :=
  skipFiller (fun c ↦ Text.isBlank c || c == ';') false text

/-- Whether the character may stand between a statement and its end. -/
def isInlineSpace (c : Char) : Bool := c == ' ' || c == '\t' || c == '\r'

/-- The text after spaces on the same line and a comment; the newline that ends the line stays. -/
def skipToStatementEnd (text : List Char) : List Char :=
  match text.dropWhile isInlineSpace with
  | '#' :: rest => rest.dropWhile (· != '\n')
  | rest => rest

/-! ## Quotations -/

def isQuote (c : Char) : Bool := c == '\'' || c == '"'

/-- The characters for which a backslash and the given character stand. -/
def unescaped (c : Char) : List Char :=
  if c == 'n' then ['\n']
  else if c == 't' then ['\t']
  else if c == 'r' then ['\r']
  else if c == '0' then ['\x00']
  else if c == '\\' || c == '\'' || c == '"' then [c]
  else ['\\', c]

/-- The text up to the closing quote, and the rest after it; nothing if there is no such quote. -/
def scanQuoted (quote : Char) : List Char → Option (List Char × List Char)
  | [] => none
  | ['\\'] => none
  | '\\' :: c :: rest => do
    let (text, rest) ← scanQuoted quote rest
    return (unescaped c ++ text, rest)
  | c :: rest =>
    if c == '\n' then none
    else if c == quote then some ([], rest)
    else do
      let (text, rest) ← scanQuoted quote rest
      return (c :: text, rest)

/-! ## How a reader ends -/

inductive Outcome (α : Type) where
  | read (value : α) (rest : List Char)
  /-- There is nothing to read; the text is where a character did not fit. -/
  | absent (rest : List Char)
  /-- The text is wrong from here on, however it is read. -/
  | broken (rest : List Char)

def Outcome.map {α β : Type} (f : α → β) : Outcome α → Outcome β
  | read value rest => read (f value) rest
  | absent rest => absent rest
  | broken rest => broken rest

/-! ## Names -/

def isNameStart (c : Char) : Bool := c.isAlpha || c == '_'

def isNamePart (c : Char) : Bool := c.isAlphanum || c == '_'

/-- The name at the front of a text, and the rest. -/
def scanName (text : List Char) : String × List Char :=
  (String.ofList (text.takeWhile isNamePart), text.dropWhile isNamePart)

/-- The expression that a name on its own stands for. -/
def bareName (name : String) (place : Nat) : Expression :=
  if name = "True" ∨ name = "true" then .literal (.boolean true)
  else if name = "False" ∨ name = "false" then .literal (.boolean false)
  else if name = "None" then .none
  else .name name place

/-- The keyword at the front of a text, and the rest after the equals sign. Two equals signs do not
make a keyword. -/
def keyword? (text : List Char) : Option (String × List Char) :=
  match text with
  | [] => none
  | c :: _ =>
    if isNameStart c then
      let (name, rest) := scanName text
      match skipGap rest with
      | '=' :: '=' :: _ => none
      | '=' :: rest => some (name, rest)
      | _ => none
    else none

/-! ## Literals -/

def readQuotation (text : List Char) : Outcome Expression :=
  match text with
  | [] => .absent text
  | quote :: rest =>
    match scanQuoted quote rest with
    | some (value, rest) => .read (.literal (.text (String.ofList value))) rest
    | none => .broken text

/-- Reads a number: an integer, or a float if it has a point or an exponent. -/
def readNumber (text : List Char) : Outcome Expression :=
  match Numeral.scan text with
  | .error place => .absent place
  | .ok (numeral, rest) =>
    if numeral.isInteger then
      match numeral.toInt64? with
      | some value => .read (.literal (.integer value)) rest
      | none => .broken text
    else .read (.literal (.float numeral.toFloat)) rest

/-! ## Calls -/

/-- The text after the closing parenthesis of a call; one comma may stand in front of it. -/
def closeCall? (text : List Char) : Option (List Char) :=
  match skipGap text with
  | ')' :: rest => some rest
  | ',' :: rest =>
    match skipGap rest with
    | ')' :: rest => some rest
    | _ => none
  | _ => none

/-- Reads an argument: a keyword if there is one, and a value. -/
def readArgument (readValue : List Char → Outcome Expression) (text : List Char) :
    Outcome Argument :=
  match keyword? (skipGap text) with
  | some (keyword, rest) => (readValue rest).map fun value ↦ (some keyword, value)
  | none => (readValue text).map fun value ↦ (none, value)

mutual

/-- Reads an expression, after a gap if there is one. -/
def readExpression : Nat → List Char → Outcome Expression
  | 0, text => .absent text
  | bound + 1, text =>
    match skipGap text with
    | [] => .absent []
    | c :: tail =>
      let start := c :: tail
      if isNameStart c then
        let (name, rest) := scanName start
        match skipGap rest with
        | '(' :: inside =>
          match readArguments bound inside with
          | .absent _ => .absent start
          | .broken place => .broken place
          | .read arguments rest =>
            match closeCall? rest with
            | some rest => .read (.call name arguments start.length) rest
            | none => .absent start
        | _ => .read (bareName name start.length) rest
      else if isQuote c then readQuotation start
      else readNumber start

/-- Reads the arguments of a call, up to where there is no further one. -/
def readArguments : Nat → List Char → Outcome (List Argument)
  | 0, text => .read [] text
  | bound + 1, text =>
    match readArgument (readExpression bound) text with
    | .absent _ => .read [] text
    | .broken place => .broken place
    | .read argument rest => (readMoreArguments bound rest).map (argument :: ·)

/-- Reads the arguments that follow the first one, each after a comma. -/
def readMoreArguments : Nat → List Char → Outcome (List Argument)
  | 0, text => .read [] text
  | bound + 1, text =>
    match skipGap text with
    | ',' :: next =>
      match readArgument (readExpression bound) next with
      | .absent _ => .read [] text
      | .broken place => .broken place
      | .read argument rest => (readMoreArguments bound rest).map (argument :: ·)
    | _ => .read [] text

end

/-! ## Statements -/

/-- The text after the word `return`, if it stands in front. -/
def skipReturn (text : List Char) : List Char :=
  if "return".toList.isPrefixOf text then
    let rest := text.drop "return".toList.length
    match rest with
    | [] => rest
    | c :: _ => if isNamePart c then text else rest
  else text

/-- Reads a statement: an expression, perhaps after the word `return`. -/
def readStatement (text : List Char) : Outcome Statement :=
  (readExpression (text.length + 1) (skipReturn text)).map fun expression ↦
    ⟨expression, text.length⟩

/-- Reads statements up to the end of the text; `bound` limits their number. -/
def readStatements : Nat → List Char → Except SyntaxFault (List Statement)
  | 0, _ => .ok []
  | bound + 1, text =>
    match skipSeparators text with
    | [] => .ok []
    | c :: tail =>
      match readStatement (c :: tail) with
      | .absent place => .error (.invalid, place)
      | .broken place => .error (.invalid, place)
      | .read statement rest =>
        match skipToStatementEnd rest with
        | [] => .ok [statement]
        | e :: next =>
          if e == '\n' || e == ';' then
            (statement :: ·) <$> readStatements bound (e :: next)
          else .error (.unfinished, e :: next)

/-- Reads a whole text as a program. -/
def readProgram (text : List Char) : Except SyntaxFault (List Statement) :=
  readStatements (text.length + 1) text

end MapQuery.Language
