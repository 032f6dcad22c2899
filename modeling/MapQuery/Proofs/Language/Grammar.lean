import MapQuery.Proofs.Language.Reading

/-!
# The grammar of programs

What a text has to look like to be a program, and which statements it then is. Each rule relates a
text to what stands at its front and to the rest behind that. Nothing is tried and given up here: a
rule says only which characters it needs. There are three exceptions, where one reading rules out
another. A name in front of a parenthesis is a call, whatever gap is between the two; the word
`return` in front of a statement is never read as a name; and a statement begins behind everything
that may stand in front of it, so that it has one place.

Gaps and comments are given by `Filler`, quotations by `Quoted`, numbers by `NumeralText`,
expressions by `DerivesExpression`, and whole texts by `DerivesProgram`.
-/

namespace MapQuery.Language

open Text

/-! ## Gaps -/

/-- Whether the text is at the end of a line, or of the whole text. -/
def AtLineEnd (text : List Char) : Prop := text = [] ∨ ∃ next, text = '\n' :: next

/-- Spaces and comments up to the rest of the text. A comment goes from a number sign to the next
newline, or to the end of the text. -/
inductive Filler (isSpace : Char → Bool) : List Char → List Char → Prop
  | nothing (rest : List Char) : Filler isSpace rest rest
  | space {c : Char} {text rest : List Char} (hc : isSpace c = true)
    (h : Filler isSpace text rest) : Filler isSpace (c :: text) rest
  | comment {body text rest : List Char} (hbody : '\n' ∉ body) (hend : AtLineEnd text)
    (h : Filler isSpace text rest) : Filler isSpace ('#' :: (body ++ text)) rest

/-- A gap: white space and comments. -/
abbrev Gap (text rest : List Char) : Prop := Filler isBlank text rest

/-- Whether the character may stand between statements, outside of comments. -/
def isSeparator (c : Char) : Bool := isBlank c || c == ';'

/-- What stands between statements: gaps and semicolons. -/
abbrev Separators (text rest : List Char) : Prop := Filler isSeparator text rest

/-! ## Names and literals -/

/-- What a name on its own stands for. -/
inductive NameTree (word : String) (place : ℕ) : Expression → Prop
  | true (h : word = "True" ∨ word = "true") : NameTree word place (.literal (.boolean true))
  | false (h : word = "False" ∨ word = "false") : NameTree word place (.literal (.boolean false))
  | none (h : word = "None") : NameTree word place .none
  | name (h : word ∉ ["True", "true", "False", "false", "None"]) :
    NameTree word place (.name word place)

/-- What a backslash and the character after it stand for. -/
inductive Escape : Char → List Char → Prop
  | newline : Escape 'n' ['\n']
  | tab : Escape 't' ['\t']
  | carriageReturn : Escape 'r' ['\r']
  | zero : Escape '0' ['\x00']
  | same {c : Char} (h : c ∈ ['\\', '\'', '"']) : Escape c [c]
  | other {c : Char} (h : c ∉ ['n', 't', 'r', '0', '\\', '\'', '"']) : Escape c ['\\', c]

/-- A quotation behind its opening quote, with the text that it stands for. -/
inductive Quoted (quote : Char) : List Char → List Char → List Char → Prop
  | close (rest : List Char) : Quoted quote (quote :: rest) [] rest
  | escape {c : Char} {meaning text value rest : List Char} (hc : Escape c meaning)
    (h : Quoted quote text value rest) :
    Quoted quote ('\\' :: c :: text) (meaning ++ value) rest
  | char {c : Char} {text value rest : List Char} (hline : c ≠ '\n') (hback : c ≠ '\\')
    (hquote : c ≠ quote) (h : Quoted quote text value rest) :
    Quoted quote (c :: text) (c :: value) rest

def Digits (text : List Char) : Prop := text ≠ [] ∧ ∀ c ∈ text, Numeral.isDigit c = true

inductive SignText : Bool → List Char → Prop
  | nothing : SignText false []
  | plus : SignText false ['+']
  | minus : SignText true ['-']

/-- Digits with a point or without: before it, after it, or on both sides. -/
inductive MantissaText : List Char → Option (List Char) → List Char → Prop
  | whole {digits : List Char} (h : Digits digits) : MantissaText digits none digits
  | point {digits fraction : List Char} (h : Digits digits)
    (hfraction : ∀ c ∈ fraction, Numeral.isDigit c = true) :
    MantissaText digits (some fraction) (digits ++ '.' :: fraction)
  | fraction {digits : List Char} (h : Digits digits) :
    MantissaText [] (some digits) ('.' :: digits)

inductive ExponentText : Option (Bool × List Char) → List Char → Prop
  | nothing : ExponentText none []
  | exponent {mark : Char} {isNegative : Bool} {sign digits : List Char}
    (hmark : mark = 'e' ∨ mark = 'E') (hsign : SignText isNegative sign) (h : Digits digits) :
    ExponentText (some (isNegative, digits)) (mark :: (sign ++ digits))

inductive NumeralText : Numeral → List Char → Prop
  | spelled {n : Numeral} {sign mantissa exponent : List Char} (hsign : SignText n.isNegative sign)
    (hmantissa : MantissaText n.whole n.fraction mantissa)
    (hexponent : ExponentText n.exponent exponent) :
    NumeralText n (sign ++ (mantissa ++ exponent))

/-- What a numeral stands for: an integer of 64 bits, or the nearest float if it has a point or an
exponent. -/
inductive NumberTree (n : Numeral) : Literal → Prop
  | integer {value : Int64} (h : n.fraction = none ∧ n.exponent = none)
    (hvalue : value.toInt = n.toInt) : NumberTree n (.integer value)
  | float (h : ¬(n.fraction = none ∧ n.exponent = none)) : NumberTree n (.float n.toFloat)

/-! ## Expressions -/

/-- The end of a call: its closing parenthesis, with one comma in front of it or without. -/
inductive ClosesCall : List Char → List Char → Prop
  | parenthesis {text rest : List Char} (h : Gap text (')' :: rest)) : ClosesCall text rest
  | comma {text after rest : List Char} (h : Gap text (',' :: after))
    (h' : Gap after (')' :: rest)) : ClosesCall text rest

mutual

/-- An expression with the gap in front of it. -/
inductive DerivesExpression : List Char → Expression → List Char → Prop
  | call {text word after inside rest : List Char} {arguments : List Argument}
    (hgap : Gap text (word ++ after)) (hword : IsName word) (hopen : Gap after ('(' :: inside))
    (harguments : DerivesArguments inside arguments rest) :
    DerivesExpression text (.call (String.ofList word) arguments (word ++ after).length) rest
  | name {text word rest : List Char} {e : Expression} (hgap : Gap text (word ++ rest))
    (hword : IsName word) (hnot : ∀ inside, ¬Gap rest ('(' :: inside))
    (htree : NameTree (String.ofList word) (word ++ rest).length e) : DerivesExpression text e rest
  | quotation {text body value rest : List Char} {quote : Char} (hgap : Gap text (quote :: body))
    (hquote : quote = '\'' ∨ quote = '"') (hquoted : Quoted quote body value rest) :
    DerivesExpression text (.literal (.text (String.ofList value))) rest
  | number {text spelling rest : List Char} {n : Numeral} {value : Literal}
    (hgap : Gap text (spelling ++ rest)) (hspelling : NumeralText n spelling)
    (htree : NumberTree n value) : DerivesExpression text (.literal value) rest

/-- An argument with the gap in front of it. -/
inductive DerivesArgument : List Char → Argument → List Char → Prop
  | positional {text rest : List Char} {e : Expression} (h : DerivesExpression text e rest) :
    DerivesArgument text (none, e) rest
  | keyword {text word after value rest : List Char} {e : Expression}
    (hgap : Gap text (word ++ after)) (hword : IsName word) (hequals : Gap after ('=' :: value))
    (h : DerivesExpression value e rest) :
    DerivesArgument text (some (String.ofList word), e) rest

/-- The arguments of a call, from behind its opening parenthesis to its end. -/
inductive DerivesArguments : List Char → List Argument → List Char → Prop
  | none {text rest : List Char} (h : ClosesCall text rest) : DerivesArguments text [] rest
  | some {text after rest : List Char} {argument : Argument} {arguments : List Argument}
    (hfirst : DerivesArgument text argument after)
    (hmore : DerivesMoreArguments after arguments rest) :
    DerivesArguments text (argument :: arguments) rest

/-- The arguments behind another one, each after a comma, and the end of the call. -/
inductive DerivesMoreArguments : List Char → List Argument → List Char → Prop
  | none {text rest : List Char} (h : ClosesCall text rest) : DerivesMoreArguments text [] rest
  | some {text next after rest : List Char} {argument : Argument} {arguments : List Argument}
    (hcomma : Gap text (',' :: next)) (hfirst : DerivesArgument next argument after)
    (hmore : DerivesMoreArguments after arguments rest) :
    DerivesMoreArguments text (argument :: arguments) rest

end

/-! ## Programs -/

/-- The text begins with the word `return`. -/
def BeginsWithReturn (text after : List Char) : Prop :=
  text = "return".toList ++ after ∧ ∀ c ∈ after.head?, isNamePart c = false

/-- A statement, without what is in front of it. Its place is where it begins. -/
inductive DerivesStatement : List Char → Statement → List Char → Prop
  | returned {text after rest : List Char} {e : Expression} (hreturn : BeginsWithReturn text after)
    (h : DerivesExpression after e rest) : DerivesStatement text ⟨e, text.length⟩ rest
  | plain {text rest : List Char} {e : Expression} (hreturn : ∀ after, ¬BeginsWithReturn text after)
    (h : DerivesExpression text e rest) : DerivesStatement text ⟨e, text.length⟩ rest

/-- The end of a statement: spaces, perhaps a comment, and then the end of the line, a semicolon or
the end of the text, which is where the rest begins. -/
inductive EndsStatement : List Char → List Char → Prop
  | plain {spaces rest : List Char} (hspaces : ∀ c ∈ spaces, c ∈ [' ', '\t', '\r'])
    (hend : AtLineEnd rest ∨ ∃ next, rest = ';' :: next) : EndsStatement (spaces ++ rest) rest
  | comment {spaces body rest : List Char} (hspaces : ∀ c ∈ spaces, c ∈ [' ', '\t', '\r'])
    (hbody : '\n' ∉ body) (hend : AtLineEnd rest) :
    EndsStatement (spaces ++ '#' :: (body ++ rest)) rest

/-- A whole text: statements, each behind all separators in front of it. -/
inductive DerivesProgram : List Char → List Statement → Prop
  | empty {text : List Char} (h : Separators text []) : DerivesProgram text []
  | statement {text start after rest : List Char} {s : Statement} {statements : List Statement}
    (hseparators : Separators text start)
    (hstart : ∀ c ∈ start.head?, isSeparator c = false ∧ c ≠ '#')
    (hstatement : DerivesStatement start s after) (hend : EndsStatement after rest)
    (hrest : DerivesProgram rest statements) : DerivesProgram text (s :: statements)

end MapQuery.Language
