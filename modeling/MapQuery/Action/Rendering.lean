import MapQuery.Action.Basic
import MapQuery.Decimal.Layout

/-!
# Actions in call syntax

An action is written as the call that builds it, as in

`select(intersection(get_layer('buildings'), buffer(get_layer('roads'), 500.0)))`.

Texts stand between single quotes, with a backslash before a quote, a backslash or the letter of a
control character; floats always show a point or an exponent, so that they do not read as integers.
-/

namespace MapQuery

/-- How a character stands inside single quotes. -/
def escapedChar (c : Char) : List Char :=
  if c == '\\' then ['\\', '\\']
  else if c == '\'' then ['\\', '\'']
  else if c == '\n' then ['\\', 'n']
  else if c == '\t' then ['\\', 't']
  else if c == '\r' then ['\\', 'r']
  else [c]

def writtenText (text : String) : List Char :=
  '\'' :: text.toList.flatMap escapedChar ++ ['\'']

/-- The call of a command with its arguments. -/
def writtenCall (command : String) (arguments : List (List Char)) : List Char :=
  command.toList ++ '(' :: [',', ' '].intercalate arguments ++ [')']

/-- A literal as it is written in a call. -/
def Literal.written : Literal → List Char
  | text value => writtenText value
  | integer value => Decimal.integerDigits value.toInt
  | float value => Decimal.written .literal value
  | boolean true => "True".toList
  | boolean false => "False".toList

/-- The call that builds a layer. -/
def Layer.written : Layer → List Char
  | source id => writtenCall (source id).command [writtenText id]
  | filtered layer field value =>
    writtenCall (filtered layer field value).command
      [layer.written, writtenText field, value.written]
  | buffered layer distance =>
    writtenCall (buffered layer distance).command
      [layer.written, (Literal.float distance).written]
  | combined overlay a b => writtenCall overlay.command [a.written, b.written]

/-- The call that builds an action. -/
def Action.written (action : Action) : List Char :=
  writtenCall action.verb.command [action.layer.written]

instance : ToString Literal := ⟨fun value ↦ String.ofList value.written⟩

instance : ToString Layer := ⟨fun layer ↦ String.ofList layer.written⟩

instance : ToString Action := ⟨fun action ↦ String.ofList action.written⟩

end MapQuery
