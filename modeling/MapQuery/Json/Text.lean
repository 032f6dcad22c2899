import MapQuery.Decimal.Layout
import MapQuery.Decimal.Numeral
import MapQuery.Json.Codec

/-!
# JSON values as texts

A JSON value is written without blanks, and only those characters of a text are escaped that must
be. Blanks may stand between the parts of a text that is read. A number keeps its digits, so it is
written as it was read.

A reader goes into arrays and objects up to a depth only, and refuses what is nested deeper.
-/

namespace MapQuery

/-! ## Numbers -/

/-- Whether the numeral is one of JSON: no other digits follow a leading zero, and there are digits
on both sides of the point. -/
def Numeral.isJson (numeral : Numeral) : Bool :=
  !numeral.whole.isEmpty && numeral.whole.all isDigit
    && (numeral.whole.head? != some '0' || numeral.whole == ['0'])
    && numeral.fraction.all (fun digits ↦ !digits.isEmpty && digits.all isDigit)
    && numeral.exponent.all (fun exponent ↦ !exponent.2.isEmpty && exponent.2.all isDigit)

/-- A number as it is written in JSON. -/
structure JsonNumber where
  numeral : Numeral
  isJson : numeral.isJson = true

namespace JsonNumber

/-- The number at the front of a text, and the rest. -/
def scan? : List Char → Option (JsonNumber × List Char)
  | '+' :: _ => none
  | text =>
    match Numeral.scan text with
    | .error _ => none
    | .ok (numeral, rest) => if h : numeral.isJson then some (⟨numeral, h⟩, rest) else none

def zero : JsonNumber := ⟨⟨false, ['0'], none, none⟩, rfl⟩

/-- The number with the given text, which is the text of a number. -/
def ofText (text : List Char) : JsonNumber :=
  match scan? text with
  | some (number, []) => number
  | _ => zero

def ofInt (n : Int) : JsonNumber := ofText (Decimal.integerDigits n)

def ofFloat (x : Float) : JsonNumber := ofText (Decimal.written .literal x)

/-- The value of a number without point and exponent that fits 64 bits, with a sign or without one.
Negative zero is taken for a float. -/
def toInt? (number : JsonNumber) : Option Int :=
  let n := number.numeral.toInt
  if number.numeral.isInteger && !(number.numeral.isNegative && n == 0)
      && Int64.minValue.toInt ≤ n && n < UInt64.size then
    some n
  else none

/-- The nearest float, unless the number is too large. -/
def toFloat? (number : JsonNumber) : Option Float :=
  if number.numeral.toFloat.isFinite then some number.numeral.toFloat else none

end JsonNumber

namespace JsonText

/-! ## Writing -/

/-- The letters that stand for a character after a backslash. -/
def escapeLetters : List (Char × Char) :=
  [('"', '"'), ('\\', '\\'), ('\n', 'n'), ('\r', 'r'), ('\t', 't'), (Char.ofNat 8, 'b'),
    (Char.ofNat 12, 'f')]

/-- The characters below the blank have no written form but an escape. -/
def isControl (c : Char) : Bool := c.toNat < 32

def escaped (c : Char) : List Char :=
  match escapeLetters.lookup c with
  | some letter => ['\\', letter]
  | none =>
    if isControl c then
      ['\\', 'u', '0', '0', Nat.digitChar (c.toNat / 16), Nat.digitChar (c.toNat % 16)]
    else [c]

def quoted (text : String) : List Char := '"' :: (text.toList.flatMap escaped ++ ['"'])

def separated : List (List Char) → List Char
  | [] => []
  | [text] => text
  | text :: rest => text ++ ',' :: separated rest

mutual

def write : Json JsonNumber → List Char
  | .null => "null".toList
  | .bool value => if value then "true".toList else "false".toList
  | .number number => number.numeral.text
  | .text value => quoted value
  | .array items => '[' :: (separated (writeItems items) ++ [']'])
  | .object members => '\x7b' :: (separated (writeMembers members) ++ ['\x7d'])

def writeItems : List (Json JsonNumber) → List (List Char)
  | [] => []
  | item :: rest => write item :: writeItems rest

def writeMembers : List (String × Json JsonNumber) → List (List Char)
  | [] => []
  | (key, value) :: rest => (quoted key ++ ':' :: write value) :: writeMembers rest

end

/-! ## Reading texts in quotes -/

def hexValue? (c : Char) : Option Nat :=
  if c.isDigit then some (c.toNat - '0'.toNat)
  else if 'a' ≤ c && c ≤ 'f' then some (c.toNat - 'a'.toNat + 10)
  else if 'A' ≤ c && c ≤ 'F' then some (c.toNat - 'A'.toNat + 10)
  else none

/-- The number with four hexadecimal digits. -/
def codeUnit? (a b c d : Char) : Option Nat := do
  let a ← hexValue? a
  let b ← hexValue? b
  let c ← hexValue? c
  let d ← hexValue? d
  return ((a * 16 + b) * 16 + c) * 16 + d

/-- The character that a letter stands for after a backslash. A slash may be escaped as well. -/
def unescaped? (letter : Char) : Option Char :=
  if letter = '/' then some '/' else (escapeLetters.find? (·.2 == letter)).map (·.1)

/-- The characters up to the closing quote, and the rest. A character beyond the first 65536 may be
given as two escapes, the halves of a surrogate pair. -/
def scanText : List Char → Option (List Char × List Char)
  | [] => none
  | '"' :: rest => some ([], rest)
  | '\\' :: 'u' :: a :: b :: c :: d :: rest => do
    let high ← codeUnit? a b c d
    if high < 0xD800 || 0xDFFF < high then
      let (text, rest) ← scanText rest
      return (Char.ofNat high :: text, rest)
    else if 0xDBFF < high then none
    else
      match rest with
      | '\\' :: 'u' :: e :: f :: g :: h :: rest => do
        let low ← codeUnit? e f g h
        if low < 0xDC00 || 0xDFFF < low then none
        else
          let (text, rest) ← scanText rest
          return (Char.ofNat (0x10000 + (high - 0xD800) * 0x400 + (low - 0xDC00)) :: text, rest)
      | _ => none
  | '\\' :: letter :: rest => do
    let c ← unescaped? letter
    let (text, rest) ← scanText rest
    return (c :: text, rest)
  | c :: rest => do
    if isControl c then none
    else
      let (text, rest) ← scanText rest
      return (c :: text, rest)

/-! ## Reading values -/

def isBlank (c : Char) : Bool := c == ' ' || c == '\t' || c == '\n' || c == '\r'

def skipBlanks (text : List Char) : List Char := text.dropWhile isBlank

/-- A value that is no array and no object, at the front of a text without blanks before it. -/
def scanPlain (text : List Char) : Option (Json JsonNumber × List Char) :=
  match text with
  | 'n' :: 'u' :: 'l' :: 'l' :: rest => some (.null, rest)
  | 't' :: 'r' :: 'u' :: 'e' :: rest => some (.bool true, rest)
  | 'f' :: 'a' :: 'l' :: 's' :: 'e' :: rest => some (.bool false, rest)
  | '"' :: rest => do
    let (value, rest) ← scanText rest
    return (.text (String.ofList value), rest)
  | _ => do
    let (number, rest) ← JsonNumber.scan? text
    return (.number number, rest)

section Lists

variable {α : Type} (scan : List Char → Option (α × List Char)) (close : Char)

/-- One or more items with commas between them, up to the closing character. At most `count` items
are read, where a text has no more items than characters. -/
def scanItems : (count : Nat) → List Char → Option (List α × List Char)
  | 0, _ => none
  | count + 1, text => do
    let (item, rest) ← scan text
    match skipBlanks rest with
    | [] => none
    | c :: rest =>
      if c = ',' then
        let (items, rest) ← scanItems count rest
        return (item :: items, rest)
      else if c = close then some ([item], rest)
      else none

/-- The items up to the closing character, after the opening one. -/
def scanList (text : List Char) : Option (List α × List Char) :=
  match skipBlanks text with
  | [] => none
  | c :: rest => if c = close then some ([], rest) else scanItems scan close text.length text

end Lists

/-- A member of an object; `scan` reads its value. -/
def scanMember (scan : List Char → Option (Json JsonNumber × List Char)) (text : List Char) :
    Option ((String × Json JsonNumber) × List Char) :=
  match skipBlanks text with
  | '"' :: rest => do
    let (key, rest) ← scanText rest
    match skipBlanks rest with
    | ':' :: rest => do
      let (value, rest) ← scan rest
      return ((String.ofList key, value), rest)
    | _ => none
  | _ => none

/-- A value that is nested at most `depth` deep, and the rest of the text. -/
def scanValue : (depth : Nat) → List Char → Option (Json JsonNumber × List Char)
  | 0, text => scanPlain (skipBlanks text)
  | depth + 1, text =>
    match skipBlanks text with
    | '[' :: rest => do
      let (items, rest) ← scanList (scanValue depth) ']' rest
      return (.array items, rest)
    | '\x7b' :: rest => do
      let (members, rest) ← scanList (scanMember (scanValue depth)) '\x7d' rest
      return (.object members, rest)
    | text => scanPlain text

/-- Texts nested this deep are refused. -/
def depthLimit : Nat := 128

/-- The value that a text holds. -/
def read? (text : String) : Option (Json JsonNumber) :=
  match scanValue (depthLimit - 1) text.toList with
  | none => none
  | some (json, rest) => if (skipBlanks rest).isEmpty then some json else none

end JsonText

end MapQuery
