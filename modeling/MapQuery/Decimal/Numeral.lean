import MapQuery.Decimal.Basic

/-!
# Numerals

A numeral is an optional sign and digits, in ASCII, with an optional fraction and an optional
exponent: `42`, `-2.5e3`, `.5`, `1.`. At least one digit stands before or after the point.
`Numeral.scan` takes the longest numeral from the front of a text. A numeral without point and
exponent denotes an integer, any other one a float.
-/

namespace MapQuery

/-- The parts of a numeral as they are written. -/
structure Numeral where
  isNegative : Bool
  whole : List Char
  /-- The digits after the point, if there is a point. -/
  fraction : Option (List Char)
  /-- The sign and the digits of the exponent, if there is one. -/
  exponent : Option (Bool × List Char)
deriving Repr, DecidableEq

namespace Numeral

/-! ## Scanning -/

def isDigit (c : Char) : Bool := '0' ≤ c && c ≤ '9'

/-- The digits at the front of a text, and the rest. -/
def scanDigits (text : List Char) : List Char × List Char :=
  (text.takeWhile isDigit, text.dropWhile isDigit)

/-- A sign at the front of a text, and the rest. No sign means plus. -/
def scanSign : List Char → Bool × List Char
  | '-' :: rest => (true, rest)
  | '+' :: rest => (false, rest)
  | text => (false, text)

/-- The exponent at the front of a text, and the rest. An `e` that no digits follow is no exponent
and stays in the rest. -/
def scanExponent (text : List Char) : Option (Bool × List Char) × List Char :=
  match text with
  | [] => (none, [])
  | mark :: rest =>
    if mark == 'e' || mark == 'E' then
      let (isNegative, rest) := scanSign rest
      match scanDigits rest with
      | ([], _) => (none, text)
      | (digits, rest) => (some (isNegative, digits), rest)
    else (none, text)

/-- The digits before and after the point at the front of a text, and the rest; or, where there are
none, the text at which a digit was expected. -/
def scanMantissa (text : List Char) :
    Except (List Char) (List Char × Option (List Char) × List Char) :=
  match scanDigits text with
  | ([], '.' :: rest) =>
    match scanDigits rest with
    | ([], _) => .error rest
    | (fraction, rest) => .ok ([], some fraction, rest)
  | ([], _) => .error text
  | (whole, '.' :: rest) =>
    let (fraction, rest) := scanDigits rest
    .ok (whole, some fraction, rest)
  | (whole, rest) => .ok (whole, none, rest)

/-- The longest numeral at the front of a text, and the rest; or, where there is none, the text at
which a digit was expected. -/
def scan (text : List Char) : Except (List Char) (Numeral × List Char) :=
  let (isNegative, rest) := scanSign text
  match scanMantissa rest with
  | .error place => .error place
  | .ok (whole, fraction, rest) =>
    let (exponent, rest) := scanExponent rest
    .ok (⟨isNegative, whole, fraction, exponent⟩, rest)

/-- The numeral that makes up the whole text. -/
def ofText? (text : List Char) : Option Numeral :=
  match scan text with
  | .ok (numeral, []) => some numeral
  | _ => none

/-! ## Spelling -/

def signText (isNegative : Bool) : List Char := if isNegative then ['-'] else []

def fractionText : Option (List Char) → List Char
  | none => []
  | some digits => '.' :: digits

/-- The mark of the exponent, its sign and its digits. -/
def exponentText : Option (Bool × List Char) → List Char
  | none => []
  | some (isNegative, digits) => 'e' :: (signText isNegative ++ digits)

def text (n : Numeral) : List Char :=
  signText n.isNegative ++ (n.whole ++ (fractionText n.fraction ++ exponentText n.exponent))

/-! ## Values -/

/-- The number that digits denote in base ten. -/
def digitsValue (digits : List Char) : Nat :=
  digits.foldl (fun value c ↦ 10 * value + (c.toNat - '0'.toNat)) 0

/-- Whether the numeral is written without point and exponent. -/
def isInteger (numeral : Numeral) : Bool := numeral.fraction.isNone && numeral.exponent.isNone

/-- The value with its sign left out. -/
def magnitude (numeral : Numeral) : Decimal :=
  let fraction := numeral.fraction.getD []
  let exponent : Int :=
    match numeral.exponent with
    | none => 0
    | some (false, digits) => digitsValue digits
    | some (true, digits) => -digitsValue digits
  ⟨digitsValue (numeral.whole ++ fraction), exponent - fraction.length⟩

/-- The nearest float. -/
def toFloat (numeral : Numeral) : Float :=
  if numeral.isNegative then -numeral.magnitude.toFloat else numeral.magnitude.toFloat

/-- The value of an integer numeral. -/
def toInt (numeral : Numeral) : Int :=
  if numeral.isNegative then -digitsValue numeral.whole else digitsValue numeral.whole

/-- The value of an integer numeral, if it fits a signed word of 64 bits. -/
def toInt64? (numeral : Numeral) : Option Int64 :=
  if Int64.minValue.toInt ≤ numeral.toInt ∧ numeral.toInt ≤ Int64.maxValue.toInt then
    some (Int64.ofInt numeral.toInt)
  else none

/-- The natural number below `bound` that a text denotes: digits, perhaps after a plus sign. -/
def natural? (bound : Nat) (text : List Char) : Option Nat :=
  let digits :=
    match text with
    | '+' :: rest => rest
    | _ => text
  if !digits.isEmpty && digits.all isDigit && digitsValue digits < bound then
    some (digitsValue digits)
  else none

end Numeral

end MapQuery
