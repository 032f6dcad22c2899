import MapQuery.Decimal.Basic

/-!
# The written form of a float

The shortest digits of a float are laid out in one of two ways. In a *literal* the text shows that
it is a float: it has a point or an exponent, and very large and very small numbers have an
exponent. In a *plain* text there is never an exponent, and a whole number has no point.
-/

namespace MapQuery.Decimal

structure Layout where
  /-- Whether numbers from `10 ^ 16` on and below `10 ^ (-4)` are written with an exponent. -/
  usesExponent : Bool
  /-- Whether a whole number ends in `.0`. -/
  marksWhole : Bool

/-- The written form in which a float reads back as a float. -/
def Layout.literal : Layout := ⟨true, true⟩

/-- The written form in messages: digits and at most a point. -/
def Layout.plain : Layout := ⟨false, false⟩

/-- The digits written out around the point, which stands `point` places after the first digit. -/
def positional (layout : Layout) (digits : List Char) (point : Int) : List Char :=
  if point ≤ 0 then
    '0' :: '.' :: List.replicate (-point).toNat '0' ++ digits
  else if point.toNat < digits.length then
    digits.take point.toNat ++ '.' :: digits.drop point.toNat
  else
    digits ++ List.replicate (point.toNat - digits.length) '0'
      ++ (if layout.marksWhole then ['.', '0'] else [])

/-- The digits of an integer, with a sign if it is negative. -/
def integerDigits (n : Int) : List Char :=
  match n with
  | .ofNat n => Nat.toDigits 10 n
  | .negSucc n => '-' :: Nat.toDigits 10 (n + 1)

/-- The digits with the point after the first one, and an exponent of ten. -/
def scientific (digits : List Char) (point : Int) : List Char :=
  digits.take 1 ++ (if digits.length ≤ 1 then [] else '.' :: digits.drop 1)
    ++ 'e' :: integerDigits (point - 1)

/-- The digits of a positive decimal without the zeros at its end. -/
def significantDigits (d : Decimal) : List Char :=
  ((Nat.toDigits 10 d.digits).reverse.dropWhile (· == '0')).reverse

def writtenDecimal (layout : Layout) (d : Decimal) : List Char :=
  let point := d.exponent + digitCount d.digits
  if layout.usesExponent && (point < -3 || 16 < point) then
    scientific d.significantDigits point
  else
    positional layout d.significantDigits point

def writtenMagnitude (layout : Layout) (magnitude : Float) : List Char :=
  if magnitude.isInf then ['i', 'n', 'f']
  else if mantissa magnitude = 0 then '0' :: (if layout.marksWhole then ['.', '0'] else [])
  else writtenDecimal layout (shortest magnitude)

def written (layout : Layout) (x : Float) : List Char :=
  if x.isNaN then ['N', 'a', 'N']
  else if isNegative x then '-' :: writtenMagnitude layout (-x)
  else writtenMagnitude layout x

/-- The text of a float that shows that it is a float. -/
def literalText (x : Float) : String := String.ofList (written .literal x)

/-- The text of a float without an exponent. -/
def plainText (x : Float) : String := String.ofList (written .plain x)

end MapQuery.Decimal
