/-!
# Decimals and floating-point numbers

A decimal is a whole number of units of a power of ten. Every decimal is read as the nearest 64-bit
float, and every finite float has one exact decimal: a power of two is a power of ten divided by a
power of five.

A float is written with as few digits as identify it. Its exact decimal is cut after one digit,
after two digits and so on, and the two decimals next to the cut are read; the first cut where one
of them reads back as the float is taken. If both do, the nearer one is taken, and the upper one
when they are equally near.
-/

namespace MapQuery

/-- The number `digits * 10 ^ exponent`. -/
structure Decimal where
  digits : Nat
  exponent : Int
deriving Repr, DecidableEq

namespace Decimal

/-- The float nearest to the decimal; of two equally near ones the one with the even mantissa, and
infinity beyond the largest float. -/
def toFloat (d : Decimal) : Float :=
  .ofModel (.ofScientific d.digits d.exponent)

/-- The decimal with the value `mantissa * 2 ^ exponent`. -/
def ofBinary (mantissa : Nat) (exponent : Int) : Decimal :=
  if 0 ≤ exponent then ⟨mantissa <<< exponent.toNat, 0⟩
  else ⟨mantissa * Nat.pow 5 (-exponent).toNat, exponent⟩

/-- The lower 52 bits of a float: its mantissa without the leading bit. -/
def fraction (x : Float) : Nat := x.toBits.toNat % 0x10000000000000

/-- The 11 bits of a float that tell its exponent. -/
def exponentField (x : Float) : Nat := (x.toBits.toNat >>> 52) % 0x800

/-- The mantissa of a finite float, with the sign left out. The smallest floats have no leading
bit. -/
def mantissa (x : Float) : Nat :=
  if exponentField x = 0 then fraction x else 0x10000000000000 + fraction x

/-- The exponent of two that belongs to `mantissa x`. -/
def binaryExponent (x : Float) : Int := max (exponentField x : Int) 1 - 1075

/-- Whether the sign bit is set, which also tells `-0.0` from `0.0`. -/
def isNegative (x : Float) : Bool := x.toBits.toNat >>> 63 == 1

/-- The exact value of a finite float, with the sign left out. -/
def exact (x : Float) : Decimal := ofBinary (mantissa x) (binaryExponent x)

/-! ## The shortest decimal -/

def digitCount (n : Nat) : Nat := (Nat.toDigits 10 n).length

/-- The decimal cut after its first `count` digits, rounded down. -/
def cutBelow (d : Decimal) (count : Nat) : Decimal :=
  let dropped := digitCount d.digits - count
  ⟨d.digits / Nat.pow 10 dropped, d.exponent + dropped⟩

/-- The decimal cut after its first `count` digits, rounded up. -/
def cutAbove (d : Decimal) (count : Nat) : Decimal :=
  ⟨(d.cutBelow count).digits + 1, (d.cutBelow count).exponent⟩

/-- Whether the cut after `count` digits is nearer to the decimal from below than from above. -/
def isNearerBelow (d : Decimal) (count : Nat) : Bool :=
  let unit := Nat.pow 10 (digitCount d.digits - count)
  2 * (d.digits % unit) < unit

/-- The decimal of `count` digits that is read as `magnitude`, if there is one; `d` is the exact
value of `magnitude`. -/
def cut? (magnitude : Float) (d : Decimal) (count : Nat) : Option Decimal :=
  let below := d.cutBelow count
  let above := d.cutAbove count
  if below.toFloat = magnitude then
    if above.toFloat = magnitude && !d.isNearerBelow count then some above else some below
  else if above.toFloat = magnitude then some above
  else none

/-- The shortest decimal that is read as the given float, which is finite and has no sign. Seventeen
digits identify every float; the exact value stands behind the search so that it always ends with a
decimal that reads back. -/
def shortest (magnitude : Float) : Decimal :=
  let d := exact magnitude
  ((List.range' 1 17).findSome? (cut? magnitude d)).getD d

theorem toFloat_of_cut? {magnitude : Float} {d s : Decimal} {count : Nat}
    (h : cut? magnitude d count = some s) : s.toFloat = magnitude := by
  simp only [cut?] at h
  split at h
  · rename_i below
    split at h <;> cases h
    · rename_i both
      simp only [Bool.and_eq_true, decide_eq_true_eq] at both
      exact both.1
    · exact below
  · split at h
    · cases h
      assumption
    · cases h

end Decimal

end MapQuery
