/-!
Finite doubles as exact numbers. A `Magnitude` is `mantissa · 2 ^ exponent`; a `Decimal` is
`digits · 10 ^ exponent`. `Magnitude.admits` says which decimals round to a given double, and
`nearest` gives the double a decimal rounds to. Both are exact arithmetic on natural numbers.
-/

set_option autoImplicit false

namespace Treewalk.Numeral

structure Decimal where
  digits : Nat
  exponent : Int
deriving DecidableEq, Repr

structure Magnitude where
  mantissa : Nat
  exponent : Int
deriving DecidableEq, Repr

def twoPow (exponent : Nat) : Nat := Nat.pow 2 exponent
def tenPow (exponent : Nat) : Nat := Nat.pow 10 exponent

-- Decimal digits of a natural number, most significant first.
def digitsOf (value : Nat) : List Char := Nat.toDigits 10 value

-- The power of ten of the first digit.
def Decimal.leading (value : Decimal) : Int :=
  (digitsOf value.digits).length - 1 + value.exponent

-- Doubles have 52 stored fraction bits, and the least of them weighs 2 ^ -1074.
def fractionBits : Nat := 52
def leastExponent : Int := -1074
def infinityField : Nat := 2047

def isNegative (x : Float) : Bool := twoPow 63 ≤ x.toBits.toNat

/-- The size of a finite double without its sign; infinities and NaN have none. -/
def magnitude (x : Float) : Option Magnitude :=
  let field := x.toBits.toNat / twoPow fractionBits % 2048
  let fraction := x.toBits.toNat % twoPow fractionBits
  if field = infinityField then none
  else if field = 0 then some ⟨fraction, leastExponent⟩
  else some ⟨fraction + twoPow fractionBits, field + leastExponent - 1⟩

-- The quarter steps `2 ^ (exponent - 2)` between a double and the nearer end of its rounding
-- interval. Below a power of two the doubles lie twice as close.
def Magnitude.stepsDown (size : Magnitude) : Nat :=
  if size.mantissa = twoPow fractionBits ∧ leastExponent < size.exponent then 1 else 2

/-- Whether a decimal rounds to this double: it lies within half a step, the ends included when the
mantissa is even. -/
def Magnitude.admits (size : Magnitude) (value : Decimal) : Bool :=
  let point := value.digits * tenPow value.exponent.toNat * twoPow (2 - size.exponent).toNat
  let scale := twoPow (size.exponent - 2).toNat * tenPow (-value.exponent).toNat
  let low := (4 * size.mantissa - size.stepsDown) * scale
  let high := (4 * size.mantissa + 2) * scale
  if size.mantissa % 2 = 0 then low ≤ point && point ≤ high else low < point && point < high

-- The double written out in full.
def Magnitude.exact (size : Magnitude) : Decimal :=
  if 0 ≤ size.exponent then ⟨size.mantissa * twoPow size.exponent.toNat, 0⟩
  else ⟨size.mantissa * Nat.pow 5 (-size.exponent).toNat, size.exponent⟩

-- A quotient rounded to the nearest natural number, halves to the even one.
def roundEven (numerator denominator : Nat) : Nat :=
  let whole := numerator / denominator
  let twice := 2 * (numerator % denominator)
  if twice < denominator then whole
  else if denominator < twice then whole + 1
  else if whole % 2 = 0 then whole else whole + 1

-- The exponent at which a quotient has the 53 bits of a double, or the least one.
def binaryExponent (numerator denominator : Nat) : Int :=
  let guess : Int := (numerator.log2 : Int) - denominator.log2 - fractionBits
  let short := numerator * twoPow (-guess).toNat < denominator * twoPow (fractionBits + guess.toNat)
  max leastExponent (if short then guess - 1 else guess)

-- Every decimal from `10 ^ 309` on is infinite, and every one below `10 ^ -324` is less than half the least
-- double. Between them the powers of ten stay small, whatever exponent is written.
def overflowPlace : Int := 309
def underflowPlace : Int := -324

def infinityBits : Nat := infinityField * twoPow fractionBits

/-- The bits of the nonnegative double nearest to a decimal, ties to even, too large ones infinite. -/
def nearestBits (value : Decimal) : Nat :=
  if value.digits = 0 ∨ value.leading < underflowPlace then 0
  else if overflowPlace ≤ value.leading then infinityBits
  else
    let numerator := value.digits * tenPow value.exponent.toNat
    let denominator := tenPow (-value.exponent).toNat
    let exponent := binaryExponent numerator denominator
    let mantissa := roundEven (numerator * twoPow (-exponent).toNat) (denominator * twoPow exponent.toNat)
    min infinityBits ((exponent - leastExponent).toNat * twoPow fractionBits + mantissa)

def nearest (value : Decimal) : Float := Float.ofBits (nearestBits value).toUInt64

end Treewalk.Numeral
