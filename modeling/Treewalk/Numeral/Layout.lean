import Treewalk.Numeral.Shortest

/-!
Numbers as text. `plain` never uses an exponent and gives integers no point. `marked` always shows that
the number is a double: by a point, or by an exponent for the very large and the very small.
`ofParts` and `read?` go the other way.
-/

set_option autoImplicit false

namespace Treewalk.Numeral

def zeros (count : Nat) : List Char := List.replicate count '0'

-- Positional notation without an exponent.
def Decimal.positional (value : Decimal) : List Char :=
  let shown := digitsOf value.digits
  if 0 ≤ value.exponent then shown ++ zeros value.exponent.toNat
  else
    let places := (-value.exponent).toNat
    if places < shown.length then
      shown.take (shown.length - places) ++ '.' :: shown.drop (shown.length - places)
    else '0' :: '.' :: zeros (places - shown.length) ++ shown

-- One digit before the point, then the exponent.
def Decimal.scientific (value : Decimal) : List Char :=
  let fraction := (digitsOf value.digits).drop 1
  (digitsOf value.digits).take 1 ++ (if fraction.isEmpty then [] else '.' :: fraction) ++
    'e' :: (toString value.leading).toList

def Decimal.pointed (value : Decimal) : List Char :=
  if 0 ≤ value.exponent then value.positional ++ ['.', '0'] else value.positional

-- Zero and everything from `10 ^ -4` up to below `10 ^ 16` is written positionally.
def Decimal.marked (value : Decimal) : List Char :=
  if value.digits = 0 ∨ -4 ≤ value.leading ∧ value.leading < 16 then value.pointed else value.scientific

def signed (x : Float) (shown : List Char) : String :=
  String.ofList (if isNegative x then '-' :: shown else shown)

/-- The text of a number under a layout for finite sizes. NaN has no sign. -/
def render (layout : Decimal → List Char) (x : Float) : String :=
  match magnitude x with
  | some size => signed x (layout size.shortest)
  | none => if x.isNaN then "NaN" else signed x ['i', 'n', 'f']

def plain (x : Float) : String := render Decimal.positional x

def marked (x : Float) : String := render Decimal.marked x

def digitValue (c : Char) : Nat := c.toNat - '0'.toNat

def natOfDigits (digits : List Char) : Nat :=
  digits.foldl (fun total c => 10 * total + digitValue c) 0

-- The double nearest to `whole.fraction · 10 ^ exponent`.
def ofParts (whole fraction : List Char) (exponent : Int) : Float :=
  nearest ⟨natOfDigits (whole ++ fraction), exponent - fraction.length⟩

-- A power of ten: digits with an optional sign.
def readExponent? (text : List Char) : Option Int :=
  let (negative, digits) := match text with
    | '-' :: rest => (true, rest)
    | '+' :: rest => (false, rest)
    | rest => (false, rest)
  if digits.isEmpty || !digits.all Char.isDigit then none
  else if negative then some (-(natOfDigits digits : Int)) else some (natOfDigits digits)

def readUnsigned? (text : List Char) : Option Float :=
  let whole := text.takeWhile Char.isDigit
  let (fraction, rest) := match text.dropWhile Char.isDigit with
    | '.' :: tail => (tail.takeWhile Char.isDigit, tail.dropWhile Char.isDigit)
    | tail => ([], tail)
  if whole.isEmpty && fraction.isEmpty then none
  else match rest with
    | [] => some (ofParts whole fraction 0)
    | mark :: tail =>
        if mark = 'e' ∨ mark = 'E' then (readExponent? tail).map (ofParts whole fraction) else none

/-- Reads a decimal with an optional sign, fraction and exponent, or one of the three special texts. -/
def read? (text : String) : Option Float :=
  if text = "NaN" then some (0.0 / 0.0)
  else match text.toList with
    | '-' :: rest => if rest = ['i', 'n', 'f'] then some (-1.0 / 0.0) else (readUnsigned? rest).map (- ·)
    | rest => if rest = ['i', 'n', 'f'] then some (1.0 / 0.0) else readUnsigned? rest

end Treewalk.Numeral
