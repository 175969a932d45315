import Treewalk.Numeral.Binary

/-!
The fewest digits that identify a double. Grids of multiples of a power of ten are tried from coarse
to fine; on each, only the two neighbours of the value can be the nearest hit.
-/

set_option autoImplicit false

namespace Treewalk.Numeral

-- The value in units of `10 ^ place`, as a fraction.
def Magnitude.onGrid (size : Magnitude) (place : Int) : Nat × Nat :=
  (size.mantissa * twoPow size.exponent.toNat * tenPow (-place).toNat,
   tenPow place.toNat * twoPow (-size.exponent).toNat)

-- The multiple of `10 ^ place` nearest to the value that rounds to it; of two equally near ones
-- the larger.
def Magnitude.hit? (size : Magnitude) (place : Int) : Option Decimal :=
  let (numerator, denominator) := size.onGrid place
  let below : Decimal := ⟨numerator / denominator, place⟩
  let above : Decimal := ⟨numerator / denominator + 1, place⟩
  match below.digits != 0 && size.admits below, size.admits above with
  | false, false => none
  | true, false => some below
  | false, true => some above
  | true, true => if denominator ≤ 2 * (numerator % denominator) then some above else some below

/-- The first hit on `grids` grids from `place` downwards. Seventeen digits always suffice; the full
expansion stands in where fewer grids are given. -/
def Magnitude.search (size : Magnitude) : Nat → Int → Decimal
  | 0, _ => size.exact
  | grids + 1, place => (size.hit? place).getD (size.search grids (place - 1))

-- A power of ten above the value, at most two places too high.
def Magnitude.topPlace (size : Magnitude) : Int :=
  ((size.mantissa.log2 + 1 : Int) + size.exponent) * 30103 / 100000 + 1

def Magnitude.shortest (size : Magnitude) : Decimal :=
  if size.mantissa = 0 then ⟨0, 0⟩ else size.search 24 size.topPlace

end Treewalk.Numeral
