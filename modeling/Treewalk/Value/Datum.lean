import Treewalk.Token.Basic

/-!
Data that a program can write down: nil, truth values, numbers and strings.
-/

set_option autoImplicit false

namespace Treewalk

inductive Datum where
  | nil
  | boolean (value : Bool)
  | number (value : Float)
  | text (value : String)
deriving Repr

def Literal.datum : Literal → Datum
  | .number value => .number value
  | .text value => .text value

-- How a datum is printed: a string stands for itself.
def Datum.display : Datum → String
  | .nil => "nil"
  | .boolean value => if value then "true" else "false"
  | .number value => Numeral.plain value
  | .text value => value

-- Only nil and false count as false.
def Datum.toBool : Datum → Bool
  | .nil => false
  | .boolean value => value
  | _ => true

/-- Equality of a program's data. Nil equals nothing, itself included, and kinds never mix. -/
def Datum.equals : Datum → Datum → Bool
  | .boolean left, .boolean right => left == right
  | .number left, .number right => left == right
  | .text left, .text right => left == right
  | _, _ => false

end Treewalk
