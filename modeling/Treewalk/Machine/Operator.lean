import Treewalk.Fault
import Treewalk.Value.Basic

/-!
What operators do with values. The kind of the token decides, and its spelling is only shown in faults.
-/

set_option autoImplicit false

namespace Treewalk

variable {ν ρ : Type}

-- Applies a function to two numbers.
def onNumbers {α : Type} (operator : Token) (left right : Value ν ρ) (apply : Float → Float → α) :
    Except Fault α :=
  match left.number?, right.number? with
  | some left, some right => .ok (apply left right)
  | _, _ => .error ⟨.notNumbers operator.lexeme, operator.line⟩

/-- Adds numbers, or joins the texts of two values of which one is a string. -/
def addValues (line : Int) (left right : Value ν ρ) : Except Fault (Value ν ρ) :=
  match left.number?, right.number? with
  | some left, some right => .ok (.number (left + right))
  | _, _ =>
      if left.isText || right.isText then .ok (.text (left.display ++ right.display))
      else .error ⟨.notAddable, line⟩

-- Divides numbers; only a number divided by zero is refused as such.
def divideValues (operator : Token) (left right : Value ν ρ) : Except Fault (Value ν ρ) :=
  if left.number?.isSome && right.number?.any (· == 0.0) then .error ⟨.divisionByZero, operator.line⟩
  else (onNumbers operator left right (· / ·)).map Value.number

/-- The value of a binary operator. A kind that is none gives nil. -/
def applyBinary (operator : Token) (left right : Value ν ρ) : Except Fault (Value ν ρ) :=
  match operator.kind with
  | .plus => addValues operator.line left right
  | .minus => (onNumbers operator left right (· - ·)).map Value.number
  | .star => (onNumbers operator left right (· * ·)).map Value.number
  | .slash => divideValues operator left right
  | .greater => (onNumbers operator left right (fun a b => decide (b < a))).map Value.boolean
  | .greaterEqual => (onNumbers operator left right (fun a b => decide (b ≤ a))).map Value.boolean
  | .less => (onNumbers operator left right (fun a b => decide (a < b))).map Value.boolean
  | .lessEqual => (onNumbers operator left right (fun a b => decide (a ≤ b))).map Value.boolean
  | .equalEqual => .ok (.boolean (left.equals right))
  | .bangEqual => .ok (.boolean !(left.equals right))
  | _ => .ok .nil

/-- The value of a unary operator. A kind that is none gives nil. -/
def applyUnary (operator : Token) (operand : Value ν ρ) : Except Fault (Value ν ρ) :=
  match operator.kind with
  | .minus => match operand.number? with
    | some value => .ok (.number (-value))
    | none => .error ⟨.notNumber operator.lexeme, operator.line⟩
  | .bang => .ok (.boolean !operand.toBool)
  | _ => .ok .nil

-- Whether the left operand alone decides a logical operator.
def decides (operator : Token) (left : Value ν ρ) : Bool :=
  if operator.kind = .kwOr then left.toBool else !left.toBool

end Treewalk
