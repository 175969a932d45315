/-!
Faults of a running program: what went wrong and on which line.
-/

set_option autoImplicit false

namespace Treewalk

inductive Cause where
  | unbound (name : String)
  | unassigned (name : String)
  | rebound (name : String)
  | notNumber (operator : String)
  | notNumbers (operator : String)
  | notAddable
  | divisionByZero
  | wrongArity (expected got : Nat)
  | notCallable
  | tooDeep
  | outputFailed (reason : String)
deriving DecidableEq, Repr

def Cause.message : Cause → String
  | unbound name => "Undefined variable '" ++ name ++ "'."
  | unassigned name => "Use of unassigned variable '" ++ name ++ "'."
  | rebound name => "Variable '" ++ name ++ "' is already defined in this scope."
  | notNumber operator => "Operand of '" ++ operator ++ "' must be a number."
  | notNumbers operator => "Operands of '" ++ operator ++ "' must be numbers."
  | notAddable => "Operands of '+' must be numbers or one of them must be a string."
  | divisionByZero => "Division by zero."
  | wrongArity expected got =>
      "Expected " ++ toString expected ++ " arguments but got " ++ toString got ++ "."
  | notCallable => "Can only call functions."
  | tooDeep => "Stack overflow."
  | outputFailed reason => "Failed to write program output: " ++ reason

structure Fault where
  cause : Cause
  line : Int
deriving DecidableEq, Repr

def Fault.display (fault : Fault) : String :=
  fault.cause.message ++ "\n[line " ++ toString fault.line ++ "]"

end Treewalk
