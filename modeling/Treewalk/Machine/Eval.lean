import Treewalk.Machine.Basic
import Treewalk.Machine.Operator

/-!
Running trees. Operands are evaluated from left to right, and a call checks in this order that the callee
can be called, that it takes so many arguments, and that another call may run. Every step uses one unit of
fuel; a run that ends does so with any larger amount.
-/

set_option autoImplicit false

namespace Treewalk

open Run

-- How a statement ends: by coming to its end, or by returning from the function around it.
inductive Ending where
  | normal
  | returned (value : Value)
deriving Repr

def Ending.value : Ending → Value
  | .normal => .nil
  | .returned value => value

-- Binds parameters to arguments, in pairs up to the shorter list.
def bindParams : List Token → List Value → Run Unit
  | param :: params, argument :: arguments => do
      define param argument
      bindParams params arguments
  | _, _ => return ()

-- Refuses a call before it starts.
def checkCall (line : Int) (callee : Value) (count : Nat) : Run Unit := fun machine =>
  match callee.arity? with
  | none => .fault ⟨.notCallable, line⟩ machine
  | some arity =>
      if arity ≠ count then .fault ⟨.wrongArity arity count, line⟩ machine
      else if machine.limit ≤ machine.depth then .fault ⟨.tooDeep, line⟩ machine
      else .done () machine

mutual

def eval : Nat → Expr NodeId → Run Value
  | 0, _ => outOfFuel
  | fuel + 1, expr =>
      match expr with
      | .literal value => return .datum value
      | .group inner => eval fuel inner
      | .unary operator operand => do
          let value ← eval fuel operand
          lift (applyUnary operator value)
      | .binary left operator right => do
          let first ← eval fuel left
          let second ← eval fuel right
          lift (applyBinary operator first second)
      | .logical left operator right => do
          let first ← eval fuel left
          if decides operator first then return first else eval fuel right
      | .ternary condition yes no => do
          let test ← eval fuel condition
          if test.toBool then eval fuel yes else eval fuel no
      | .comma first second => do
          let _ ← eval fuel first
          eval fuel second
      | .var label name => lookup label name
      | .assign label name value => do
          let result ← eval fuel value
          store label name result
          return result
      | .call callee close arguments => do
          let target ← eval fuel callee
          let values ← evalAll fuel arguments
          checkCall close.line target values.length
          deeper (invoke fuel target values)

def evalAll : Nat → List (Expr NodeId) → Run (List Value)
  | 0, _ => outOfFuel
  | fuel + 1, exprs =>
      match exprs with
      | [] => return []
      | first :: rest => do
          let value ← eval fuel first
          let values ← evalAll fuel rest
          return value :: values

/-- Calls something without checking whether it may be called so. What is no function gives nil. -/
def invoke : Nat → Value → List Value → Run Value
  | 0, _, _ => outOfFuel
  | fuel + 1, callee, arguments =>
      match callee with
      | .datum _ => return .nil
      | .clock => readClock
      | .closure closure => do
          let frame ← newFrame closure.home
          let ending ← inFrame frame do
            bindParams closure.params arguments
            execAll fuel closure.body
          return ending.value

def exec : Nat → Stmt NodeId → Run Ending
  | 0, _ => outOfFuel
  | fuel + 1, stmt =>
      match stmt with
      | .ret _ none => return .returned .nil
      | .ret _ (some value) => do
          let result ← eval fuel value
          return .returned result
      | .print keyword value => do
          let result ← eval fuel value
          write keyword.line (result.display ++ "\n")
          return .normal
      | .expr value => do
          let _ ← eval fuel value
          return .normal
      | .var name none => do
          declare name
          return .normal
      | .var name (some value) => do
          let result ← eval fuel value
          define name result
          return .normal
      | .block body => do
          let frame ← newInner
          inFrame frame (execAll fuel body)
      | .func name params body => do
          let closure ← newClosure name params body
          define name closure
          return .normal
      | .branch condition yes no => do
          let test ← eval fuel condition
          if test.toBool then exec fuel yes
          else match no with
            | some no => exec fuel no
            | none => return .normal
      | .loop condition body => execLoop fuel condition body

-- Statements in order, up to one that returns.
def execAll : Nat → List (Stmt NodeId) → Run Ending
  | 0, _ => outOfFuel
  | fuel + 1, stmts =>
      match stmts with
      | [] => return .normal
      | first :: rest => do
          match ← exec fuel first with
          | .normal => execAll fuel rest
          | .returned value => return .returned value

def execLoop : Nat → Expr NodeId → Stmt NodeId → Run Ending
  | 0, _, _ => outOfFuel
  | fuel + 1, condition, body => do
      let test ← eval fuel condition
      if test.toBool then
        match ← exec fuel body with
        | .normal => execLoop fuel condition body
        | .returned value => return .returned value
      else return .normal

end

/-- More fuel than a run can use up in practice. -/
def ampleFuel : Nat := Nat.pow 2 62

/-- Runs a program. A return at its top level only ends the statement it is in. -/
def runProgram (fuel : Nat) : List (Stmt NodeId) → Run Unit
  | [] => return ()
  | first :: rest => do
      let _ ← exec fuel first
      runProgram fuel rest

end Treewalk
