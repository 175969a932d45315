import Treewalk.Proofs.Lexical

/-!
Manners of running with names and cells. In the plain manner a program runs as lexical scoping has it. In a stricter one
a local variable cannot be assigned while its initializer is evaluated: it has no cell yet, and the name is taken. And
statements can run as the counting loops they stand for: one scope around the loop has the variable that is counted, the
condition and the step are evaluated there, and the body runs in a scope inside it.
-/

set_option autoImplicit false

namespace Treewalk.Lexical

-- The parts of a counting loop, each but the body may be left out.
structure Counting where
  start : Option (Stmt Unit)
  condition : Option (Expr Unit)
  step : Option (Expr Unit)
  body : Stmt Unit

structure Manner where
  -- A variable that waits for its value refuses another one.
  refuses : Bool
  -- The statements that run as counting loops.
  loops : Stmt Unit → Option Counting

-- The variable that waits for its value while its initializer is evaluated. A global is not known by its scope.
def Place.waiting (name : Token) : Place → Option String
  | .outermost => none
  | .inner _ => some name.lexeme

-- The value of a clause, or another one where it is left out.
def clauseOr (absent : Value) (evaluate : Expr Unit → Run Value) : Option (Expr Unit) → Run Value
  | none => return absent
  | some clause => evaluate clause

namespace Manner

def plain : Manner := ⟨false, fun _ => none⟩

-- A local variable refuses assignments from its own initializer, and these statements run as counting loops.
def strict (loops : Stmt Unit → Option Counting) : Manner := ⟨true, loops⟩

variable (manner : Manner)

def store (waiting : Option String) (names : Names) (name : Token) (value : Value) : Run Unit := fun state =>
  if manner.refuses && waiting == some name.lexeme then .fault ⟨.unbound name.lexeme, name.line⟩ state
  else Lexical.store names name value state

mutual

def eval (names : Names) (waiting : Option String) : Nat → Expr Unit → Run Value
  | 0, _ => outOfFuel
  | fuel + 1, expr =>
      match expr with
      | .literal value => return .datum value
      | .group inner => eval names waiting fuel inner
      | .unary operator operand => do
          let value ← eval names waiting fuel operand
          lift (applyUnary operator value)
      | .binary left operator right => do
          let first ← eval names waiting fuel left
          let second ← eval names waiting fuel right
          lift (applyBinary operator first second)
      | .logical left operator right => do
          let first ← eval names waiting fuel left
          if decides operator first then return first else eval names waiting fuel right
      | .ternary condition yes no => do
          let test ← eval names waiting fuel condition
          if test.toBool then eval names waiting fuel yes else eval names waiting fuel no
      | .comma first second => do
          let _ ← eval names waiting fuel first
          eval names waiting fuel second
      | .var _ name => lookup names name
      | .assign _ name value => do
          let result ← eval names waiting fuel value
          manner.store waiting names name result
          return result
      | .call callee close arguments => do
          let target ← eval names waiting fuel callee
          let values ← evalAll names waiting fuel arguments
          checkCall close.line target values.length
          deeper (invoke fuel target values)

def evalAll (names : Names) (waiting : Option String) : Nat → List (Expr Unit) → Run (List Value)
  | 0, _ => outOfFuel
  | fuel + 1, exprs =>
      match exprs with
      | [] => return []
      | first :: rest => do
          let value ← eval names waiting fuel first
          let values ← evalAll names waiting fuel rest
          return value :: values

def invoke : Nat → Value → List Value → Run Value
  | 0, _, _ => outOfFuel
  | fuel + 1, callee, arguments =>
      match callee with
      | .datum _ => return .nil
      | .clock => readClock
      | .closure closure => do
          let names ← bindParams closure.home closure.params arguments
          let ending ← execAll (.inner names) fuel closure.body
          return ending.value

def exec (place : Place) : Nat → Stmt Unit → Run (Ending × Place)
  | 0, _ => outOfFuel
  | fuel + 1, stmt =>
      match manner.loops stmt with
      | some loop =>
          -- The scope of the loop stands inside the place even if nothing is declared in it.
          match loop.start with
          | none => do
              let ending ← execRounds (.inner place.names) fuel loop
              return (ending, place)
          | some start => do
              let (_, inside) ← exec (.inner place.names) fuel start
              let ending ← execRounds inside fuel loop
              return (ending, place)
      | none =>
          match stmt with
          | .ret _ none => return (.returned .nil, place)
          | .ret _ (some value) => do
              let result ← eval place.names none fuel value
              return (.returned result, place)
          | .print keyword value => do
              let result ← eval place.names none fuel value
              write keyword.line (result.display ++ "\n")
              return (.normal, place)
          | .expr value => do
              let _ ← eval place.names none fuel value
              return (.normal, place)
          | .var name none => do
              let after ← declare place name none
              return (.normal, after)
          | .var name (some value) => do
              let result ← eval place.names (place.waiting name) fuel value
              let after ← declare place name (some result)
              return (.normal, after)
          | .block body => do
              let ending ← execAll (.inner place.names) fuel body
              return (ending, place)
          | .func name params body => do
              let after ← declareFunction place name params body
              return (.normal, after)
          | .branch condition yes no => do
              let test ← eval place.names none fuel condition
              if test.toBool then
                let (ending, _) ← exec place fuel yes
                return (ending, place)
              else match no with
                | some no =>
                    let (ending, _) ← exec place fuel no
                    return (ending, place)
                | none => return (.normal, place)
          | .loop condition body => do
              let ending ← execLoop place fuel condition body
              return (ending, place)

def execAll (place : Place) : Nat → List (Stmt Unit) → Run Ending
  | 0, _ => outOfFuel
  | fuel + 1, stmts =>
      match stmts with
      | [] => return .normal
      | first :: rest => do
          let (ending, after) ← exec place fuel first
          match ending with
          | .normal => execAll after fuel rest
          | .returned value => return .returned value

def execLoop (place : Place) : Nat → Expr Unit → Stmt Unit → Run Ending
  | 0, _, _ => outOfFuel
  | fuel + 1, condition, body => do
      let test ← eval place.names none fuel condition
      if test.toBool then
        let (ending, _) ← exec place fuel body
        match ending with
        | .normal => execLoop place fuel condition body
        | .returned value => return .returned value
      else return .normal

-- The rounds of a counting loop in its scope.
def execRounds (place : Place) : Nat → Counting → Run Ending
  | 0, _ => outOfFuel
  | fuel + 1, loop => do
      let test ← clauseOr (.boolean true) (eval place.names none fuel) loop.condition
      if test.toBool then
        let (ending, _) ← exec (.inner place.names) fuel loop.body
        match ending with
        | .normal => do
            let _ ← clauseOr .nil (eval place.names none fuel) loop.step
            execRounds place fuel loop
        | .returned value => return .returned value
      else return .normal

end

-- Runs a program outside of all local scopes.
def runProgram (fuel : Nat) : List (Stmt Unit) → Run Unit
  | [] => return ()
  | first :: rest => do
      let _ ← manner.exec .outermost fuel first
      runProgram fuel rest

-- Without fuel no run says anything.

theorem eval_unfueled (names : Names) (waiting : Option String) (expr : Expr Unit) :
    manner.eval names waiting 0 expr = outOfFuel := by
  simp only [eval]

theorem evalAll_unfueled (names : Names) (waiting : Option String) (exprs : List (Expr Unit)) :
    manner.evalAll names waiting 0 exprs = outOfFuel := by
  simp only [evalAll]

theorem invoke_unfueled (callee : Value) (arguments : List Value) : manner.invoke 0 callee arguments = outOfFuel := by
  simp only [invoke]

theorem exec_unfueled (place : Place) (stmt : Stmt Unit) : manner.exec place 0 stmt = outOfFuel := by
  simp only [exec]

theorem execAll_unfueled (place : Place) (stmts : List (Stmt Unit)) : manner.execAll place 0 stmts = outOfFuel := by
  simp only [execAll]

theorem execLoop_unfueled (place : Place) (condition : Expr Unit) (body : Stmt Unit) :
    manner.execLoop place 0 condition body = outOfFuel := by
  simp only [execLoop]

theorem execRounds_unfueled (place : Place) (loop : Counting) : manner.execRounds place 0 loop = outOfFuel := by
  simp only [execRounds]

-- The plain manner is lexical scoping.

structure PlainWithin (fuel : Nat) : Prop where
  eval : ∀ names waiting expr, plain.eval names waiting fuel expr = Lexical.eval names fuel expr
  evalAll : ∀ names waiting exprs, plain.evalAll names waiting fuel exprs = Lexical.evalAll names fuel exprs
  invoke : ∀ callee arguments, plain.invoke fuel callee arguments = Lexical.invoke fuel callee arguments
  exec : ∀ place stmt, plain.exec place fuel stmt = Lexical.exec place fuel stmt
  execAll : ∀ place stmts, plain.execAll place fuel stmts = Lexical.execAll place fuel stmts
  execLoop : ∀ place condition body, plain.execLoop place fuel condition body = Lexical.execLoop place fuel condition body

theorem plain_store (waiting : Option String) (names : Names) (name : Token) (value : Value) :
    plain.store waiting names name value = Lexical.store names name value := rfl

theorem plain_loops (stmt : Stmt Unit) : plain.loops stmt = none := rfl

theorem plain_within (fuel : Nat) : PlainWithin fuel := by
  induction fuel with
  | zero =>
      constructor
      · intros; rw [eval_unfueled, Lexical.eval_unfueled]
      · intros; rw [evalAll_unfueled, Lexical.evalAll_unfueled]
      · intros; rw [invoke_unfueled, Lexical.invoke_unfueled]
      · intros; rw [exec_unfueled, Lexical.exec_unfueled]
      · intros; rw [execAll_unfueled, Lexical.execAll_unfueled]
      · intros; rw [execLoop_unfueled, Lexical.execLoop_unfueled]
  | succ fuel ih =>
      constructor
      · intro names waiting expr
        cases expr <;> simp only [eval, Lexical.eval, ih.eval, ih.evalAll, ih.invoke, plain_store]
      · intro names waiting exprs
        cases exprs <;> simp only [evalAll, Lexical.evalAll, ih.eval, ih.evalAll]
      · intro callee arguments
        cases callee <;> simp only [invoke, Lexical.invoke, ih.execAll]
      · intro place stmt
        cases stmt with
        | ret keyword value => cases value <;> simp only [exec, Lexical.exec, plain_loops, ih.eval]
        | var name value => cases value <;> simp only [exec, Lexical.exec, plain_loops, ih.eval]
        | branch condition yes no => cases no <;> simp only [exec, Lexical.exec, plain_loops, ih.eval, ih.exec]
        | _ => simp only [exec, Lexical.exec, plain_loops, ih.eval, ih.execAll, ih.execLoop]
      · intro place stmts
        cases stmts with
        | nil => simp only [execAll, Lexical.execAll]
        | cons first rest =>
            rw [execAll, Lexical.execAll, ih.exec]
            refine congrArg (_ >>= ·) (funext fun ended => ?_)
            obtain ⟨ending, after⟩ := ended
            cases ending with
            | normal => exact ih.execAll after rest
            | returned value => rfl
      · intro place condition body
        rw [execLoop, Lexical.execLoop, ih.eval]
        refine congrArg (_ >>= ·) (funext fun test => ?_)
        by_cases again : test.toBool = true
        · rw [if_pos again, if_pos again, ih.exec]
          refine congrArg (_ >>= ·) (funext fun ended => ?_)
          obtain ⟨ending, after⟩ := ended
          cases ending with
          | normal => exact ih.execLoop place condition body
          | returned value => rfl
        · rw [if_neg again, if_neg again]

theorem runProgram_plain (fuel : Nat) (program : List (Stmt Unit)) :
    plain.runProgram fuel program = Lexical.runProgram fuel program := by
  induction program with
  | nil => rfl
  | cons first rest ih => rw [runProgram, Lexical.runProgram, (plain_within fuel).exec, ih]

end Manner

end Treewalk.Lexical
