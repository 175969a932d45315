import Treewalk.Machine.Eval

/-!
Lexical scoping, stated without frames, numbers and distances. Local names are known by a map to cells that is
never changed, only extended for the statements behind a declaration. A declaration in a local scope takes a
fresh cell, a function keeps the map of its declaration together with its own name, and a name that is not in
the map is looked up in one table of globals. All else is as in the machine.
-/

set_option autoImplicit false

namespace Treewalk.Lexical

abbrev Cell := Nat

abbrev Names := List (String × Cell)

-- A function keeps the names that were known where it was declared.
abbrev Value := Treewalk.Value Unit Names

structure State where
  -- What each cell holds, and nothing while it has no value.
  cells : Cell → Option Value
  -- The next unused cell.
  fresh : Cell
  globals : String → Option (Option Value)
  depth : Nat
  limit : Nat
  closures : Nat
  sink : Sink
  clock : Clock

def State.start (limit : Nat) (sink : Sink) (clock : Clock) : State where
  cells := fun _ => none
  fresh := 0
  globals := fun name => if name = "clock" then some (some .clock) else none
  depth := 0
  limit := limit
  closures := 0
  sink := sink
  clock := clock

def State.setCell (state : State) (cell : Cell) (content : Option Value) : State :=
  { state with cells := fun other => if other = cell then content else state.cells other }

def State.setGlobal (state : State) (name : String) (content : Option Value) : State :=
  { state with globals := fun other => if other = name then some content else state.globals other }

-- Takes the next cell.
def State.newCell (state : State) (content : Option Value) : State :=
  { state.setCell state.fresh content with fresh := state.fresh + 1 }

-- Where a statement stands: outside of all local scopes, or in one with the names known there.
inductive Place where
  | outermost
  | inner (names : Names)

def Place.names : Place → Names
  | .outermost => []
  | .inner names => names

inductive Outcome (α : Type) where
  | done (value : α) (state : State)
  | fault (fault : Fault) (state : State)
  | outOfFuel

def Run (α : Type) : Type := State → Outcome α

namespace Run

variable {α β : Type}

protected def pure (value : α) : Run α := fun state => .done value state

protected def bind (first : Run α) (next : α → Run β) : Run β := fun state =>
  match first state with
  | .done value state => next value state
  | .fault fault state => .fault fault state
  | .outOfFuel => .outOfFuel

instance : Monad Run where
  pure := Run.pure
  bind := Run.bind

end Run

variable {α : Type}

def outOfFuel : Run α := fun _ => .outOfFuel

def lift (result : Except Fault α) : Run α := fun state =>
  match result with
  | .ok value => .done value state
  | .error fault => .fault fault state

def deeper (body : Run α) : Run α := fun state =>
  match body { state with depth := state.depth + 1 } with
  | .done value after => .done value { after with depth := state.depth }
  | .fault fault after => .fault fault { after with depth := state.depth }
  | .outOfFuel => .outOfFuel

def write (line : Int) (text : String) : Run Unit := fun state =>
  match state.sink.offer text.toUTF8 with
  | (none, sink) => .done () { state with sink := sink }
  | (some reason, sink) => .fault ⟨.outputFailed reason, line⟩ { state with sink := sink }

def readClock : Run Value := fun state =>
  .done (.number (Float.ofNat (state.clock.millis state.clock.taken) / 1000.0))
    { state with clock := { state.clock with taken := state.clock.taken + 1 } }

-- What a name stands for: its cell's content, or the global of that name.
def State.content (state : State) (names : Names) (name : String) : Option (Option Value) :=
  match names.lookup name with
  | some cell => some (state.cells cell)
  | none => state.globals name

def lookup (names : Names) (name : Token) : Run Value := fun state =>
  match state.content names name.lexeme with
  | none => .fault ⟨.unbound name.lexeme, name.line⟩ state
  | some none => .fault ⟨.unassigned name.lexeme, name.line⟩ state
  | some (some value) => .done value state

def store (names : Names) (name : Token) (value : Value) : Run Unit := fun state =>
  match names.lookup name.lexeme with
  | some cell => .done () (state.setCell cell (some value))
  | none =>
      if (state.globals name.lexeme).isSome then .done () (state.setGlobal name.lexeme (some value))
      else .fault ⟨.unbound name.lexeme, name.line⟩ state

-- A global may be declared once. In a local scope the name is known from here on, with a cell of its own.
def declare (place : Place) (name : Token) (content : Option Value) : Run Place := fun state =>
  match place with
  | .outermost =>
      if (state.globals name.lexeme).isSome then .fault ⟨.rebound name.lexeme, name.line⟩ state
      else .done .outermost (state.setGlobal name.lexeme content)
  | .inner names => .done (.inner ((name.lexeme, state.fresh) :: names)) (state.newCell content)

def newClosure (name : Token) (params : List Token) (body : List (Stmt Unit)) (names : Names) : Run Value :=
  fun state => .done (.closure ⟨state.closures, name, params, body, names⟩) { state with closures := state.closures + 1 }

-- Declares a function, which knows the names before it and its own.
def declareFunction (place : Place) (name : Token) (params : List Token) (body : List (Stmt Unit)) : Run Place :=
  match place with
  | .outermost => do
      let closure ← newClosure name params body []
      declare .outermost name (some closure)
  | .inner names => do
      let after ← declare (.inner names) name none
      let closure ← newClosure name params body after.names
      store after.names name closure
      return after

def bindParams (names : Names) : List Token → List Value → Run Names
  | param :: params, argument :: arguments => do
      let after ← declare (.inner names) param (some argument)
      bindParams after.names params arguments
  | _, _ => return names

def checkCall (line : Int) (callee : Value) (count : Nat) : Run Unit := fun state =>
  match callee.arity? with
  | none => .fault ⟨.notCallable, line⟩ state
  | some arity =>
      if arity ≠ count then .fault ⟨.wrongArity arity count, line⟩ state
      else if state.limit ≤ state.depth then .fault ⟨.tooDeep, line⟩ state
      else .done () state

inductive Ending where
  | normal
  | returned (value : Value)

def Ending.value : Ending → Value
  | .normal => .nil
  | .returned value => value

mutual

def eval (names : Names) : Nat → Expr Unit → Run Value
  | 0, _ => outOfFuel
  | fuel + 1, expr =>
      match expr with
      | .literal value => return .datum value
      | .group inner => eval names fuel inner
      | .unary operator operand => do
          let value ← eval names fuel operand
          lift (applyUnary operator value)
      | .binary left operator right => do
          let first ← eval names fuel left
          let second ← eval names fuel right
          lift (applyBinary operator first second)
      | .logical left operator right => do
          let first ← eval names fuel left
          if decides operator first then return first else eval names fuel right
      | .ternary condition yes no => do
          let test ← eval names fuel condition
          if test.toBool then eval names fuel yes else eval names fuel no
      | .comma first second => do
          let _ ← eval names fuel first
          eval names fuel second
      | .var _ name => lookup names name
      | .assign _ name value => do
          let result ← eval names fuel value
          store names name result
          return result
      | .call callee close arguments => do
          let target ← eval names fuel callee
          let values ← evalAll names fuel arguments
          checkCall close.line target values.length
          deeper (invoke fuel target values)

def evalAll (names : Names) : Nat → List (Expr Unit) → Run (List Value)
  | 0, _ => outOfFuel
  | fuel + 1, exprs =>
      match exprs with
      | [] => return []
      | first :: rest => do
          let value ← eval names fuel first
          let values ← evalAll names fuel rest
          return value :: values

def invoke : Nat → Value → List Value → Run Value
  | 0, _, _ => outOfFuel
  | fuel + 1, callee, arguments =>
      match callee with
      | .datum _ => return .nil
      | .clock => readClock
      | .closure closure => do
          let names ← bindParams closure.home closure.params arguments
          let ending ← execAll (.inner names) fuel closure.body
          return ending.value

-- How a statement ends, and where the statements behind it stand.
def exec (place : Place) : Nat → Stmt Unit → Run (Ending × Place)
  | 0, _ => outOfFuel
  | fuel + 1, stmt =>
      match stmt with
      | .ret _ none => return (.returned .nil, place)
      | .ret _ (some value) => do
          let result ← eval place.names fuel value
          return (.returned result, place)
      | .print keyword value => do
          let result ← eval place.names fuel value
          write keyword.line (result.display ++ "\n")
          return (.normal, place)
      | .expr value => do
          let _ ← eval place.names fuel value
          return (.normal, place)
      | .var name none => do
          let after ← declare place name none
          return (.normal, after)
      | .var name (some value) => do
          let result ← eval place.names fuel value
          let after ← declare place name (some result)
          return (.normal, after)
      | .block body => do
          let ending ← execAll (.inner place.names) fuel body
          return (ending, place)
      | .func name params body => do
          let after ← declareFunction place name params body
          return (.normal, after)
      | .branch condition yes no => do
          let test ← eval place.names fuel condition
          if test.toBool then
            let (ending, _) ← exec place fuel yes
            return (ending, place)
          else match no with
            | some no =>
                let (ending, _) ← exec place fuel no
                return (ending, place)
            | none => return (.normal, place)
      | .loop condition body => do
          let ending ← execLoop place fuel condition body
          return (ending, place)

def execAll (place : Place) : Nat → List (Stmt Unit) → Run Ending
  | 0, _ => outOfFuel
  | fuel + 1, stmts =>
      match stmts with
      | [] => return .normal
      | first :: rest => do
          let (ending, after) ← exec place fuel first
          match ending with
          | .normal => execAll after fuel rest
          | .returned value => return .returned value

def execLoop (place : Place) : Nat → Expr Unit → Stmt Unit → Run Ending
  | 0, _, _ => outOfFuel
  | fuel + 1, condition, body => do
      let test ← eval place.names fuel condition
      if test.toBool then
        let (ending, _) ← exec place fuel body
        match ending with
        | .normal => execLoop place fuel condition body
        | .returned value => return .returned value
      else return .normal

end

-- Runs a program outside of all local scopes.
def runProgram (fuel : Nat) : List (Stmt Unit) → Run Unit
  | [] => return ()
  | first :: rest => do
      let _ ← exec .outermost fuel first
      runProgram fuel rest

-- Without fuel no run says anything.

theorem eval_unfueled (names : Names) (expr : Expr Unit) : eval names 0 expr = outOfFuel := by
  simp only [eval]

theorem evalAll_unfueled (names : Names) (exprs : List (Expr Unit)) : evalAll names 0 exprs = outOfFuel := by
  simp only [evalAll]

theorem invoke_unfueled (callee : Value) (arguments : List Value) : invoke 0 callee arguments = outOfFuel := by
  simp only [invoke]

theorem exec_unfueled (place : Place) (stmt : Stmt Unit) : exec place 0 stmt = outOfFuel := by
  simp only [exec]

theorem execAll_unfueled (place : Place) (stmts : List (Stmt Unit)) : execAll place 0 stmts = outOfFuel := by
  simp only [execAll]

theorem execLoop_unfueled (place : Place) (condition : Expr Unit) (body : Stmt Unit) :
    execLoop place 0 condition body = outOfFuel := by
  simp only [execLoop]

end Treewalk.Lexical
