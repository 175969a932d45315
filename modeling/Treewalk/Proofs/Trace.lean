import Treewalk.Proofs.Settling

/-!
Runs that keep a record of what the machine does on the way: each expression it starts to evaluate, each statement
it starts to execute, each call it makes and each name it sets, with the machine at that moment. A run that stops
for want of fuel has a record too, so that what holds of every record holds of runs without end. Without the record
the runs are those of the machine.
-/

set_option autoImplicit false

namespace Treewalk

inductive Moment where
  | evaluates (expr : Expr NodeId) (machine : Machine)
  | executes (stmt : Stmt NodeId) (machine : Machine)
  | invokes (callee : Value) (arguments : List Value) (machine : Machine)
  | stores (label : NodeId) (name : Token) (machine : Machine)

def Moment.machine : Moment → Machine
  | .evaluates _ machine => machine
  | .executes _ machine => machine
  | .invokes _ _ machine => machine
  | .stores _ _ machine => machine

-- The use of a name that is evaluated. An assignment comes up twice: before its value is computed and when the name
-- is set.
def Moment.use? : Moment → Option (Use NodeId)
  | .evaluates (.var label name) _ => some ⟨label, name, false⟩
  | .evaluates (.assign label name _) _ => some ⟨label, name, true⟩
  | .stores label name _ => some ⟨label, name, true⟩
  | _ => none

def Traced (α : Type) : Type := Machine → List Moment × Outcome α

namespace Traced

variable {α β : Type}

protected def pure (value : α) : Traced α := fun machine => ([], .done value machine)

protected def bind (first : Traced α) (next : α → Traced β) : Traced β := fun machine =>
  match first machine with
  | (moments, .done value after) => (moments ++ (next value after).1, (next value after).2)
  | (moments, .fault fault after) => (moments, .fault fault after)
  | (moments, .outOfFuel) => (moments, .outOfFuel)

instance : Monad Traced where
  pure := Traced.pure
  bind := Traced.bind

def mark (moment : Machine → Moment) : Traced Unit := fun machine => ([moment machine], .done () machine)

-- A step with nothing on the way worth a record.
def quiet (run : Run α) : Traced α := fun machine => ([], run machine)

def inFrame (frame : FrameId) (body : Traced α) : Traced α := fun machine =>
  let ran := body { machine with frame := frame }
  (ran.1, Run.inFrame frame (fun _ => ran.2) machine)

def deeper (body : Traced α) : Traced α := fun machine =>
  let ran := body { machine with depth := machine.depth + 1 }
  (ran.1, Run.deeper (fun _ => ran.2) machine)

mutual

def eval : Nat → Expr NodeId → Traced Value
  | 0, _ => quiet Run.outOfFuel
  | fuel + 1, expr => do
      mark (.evaluates expr)
      match expr with
      | .literal value => return .datum value
      | .group inner => eval fuel inner
      | .unary operator operand => do
          let value ← eval fuel operand
          quiet (Run.lift (applyUnary operator value))
      | .binary left operator right => do
          let first ← eval fuel left
          let second ← eval fuel right
          quiet (Run.lift (applyBinary operator first second))
      | .logical left operator right => do
          let first ← eval fuel left
          if decides operator first then return first else eval fuel right
      | .ternary condition yes no => do
          let test ← eval fuel condition
          if test.toBool then eval fuel yes else eval fuel no
      | .comma first second => do
          let _ ← eval fuel first
          eval fuel second
      | .var label name => quiet (Run.lookup label name)
      | .assign label name value => do
          let result ← eval fuel value
          mark (.stores label name)
          quiet (Run.store label name result)
          return result
      | .call callee close arguments => do
          let target ← eval fuel callee
          let values ← evalAll fuel arguments
          quiet (checkCall close.line target values.length)
          deeper (invoke fuel target values)

def evalAll : Nat → List (Expr NodeId) → Traced (List Value)
  | 0, _ => quiet Run.outOfFuel
  | fuel + 1, exprs =>
      match exprs with
      | [] => return []
      | first :: rest => do
          let value ← eval fuel first
          let values ← evalAll fuel rest
          return value :: values

def invoke : Nat → Value → List Value → Traced Value
  | 0, _, _ => quiet Run.outOfFuel
  | fuel + 1, callee, arguments => do
      mark (.invokes callee arguments)
      match callee with
      | .datum _ => return .nil
      | .clock => quiet Run.readClock
      | .closure closure => do
          let frame ← quiet (Run.newFrame closure.home)
          let ending ← inFrame frame do
            quiet (bindParams closure.params arguments)
            execAll fuel closure.body
          return ending.value

def exec : Nat → Stmt NodeId → Traced Ending
  | 0, _ => quiet Run.outOfFuel
  | fuel + 1, stmt => do
      mark (.executes stmt)
      match stmt with
      | .ret _ none => return .returned .nil
      | .ret _ (some value) => do
          let result ← eval fuel value
          return .returned result
      | .print keyword value => do
          let result ← eval fuel value
          quiet (Run.write keyword.line (result.display ++ "\n"))
          return .normal
      | .expr value => do
          let _ ← eval fuel value
          return .normal
      | .var name none => do
          quiet (Run.declare name)
          return .normal
      | .var name (some value) => do
          let result ← eval fuel value
          quiet (Run.define name result)
          return .normal
      | .block body => do
          let frame ← quiet Run.newInner
          inFrame frame (execAll fuel body)
      | .func name params body => do
          let closure ← quiet (Run.newClosure name params body)
          quiet (Run.define name closure)
          return .normal
      | .branch condition yes no => do
          let test ← eval fuel condition
          if test.toBool then exec fuel yes
          else match no with
            | some no => exec fuel no
            | none => return .normal
      | .loop condition body => execLoop fuel condition body

def execAll : Nat → List (Stmt NodeId) → Traced Ending
  | 0, _ => quiet Run.outOfFuel
  | fuel + 1, stmts =>
      match stmts with
      | [] => return .normal
      | first :: rest => do
          match ← exec fuel first with
          | .normal => execAll fuel rest
          | .returned value => return .returned value

def execLoop : Nat → Expr NodeId → Stmt NodeId → Traced Ending
  | 0, _, _ => quiet Run.outOfFuel
  | fuel + 1, condition, body => do
      let test ← eval fuel condition
      if test.toBool then
        match ← exec fuel body with
        | .normal => execLoop fuel condition body
        | .returned value => return .returned value
      else return .normal

end

def runProgram (fuel : Nat) : List (Stmt NodeId) → Traced Unit
  | [] => return ()
  | first :: rest => do
      let _ ← exec fuel first
      runProgram fuel rest

theorem quiet_bind (first : Run α) (next : α → Run β) :
    quiet (first >>= next) = (quiet first >>= fun value => quiet (next value)) := by
  funext machine
  change ([], Run.bind first next machine) = Traced.bind (quiet first) (fun value => quiet (next value)) machine
  unfold Traced.bind Run.bind quiet
  cases first machine <;> rfl

theorem bind_assoc {γ : Type} (first : Traced α) (second : α → Traced β) (third : β → Traced γ) :
    (first >>= fun value => second value >>= third) = (first >>= second) >>= third := by
  funext machine
  change Traced.bind first (fun value => Traced.bind (second value) third) machine =
    Traced.bind (Traced.bind first second) third machine
  unfold Traced.bind
  generalize first machine = ran
  obtain ⟨moments, outcome⟩ := ran
  cases outcome with
  | done value after =>
      dsimp only
      generalize second value after = later
      obtain ⟨more, outcome⟩ := later
      cases outcome <;> simp
  | fault | outOfFuel => rfl

-- The run without its record.
def erase (run : Traced α) : Run α := fun machine => (run machine).2

theorem erase_pure (value : α) : erase (pure value : Traced α) = (pure value : Run α) := rfl

theorem erase_quiet (run : Run α) : erase (quiet run) = run := rfl

theorem erase_inFrame (frame : FrameId) (body : Traced α) : erase (inFrame frame body) = Run.inFrame frame body.erase :=
  rfl

theorem erase_deeper (body : Traced α) : erase (deeper body) = Run.deeper body.erase := rfl

theorem erase_bind (first : Traced α) (next : α → Traced β) :
    erase (first >>= next) = (first.erase >>= fun value => (next value).erase) := by
  funext machine
  change (Traced.bind first next machine).2 = Run.bind first.erase (fun value => (next value).erase) machine
  unfold Traced.bind Run.bind erase
  generalize first machine = ran
  obtain ⟨moments, outcome⟩ := ran
  cases outcome <;> rfl

theorem erase_marked (moment : Machine → Moment) (next : Traced α) : erase (mark moment >>= fun _ => next) = next.erase :=
  rfl

theorem erase_ite (test : Prop) [Decidable test] (yes no : Traced α) :
    erase (if test then yes else no) = if test then yes.erase else no.erase := by
  split <;> rfl

structure ErasesWithin (fuel : Nat) : Prop where
  eval : ∀ expr, (eval fuel expr).erase = Treewalk.eval fuel expr
  evalAll : ∀ exprs, (evalAll fuel exprs).erase = Treewalk.evalAll fuel exprs
  invoke : ∀ callee arguments, (invoke fuel callee arguments).erase = Treewalk.invoke fuel callee arguments
  exec : ∀ stmt, (exec fuel stmt).erase = Treewalk.exec fuel stmt
  execAll : ∀ stmts, (execAll fuel stmts).erase = Treewalk.execAll fuel stmts
  execLoop : ∀ condition body, (execLoop fuel condition body).erase = Treewalk.execLoop fuel condition body

section step

variable (fuel : Nat) (ih : ErasesWithin fuel)

include ih

theorem eval_erases (expr : Expr NodeId) : (eval (fuel + 1) expr).erase = Treewalk.eval (fuel + 1) expr := by
  simp only [eval, erase_marked]
  cases expr with
  | assign label name value =>
      simp only [Treewalk.eval, erase_bind, erase_pure, erase_quiet, ih.eval]
      rfl
  | literal | group | unary | binary | logical | ternary | comma | var | call =>
      simp only [Treewalk.eval, erase_bind, erase_pure, erase_quiet, erase_ite, erase_deeper, ih.eval, ih.evalAll,
        ih.invoke]

theorem evalAll_erases (exprs : List (Expr NodeId)) :
    (evalAll (fuel + 1) exprs).erase = Treewalk.evalAll (fuel + 1) exprs := by
  cases exprs <;> simp only [evalAll, Treewalk.evalAll, erase_bind, erase_pure, ih.eval, ih.evalAll]

theorem invoke_erases (callee : Value) (arguments : List Value) :
    (invoke (fuel + 1) callee arguments).erase = Treewalk.invoke (fuel + 1) callee arguments := by
  simp only [invoke, erase_marked]
  cases callee <;>
    simp only [Treewalk.invoke, erase_bind, erase_pure, erase_quiet, erase_inFrame, ih.execAll]

theorem exec_erases (stmt : Stmt NodeId) : (exec (fuel + 1) stmt).erase = Treewalk.exec (fuel + 1) stmt := by
  simp only [exec, erase_marked]
  cases stmt with
  | ret keyword value =>
      cases value <;> simp only [Treewalk.exec, erase_bind, erase_pure, ih.eval]
  | var name value =>
      cases value <;> simp only [Treewalk.exec, erase_bind, erase_pure, erase_quiet, ih.eval]
  | branch condition yes no =>
      cases no <;> simp only [Treewalk.exec, erase_bind, erase_pure, erase_ite, ih.eval, ih.exec]
  | print | expr | block | func | loop =>
      simp only [Treewalk.exec, erase_bind, erase_pure, erase_quiet, erase_inFrame, ih.eval, ih.execAll, ih.execLoop]

theorem execAll_erases (stmts : List (Stmt NodeId)) :
    (execAll (fuel + 1) stmts).erase = Treewalk.execAll (fuel + 1) stmts := by
  cases stmts with
  | nil => rfl
  | cons first rest =>
      simp only [execAll, Treewalk.execAll, erase_bind, ih.exec]
      congr 1
      funext ending
      cases ending with
      | normal => exact ih.execAll rest
      | returned value => rfl

theorem execLoop_erases (condition : Expr NodeId) (body : Stmt NodeId) :
    (execLoop (fuel + 1) condition body).erase = Treewalk.execLoop (fuel + 1) condition body := by
  simp only [execLoop, Treewalk.execLoop, erase_bind, erase_ite, erase_pure, ih.eval, ih.exec]
  congr 1
  funext test
  congr 2
  funext ending
  cases ending with
  | normal => exact ih.execLoop condition body
  | returned value => rfl

end step

theorem erases_within (fuel : Nat) : ErasesWithin fuel := by
  induction fuel with
  | zero =>
      constructor <;> intros <;>
        simp only [eval, evalAll, invoke, exec, execAll, execLoop, Treewalk.eval, Treewalk.evalAll, Treewalk.invoke,
          Treewalk.exec, Treewalk.execAll, Treewalk.execLoop, erase_quiet]
  | succ fuel ih =>
      exact ⟨eval_erases fuel ih, evalAll_erases fuel ih, invoke_erases fuel ih, exec_erases fuel ih,
        execAll_erases fuel ih, execLoop_erases fuel ih⟩

theorem runProgram_erases (fuel : Nat) (stmts : List (Stmt NodeId)) :
    (runProgram fuel stmts).erase = Treewalk.runProgram fuel stmts := by
  induction stmts with
  | nil => rfl
  | cons first rest ih =>
      simp only [runProgram, Treewalk.runProgram, erase_bind, (erases_within fuel).exec, ih]

end Traced

-- A program run after those that ran before, with its record.
def Machine.traced (fuel : Nat) (program : List (Stmt Unit)) : Traced Unit := fun machine =>
  Traced.runProgram fuel (machine.prepare program).1 (machine.prepare program).2

theorem Machine.traced_erases (fuel : Nat) (program : List (Stmt Unit)) :
    (Machine.traced fuel program).erase = Machine.interpret fuel program := by
  funext machine
  exact congrArg (fun run : Run Unit => run (machine.prepare program).2) (Traced.runProgram_erases fuel _)

end Treewalk
