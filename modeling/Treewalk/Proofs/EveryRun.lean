import Treewalk.Proofs.Trace

/-!
One induction for all runs. A property of recorded runs is compositional if the single steps of the machine have it, and
sequences, calls and runs in another frame have it once their parts do. Then all expressions, statements and calls
have it, with any fuel. For a property that has to know which statement a text comes from, printing takes the place of
the single step that writes.
-/

set_option autoImplicit false

namespace Treewalk

-- The same moment of another machine.
def Moment.on (machine : Machine) : Moment → Moment
  | .evaluates expr _ => .evaluates expr machine
  | .executes stmt _ => .executes stmt machine
  | .invokes callee arguments _ => .invokes callee arguments machine
  | .stores label name _ => .stores label name machine

-- What is recorded of a machine holds that machine, and is the same of every machine but for that.
structure Moment.Recorded (moment : Machine → Moment) : Prop where
  own : ∀ machine, (moment machine).machine = machine
  anywhere : ∀ machine other, (moment machine).on other = moment other

namespace Traced

structure Stepwise (holds : ∀ {α : Type}, Traced α → Prop) : Prop where
  pure : ∀ {α : Type} (value : α), holds (pure value)
  outOfFuel : ∀ {α : Type}, holds (quiet (Run.outOfFuel : Run α))
  bind : ∀ {α β : Type} (first : Traced α) (next : α → Traced β), holds first → (∀ value, holds (next value)) →
    holds (first >>= next)
  mark : ∀ moment : Machine → Moment, Moment.Recorded moment → holds (mark moment)
  inFrame : ∀ {α : Type} (frame : FrameId) (body : Traced α), holds body → holds (inFrame frame body)
  -- A body that is called runs only behind a check that one more call may.
  call : ∀ {α : Type} (line : Int) (callee : Value) (count : Nat) (body : Traced α), holds body →
    holds (quiet (checkCall line callee count) >>= fun _ => deeper body)
  lift : ∀ result : Except Fault Value, holds (quiet (Run.lift result))
  change : ∀ (line : Int) (action : Heap → FrameId → Except Cause Heap), holds (quiet (Run.change line action))
  newFrame : ∀ enclosing : FrameId, holds (quiet (Run.newFrame enclosing))
  newInner : holds (quiet Run.newInner)
  readClock : holds (quiet Run.readClock)
  newClosure : ∀ (name : Token) (params : List Token) (body : List (Stmt NodeId)),
    holds (quiet (Run.newClosure name params body))
  lookup : ∀ (label : NodeId) (name : Token), holds (quiet (Run.lookup label name))
  store : ∀ (label : NodeId) (name : Token) (value : Value), holds (quiet (Run.store label name value))

structure Printing (holds : ∀ {α : Type}, Traced α → Prop) : Prop extends Stepwise holds where
  print : ∀ (fuel : Nat) (keyword : Token) (value : Expr NodeId), holds (eval fuel value) →
    holds (exec (fuel + 1) (.print keyword value))

structure Compositional (holds : ∀ {α : Type}, Traced α → Prop) : Prop extends Stepwise holds where
  write : ∀ (line : Int) (text : String), holds (quiet (Run.write line text))

theorem mark_holds {holds : ∀ {α : Type}, Traced α → Prop} (parts : Stepwise @holds) {α : Type}
    (moment : Machine → Moment) (recorded : Moment.Recorded moment) (next : Traced α) (later : holds next) :
    holds (mark moment >>= fun _ => next) :=
  parts.bind _ _ (parts.mark moment recorded) fun _ => later

-- A statement that prints is made of its parts as all others are.
theorem Compositional.printing {holds : ∀ {α : Type}, Traced α → Prop} (parts : Compositional @holds) : Printing @holds where
  toStepwise := parts.toStepwise
  print _ _ _ inside :=
    mark_holds parts.toStepwise _ ⟨fun _ => rfl, fun _ _ => rfl⟩ _
      (parts.bind _ _ inside fun _ => parts.bind _ _ (parts.write _ _) fun _ => parts.pure _)

structure HoldsWithin (holds : ∀ {α : Type}, Traced α → Prop) (fuel : Nat) : Prop where
  eval : ∀ expr, holds (eval fuel expr)
  evalAll : ∀ exprs, holds (evalAll fuel exprs)
  invoke : ∀ callee arguments, holds (invoke fuel callee arguments)
  exec : ∀ stmt, holds (exec fuel stmt)
  execAll : ∀ stmts, holds (execAll fuel stmts)
  execLoop : ∀ condition body, holds (execLoop fuel condition body)

section

variable {holds : ∀ {α : Type}, Traced α → Prop} (parts : Printing @holds)

include parts

theorem bindParams_holds (params : List Token) : ∀ arguments : List Value, holds (quiet (bindParams params arguments)) := by
  induction params with
  | nil => exact fun _ => parts.pure ()
  | cons param params ih =>
      intro arguments
      cases arguments with
      | nil => exact parts.pure ()
      | cons argument arguments =>
          rw [bindParams, quiet_bind]
          exact parts.bind _ _ (parts.change _ _) fun _ => ih arguments

variable (fuel : Nat) (ih : HoldsWithin @holds fuel)

include ih

theorem eval_holds (expr : Expr NodeId) : holds (eval (fuel + 1) expr) := by
  apply mark_holds parts.toStepwise _ ⟨fun _ => rfl, fun _ _ => rfl⟩
  cases expr with
  | literal value => exact parts.pure _
  | group inner => exact ih.eval inner
  | unary operator operand => exact parts.bind _ _ (ih.eval operand) fun _ => parts.lift _
  | binary left operator right =>
      exact parts.bind _ _ (ih.eval left) fun _ => parts.bind _ _ (ih.eval right) fun _ => parts.lift _
  | logical left operator right =>
      exact parts.bind _ _ (ih.eval left) fun _ =>
        iteInduction (motive := holds) (fun _ => parts.pure _) fun _ => ih.eval right
  | ternary condition yes no =>
      exact parts.bind _ _ (ih.eval condition) fun _ =>
        iteInduction (motive := holds) (fun _ => ih.eval yes) fun _ => ih.eval no
  | comma first second => exact parts.bind _ _ (ih.eval first) fun _ => ih.eval second
  | var label name => exact parts.lookup label name
  | assign label name value =>
      apply parts.bind _ _ (ih.eval value)
      intro result
      apply mark_holds parts.toStepwise _ ⟨fun _ => rfl, fun _ _ => rfl⟩
      exact parts.bind _ _ (parts.store label name result) fun _ => parts.pure result
  | call callee close arguments =>
      apply parts.bind _ _ (ih.eval callee)
      intro target
      apply parts.bind _ _ (ih.evalAll arguments)
      intro values
      exact parts.call close.line target values.length _ (ih.invoke target values)

theorem evalAll_holds (exprs : List (Expr NodeId)) : holds (evalAll (fuel + 1) exprs) := by
  cases exprs with
  | nil => exact parts.pure []
  | cons first rest =>
      exact parts.bind _ _ (ih.eval first) fun _ => parts.bind _ _ (ih.evalAll rest) fun _ => parts.pure _

theorem invoke_holds (callee : Value) (arguments : List Value) : holds (invoke (fuel + 1) callee arguments) := by
  apply mark_holds parts.toStepwise _ ⟨fun _ => rfl, fun _ _ => rfl⟩
  cases callee with
  | datum value => exact parts.pure _
  | clock => exact parts.readClock
  | closure closure =>
      apply parts.bind _ _ (parts.newFrame closure.home)
      intro frame
      have inside := parts.bind _ _ (bindParams_holds parts closure.params arguments) fun _ => ih.execAll closure.body
      exact parts.bind _ _ (parts.inFrame frame _ inside) fun _ => parts.pure _

theorem exec_holds (stmt : Stmt NodeId) : holds (exec (fuel + 1) stmt) := by
  have marked : ∀ next : Traced Ending, holds next → holds (mark (.executes stmt) >>= fun _ => next) :=
    mark_holds parts.toStepwise _ ⟨fun _ => rfl, fun _ _ => rfl⟩
  cases stmt with
  | ret keyword value =>
      apply marked
      cases value with
      | none => exact parts.pure _
      | some value => exact parts.bind _ _ (ih.eval value) fun _ => parts.pure _
  | print keyword value => exact parts.print fuel keyword value (ih.eval value)
  | expr value => exact marked _ (parts.bind _ _ (ih.eval value) fun _ => parts.pure _)
  | var name value =>
      apply marked
      cases value with
      | none => exact parts.bind _ _ (parts.change _ _) fun _ => parts.pure _
      | some value =>
          exact parts.bind _ _ (ih.eval value) fun _ => parts.bind _ _ (parts.change _ _) fun _ => parts.pure _
  | block body => exact marked _ (parts.bind _ _ parts.newInner fun frame => parts.inFrame frame _ (ih.execAll body))
  | func name params body =>
      apply marked
      exact parts.bind _ _ (parts.newClosure name params body) fun _ =>
        parts.bind _ _ (parts.change _ _) fun _ => parts.pure _
  | branch condition yes no =>
      apply marked
      apply parts.bind _ _ (ih.eval condition)
      intro test
      refine iteInduction (motive := holds) (fun _ => ih.exec yes) fun _ => ?_
      cases no with
      | none => exact parts.pure _
      | some no => exact ih.exec no
  | loop condition body => exact marked _ (ih.execLoop condition body)

theorem execAll_holds (stmts : List (Stmt NodeId)) : holds (execAll (fuel + 1) stmts) := by
  cases stmts with
  | nil => exact parts.pure _
  | cons first rest =>
      apply parts.bind _ _ (ih.exec first)
      intro ending
      cases ending with
      | normal => exact ih.execAll rest
      | returned value => exact parts.pure _

theorem execLoop_holds (condition : Expr NodeId) (body : Stmt NodeId) : holds (execLoop (fuel + 1) condition body) := by
  apply parts.bind _ _ (ih.eval condition)
  intro test
  refine iteInduction (motive := holds) (fun _ => ?_) fun _ => parts.pure _
  apply parts.bind _ _ (ih.exec body)
  intro ending
  cases ending with
  | normal => exact ih.execLoop condition body
  | returned value => exact parts.pure _

omit ih in
theorem holds_within : HoldsWithin @holds fuel := by
  induction fuel with
  | zero =>
      constructor
      all_goals intros
      all_goals exact parts.outOfFuel
  | succ fuel ih =>
      exact ⟨eval_holds parts fuel ih, evalAll_holds parts fuel ih, invoke_holds parts fuel ih, exec_holds parts fuel ih,
        execAll_holds parts fuel ih, execLoop_holds parts fuel ih⟩

omit ih in
theorem runProgram_holds (program : List (Stmt NodeId)) : holds (runProgram fuel program) := by
  induction program with
  | nil => exact parts.pure ()
  | cons first rest ih => exact parts.bind _ _ ((holds_within parts fuel).exec first) fun _ => ih

end

end Traced

end Treewalk
