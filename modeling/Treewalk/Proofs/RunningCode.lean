import Treewalk.Proofs.HeldValues
import Treewalk.Proofs.Operators
import Treewalk.Proofs.Trace

/-!
The code that runs. It is part of the program, or of a function in the frames, which an earlier declaration put there. So
a property that trees pass on to their parts is, if the program and the functions have it, a property of every expression
that is evaluated and every statement that is executed, and of the functions in the frames behind the run, however it
ends. If the run ends with a fault, the code has a token that the fault is about.
-/

set_option autoImplicit false

namespace Treewalk

-- The complaints about a call.
inductive Cause.OfCall : Cause → Prop where
  | notCallable : OfCall .notCallable
  | wrongArity (arity count : Nat) : OfCall (.wrongArity arity count)
  | tooDeep : OfCall .tooDeep

inductive Cause.OfOutput : Cause → Prop where
  | outputFailed (reason : String) : OfOutput (.outputFailed reason)

-- Complaints about a token, on its line, are expected ones.
def Token.Expects (expected : Fault → Prop) (about : Cause → Prop) (token : Token) : Prop :=
  ∀ cause, about cause → expected ⟨cause, token.line⟩

-- A token for a name, about which frames may complain.
def Token.ExpectsName (expected : Fault → Prop) (name : Token) : Prop := name.Expects expected (Cause.About name.lexeme)

-- Properties that trees pass on to their parts and to the functions they declare, and functions to their bodies. What
-- can go wrong at a tree is expected.
structure Hereditary (ofExpr : Expr NodeId → Prop) (ofStmt : Stmt NodeId → Prop) (ofValue : Value → Prop)
    (expected : Fault → Prop) : Prop where
  group : ∀ inner, ofExpr (.group inner) → ofExpr inner
  unary : ∀ operator operand, ofExpr (.unary operator operand) →
    operator.Expects expected (Cause.OfOperator operator) ∧ ofExpr operand
  binary : ∀ left operator right, ofExpr (.binary left operator right) →
    operator.Expects expected (Cause.OfOperator operator) ∧ ofExpr left ∧ ofExpr right
  logical : ∀ left operator right, ofExpr (.logical left operator right) → ofExpr left ∧ ofExpr right
  ternary : ∀ condition yes no, ofExpr (.ternary condition yes no) → ofExpr condition ∧ ofExpr yes ∧ ofExpr no
  comma : ∀ first second, ofExpr (.comma first second) → ofExpr first ∧ ofExpr second
  var : ∀ label name, ofExpr (.var label name) → name.ExpectsName expected
  assign : ∀ label name value, ofExpr (.assign label name value) → name.ExpectsName expected ∧ ofExpr value
  call : ∀ callee close arguments, ofExpr (.call callee close arguments) →
    ofExpr callee ∧ close.Expects expected Cause.OfCall ∧ ∀ argument ∈ arguments, ofExpr argument
  ret : ∀ keyword value, ofStmt (.ret keyword value) → ∀ expr ∈ value, ofExpr expr
  print : ∀ keyword value, ofStmt (.print keyword value) → keyword.Expects expected Cause.OfOutput ∧ ofExpr value
  expr : ∀ value, ofStmt (.expr value) → ofExpr value
  defines : ∀ name value, ofStmt (.var name value) → name.ExpectsName expected ∧ ∀ expr ∈ value, ofExpr expr
  block : ∀ body, ofStmt (.block body) → ∀ stmt ∈ body, ofStmt stmt
  func : ∀ name params body, ofStmt (.func name params body) →
    name.ExpectsName expected ∧ ∀ serial home, ofValue (.closure ⟨serial, name, params, body, home⟩)
  branch : ∀ condition yes no, ofStmt (.branch condition yes no) →
    ofExpr condition ∧ ofStmt yes ∧ ∀ stmt ∈ no, ofStmt stmt
  loop : ∀ condition body, ofStmt (.loop condition body) → ofExpr condition ∧ ofStmt body
  datum : ∀ value, ofValue (.datum value)
  clock : ofValue .clock
  closure : ∀ function, ofValue (.closure function) →
    (∀ param ∈ function.params, param.ExpectsName expected) ∧ ∀ stmt ∈ function.body, ofStmt stmt

inductive Outcome.Carries {α : Type} (ofValue : Value → Prop) (expected : Fault → Prop) (good : α → Prop) :
    Outcome α → Prop where
  | done (value : α) (after : Machine) (held : after.heap.Holds ofValue) (fits : good value) :
      Carries ofValue expected good (.done value after)
  | fault (fault : Fault) (after : Machine) (held : after.heap.Holds ofValue) (foreseen : expected fault) :
      Carries ofValue expected good (.fault fault after)
  | outOfFuel : Carries ofValue expected good .outOfFuel

def Moment.Meets (ofExpr : Expr NodeId → Prop) (ofStmt : Stmt NodeId → Prop) (ofValue : Value → Prop) : Moment → Prop
  | .evaluates expr _ => ofExpr expr
  | .executes stmt _ => ofStmt stmt
  | .invokes callee _ _ => ofValue callee
  | .stores _ _ _ => True

-- The single steps of the machine put no other functions into the frames than they are given.

namespace Run

def Carries {α : Type} (ofValue : Value → Prop) (expected : Fault → Prop) (good : α → Prop) (run : Run α) : Prop :=
  ∀ machine, machine.heap.Holds ofValue → (run machine).Carries ofValue expected good

section steps

variable {ofValue : Value → Prop} {expected : Fault → Prop}

theorem carries_lift (operator : Token) (answer : Except Fault Value) (judged : Judged operator answer)
    (foreseen : operator.Expects expected (Cause.OfOperator operator)) (data : ∀ value, ofValue (.datum value)) :
    (lift answer).Carries ofValue expected ofValue := by
  intro machine held
  cases judged with
  | answer datum => exact .done _ machine held (data datum)
  | refusal cause made => exact .fault _ machine held (foreseen cause made)

section names

variable (name : Token) (foreseen : name.ExpectsName expected)

include foreseen

theorem carries_change (action : Heap → FrameId → Except Cause Heap)
    (answers : ∀ heap frame, heap.Holds ofValue → Answers name.lexeme (Heap.Holds ofValue) (action heap frame)) :
    (change name.line action).Carries ofValue expected fun _ => True := by
  intro machine held
  have answered := answers machine.heap machine.frame held
  simp only [change]
  generalize action machine.heap machine.frame = answer at answered
  cases answered with
  | ok heap held => exact .done () _ held trivial
  | error cause about => exact .fault _ machine held (foreseen cause about)

theorem carries_define (value : Value) (fits : ofValue value) :
    (define name value).Carries ofValue expected fun _ => True :=
  carries_change name foreseen _ fun _ frame held => Heap.define_answers held frame name.lexeme value fits

theorem carries_declare : (declare name).Carries ofValue expected fun _ => True :=
  carries_change name foreseen _ fun _ frame held => Heap.declare_answers held frame name.lexeme

theorem carries_store (label : NodeId) (value : Value) (fits : ofValue value) :
    (store label name value).Carries ofValue expected fun _ => True := by
  intro machine held
  simp only [store]
  cases machine.distances[label]? with
  | none =>
      exact carries_change name foreseen (fun heap _ => heap.update globalFrame name.lexeme value)
        (fun _ _ held => Heap.update_answers held globalFrame name.lexeme value fits) machine held
  | some distance =>
      exact carries_change name foreseen (fun heap frame => heap.updateAt frame distance name.lexeme value)
        (fun _ frame held => Heap.updateAt_answers held frame distance name.lexeme value fits) machine held

theorem carries_lookup (label : NodeId) : (lookup label name).Carries ofValue expected ofValue := by
  intro machine held
  have answered := valueOf_answers machine held label name.lexeme
  simp only [lookup]
  generalize machine.valueOf label name.lexeme = answer at answered
  cases answered with
  | ok value fits => exact .done value machine held fits
  | error cause about => exact .fault _ machine held (foreseen cause about)

end names

theorem carries_write (keyword : Token) (text : String) (foreseen : keyword.Expects expected Cause.OfOutput) :
    (write keyword.line text).Carries ofValue expected fun _ => True := by
  intro machine held
  have same : (machine.emit text).2.heap = machine.heap := rfl
  simp only [write]
  generalize machine.emit text = emitted at same
  obtain ⟨refusal, after⟩ := emitted
  cases refusal with
  | none => exact .done () after (same ▸ held) trivial
  | some reason => exact .fault _ after (same ▸ held) (foreseen _ (.outputFailed reason))

theorem carries_checkCall (close : Token) (callee : Value) (count : Nat)
    (foreseen : close.Expects expected Cause.OfCall) :
    (checkCall close.line callee count).Carries ofValue expected fun _ => True := by
  intro machine held
  simp only [checkCall]
  cases callee.arity? with
  | none => exact .fault _ machine held (foreseen _ .notCallable)
  | some arity =>
      dsimp only
      by_cases fits : arity ≠ count
      · rw [if_pos fits]
        exact .fault _ machine held (foreseen _ (.wrongArity arity count))
      · rw [if_neg fits]
        by_cases full : machine.limit ≤ machine.depth
        · rw [if_pos full]
          exact .fault _ machine held (foreseen _ .tooDeep)
        · rw [if_neg full]
          exact .done () machine held trivial

theorem carries_newFrame (enclosing : FrameId) : (newFrame enclosing).Carries ofValue expected fun _ => True :=
  fun _ held => .done _ _ (Heap.holds_push held _) trivial

theorem carries_newInner : newInner.Carries ofValue expected fun _ => True :=
  fun _ held => .done _ _ (Heap.holds_push held _) trivial

theorem carries_readClock (data : ∀ value, ofValue (.datum value)) : readClock.Carries ofValue expected ofValue :=
  fun _ held => .done _ _ held (data _)

theorem carries_newClosure (name : Token) (params : List Token) (body : List (Stmt NodeId))
    (made : ∀ serial home, ofValue (.closure ⟨serial, name, params, body, home⟩)) :
    (newClosure name params body).Carries ofValue expected ofValue :=
  fun _ held => .done _ _ held (made _ _)

end steps

end Run

namespace Traced

open Run

-- From frames with functions of the property a run meets only code of the property and comes to such frames.
def Meets {α : Type} (ofExpr : Expr NodeId → Prop) (ofStmt : Stmt NodeId → Prop) (ofValue : Value → Prop)
    (expected : Fault → Prop) (good : α → Prop) (run : Traced α) : Prop :=
  ∀ machine, machine.heap.Holds ofValue →
    (∀ moment ∈ (run machine).1, moment.Meets ofExpr ofStmt ofValue) ∧ (run machine).2.Carries ofValue expected good

variable {ofExpr : Expr NodeId → Prop} {ofStmt : Stmt NodeId → Prop} {ofValue : Value → Prop} {expected : Fault → Prop}

section rules

variable {α β : Type} {good : α → Prop} {result : β → Prop}

theorem meets_pure {value : α} (fits : good value) : Meets ofExpr ofStmt ofValue expected good (pure value) :=
  fun machine held => ⟨fun _ inside => absurd inside List.not_mem_nil, .done value machine held fits⟩

theorem meets_quiet {run : Run α} (carries : run.Carries ofValue expected good) :
    Meets ofExpr ofStmt ofValue expected good (quiet run) :=
  fun machine held => ⟨fun _ inside => absurd inside List.not_mem_nil, carries machine held⟩

theorem meets_outOfFuel : Meets ofExpr ofStmt ofValue expected good (quiet Run.outOfFuel) :=
  meets_quiet fun _ _ => .outOfFuel

theorem meets_bind {first : Traced α} {next : α → Traced β} (start : Meets ofExpr ofStmt ofValue expected good first)
    (goOn : ∀ value, good value → Meets ofExpr ofStmt ofValue expected result (next value)) :
    Meets ofExpr ofStmt ofValue expected result (first >>= next) := by
  intro machine held
  have early := start machine held
  change (∀ moment ∈ (Traced.bind first next machine).1, _) ∧
    (Traced.bind first next machine).2.Carries ofValue expected result
  unfold Traced.bind
  generalize first machine = ran at early
  obtain ⟨moments, outcome⟩ := ran
  obtain ⟨met, carries⟩ := early
  cases carries with
  | done value between held fits =>
      obtain ⟨later, ended⟩ := goOn value fits between held
      exact ⟨List.forall_mem_append.mpr ⟨met, later⟩, ended⟩
  | fault fault after held foreseen => exact ⟨met, .fault fault after held foreseen⟩
  | outOfFuel => exact ⟨met, .outOfFuel⟩

-- What is marked is met, and the rest of the run follows.
theorem meets_marked {moment : Machine → Moment} {next : Traced β}
    (fits : ∀ machine, (moment machine).Meets ofExpr ofStmt ofValue)
    (goOn : Meets ofExpr ofStmt ofValue expected result next) :
    Meets ofExpr ofStmt ofValue expected result (mark moment >>= fun _ => next) := by
  intro machine held
  obtain ⟨later, ended⟩ := goOn machine held
  exact ⟨List.forall_mem_cons.mpr ⟨fits machine, later⟩, ended⟩

theorem meets_ite {condition : Prop} [Decidable condition] {yes no : Traced α}
    (ofYes : Meets ofExpr ofStmt ofValue expected good yes) (ofNo : Meets ofExpr ofStmt ofValue expected good no) :
    Meets ofExpr ofStmt ofValue expected good (if condition then yes else no) := by
  by_cases holds : condition
  · rw [if_pos holds]
    exact ofYes
  · rw [if_neg holds]
    exact ofNo

theorem meets_inFrame (frame : FrameId) {body : Traced α} (inside : Meets ofExpr ofStmt ofValue expected good body) :
    Meets ofExpr ofStmt ofValue expected good (inFrame frame body) := by
  intro machine held
  obtain ⟨met, carries⟩ := inside { machine with frame := frame } held
  refine ⟨met, ?_⟩
  simp only [inFrame, Run.inFrame]
  generalize (body { machine with frame := frame }).2 = outcome at carries
  cases carries with
  | done value after held fits => exact .done value _ held fits
  | fault fault after held foreseen => exact .fault fault _ held foreseen
  | outOfFuel => exact .outOfFuel

theorem meets_deeper {body : Traced α} (inside : Meets ofExpr ofStmt ofValue expected good body) :
    Meets ofExpr ofStmt ofValue expected good (deeper body) := by
  intro machine held
  obtain ⟨met, carries⟩ := inside { machine with depth := machine.depth + 1 } held
  refine ⟨met, ?_⟩
  simp only [deeper, Run.deeper]
  generalize (body { machine with depth := machine.depth + 1 }).2 = outcome at carries
  cases carries with
  | done value after held fits => exact .done value _ held fits
  | fault fault after held foreseen => exact .fault fault _ held foreseen
  | outOfFuel => exact .outOfFuel

theorem meets_bindParams (params : List Token) : ∀ arguments : List Value,
    (∀ param ∈ params, param.ExpectsName expected) → (∀ argument ∈ arguments, ofValue argument) →
    Meets ofExpr ofStmt ofValue expected (fun _ => True) (quiet (bindParams params arguments)) := by
  induction params with
  | nil => exact fun _ _ _ => meets_pure trivial
  | cons param params ih =>
      intro arguments foreseen fits
      cases arguments with
      | nil => exact meets_pure trivial
      | cons argument arguments =>
          rw [List.forall_mem_cons] at foreseen fits
          rw [bindParams, quiet_bind]
          exact meets_bind (meets_quiet (carries_define param foreseen.1 argument fits.1)) fun _ _ =>
            ih arguments foreseen.2 fits.2

end rules

structure MeetsWithin (ofExpr : Expr NodeId → Prop) (ofStmt : Stmt NodeId → Prop) (ofValue : Value → Prop)
    (expected : Fault → Prop) (fuel : Nat) : Prop where
  eval : ∀ expr, ofExpr expr → Meets ofExpr ofStmt ofValue expected ofValue (eval fuel expr)
  evalAll : ∀ exprs, (∀ expr ∈ exprs, ofExpr expr) →
    Meets ofExpr ofStmt ofValue expected (fun values => ∀ value ∈ values, ofValue value) (evalAll fuel exprs)
  invoke : ∀ callee arguments, ofValue callee → (∀ argument ∈ arguments, ofValue argument) →
    Meets ofExpr ofStmt ofValue expected ofValue (invoke fuel callee arguments)
  exec : ∀ stmt, ofStmt stmt → Meets ofExpr ofStmt ofValue expected (fun ending => ofValue ending.value) (exec fuel stmt)
  execAll : ∀ stmts, (∀ stmt ∈ stmts, ofStmt stmt) →
    Meets ofExpr ofStmt ofValue expected (fun ending => ofValue ending.value) (execAll fuel stmts)
  execLoop : ∀ condition body, ofExpr condition → ofStmt body →
    Meets ofExpr ofStmt ofValue expected (fun ending => ofValue ending.value) (execLoop fuel condition body)

section step

variable (parts : Hereditary ofExpr ofStmt ofValue expected) (fuel : Nat)
  (ih : MeetsWithin ofExpr ofStmt ofValue expected fuel)

include parts ih

theorem eval_meets (expr : Expr NodeId) (fits : ofExpr expr) :
    Meets ofExpr ofStmt ofValue expected ofValue (eval (fuel + 1) expr) := by
  refine meets_marked (fun _ => fits) ?_
  cases expr with
  | literal value => exact meets_pure (parts.datum value)
  | group inner => exact ih.eval inner (parts.group inner fits)
  | unary operator operand =>
      obtain ⟨foreseen, ofOperand⟩ := parts.unary operator operand fits
      refine meets_bind (ih.eval operand ofOperand) fun value _ => ?_
      exact meets_quiet (carries_lift operator _ (applyUnary_judged operator value) foreseen parts.datum)
  | binary left operator right =>
      obtain ⟨foreseen, ofLeft, ofRight⟩ := parts.binary left operator right fits
      refine meets_bind (ih.eval left ofLeft) fun first _ => ?_
      refine meets_bind (ih.eval right ofRight) fun second _ => ?_
      exact meets_quiet (carries_lift operator _ (applyBinary_judged operator first second) foreseen parts.datum)
  | logical left operator right =>
      obtain ⟨ofLeft, ofRight⟩ := parts.logical left operator right fits
      refine meets_bind (ih.eval left ofLeft) fun first ofFirst => ?_
      exact meets_ite (meets_pure ofFirst) (ih.eval right ofRight)
  | ternary condition yes no =>
      obtain ⟨ofCondition, ofYes, ofNo⟩ := parts.ternary condition yes no fits
      refine meets_bind (ih.eval condition ofCondition) fun _ _ => ?_
      exact meets_ite (ih.eval yes ofYes) (ih.eval no ofNo)
  | comma first second =>
      obtain ⟨ofFirst, ofSecond⟩ := parts.comma first second fits
      exact meets_bind (ih.eval first ofFirst) fun _ _ => ih.eval second ofSecond
  | var label name => exact meets_quiet (carries_lookup name (parts.var label name fits) label)
  | assign label name value =>
      obtain ⟨foreseen, ofAssigned⟩ := parts.assign label name value fits
      refine meets_bind (ih.eval value ofAssigned) fun result ofResult => ?_
      refine meets_marked (fun _ => trivial) ?_
      exact meets_bind (meets_quiet (carries_store name foreseen label result ofResult)) fun _ _ => meets_pure ofResult
  | call callee close arguments =>
      obtain ⟨ofCallee, foreseen, ofArguments⟩ := parts.call callee close arguments fits
      refine meets_bind (ih.eval callee ofCallee) fun target ofTarget => ?_
      refine meets_bind (ih.evalAll arguments ofArguments) fun values ofValues => ?_
      refine meets_bind (meets_quiet (carries_checkCall close target values.length foreseen)) fun _ _ => ?_
      exact meets_deeper (ih.invoke target values ofTarget ofValues)

omit parts in
theorem evalAll_meets (exprs : List (Expr NodeId)) (fits : ∀ expr ∈ exprs, ofExpr expr) :
    Meets ofExpr ofStmt ofValue expected (fun values => ∀ value ∈ values, ofValue value)
      (evalAll (fuel + 1) exprs) := by
  cases exprs with
  | nil => exact meets_pure (by simp)
  | cons first rest =>
      rw [List.forall_mem_cons] at fits
      refine meets_bind (ih.eval first fits.1) fun value ofFirst => ?_
      refine meets_bind (ih.evalAll rest fits.2) fun values others => ?_
      exact meets_pure (List.forall_mem_cons.mpr ⟨ofFirst, others⟩)

theorem invoke_meets (callee : Value) (arguments : List Value) (ofCallee : ofValue callee)
    (ofArguments : ∀ argument ∈ arguments, ofValue argument) :
    Meets ofExpr ofStmt ofValue expected ofValue (invoke (fuel + 1) callee arguments) := by
  refine meets_marked (fun _ => ofCallee) ?_
  cases callee with
  | datum value => exact meets_pure (parts.datum _)
  | clock => exact meets_quiet (carries_readClock parts.datum)
  | closure closure =>
      obtain ⟨foreseen, ofBody⟩ := parts.closure closure ofCallee
      refine meets_bind (meets_quiet (carries_newFrame closure.home)) fun frame _ => ?_
      have inside := meets_bind (meets_bindParams closure.params arguments foreseen ofArguments) fun _ _ =>
        ih.execAll closure.body ofBody
      exact meets_bind (meets_inFrame frame inside) fun _ ofEnding => meets_pure ofEnding

theorem exec_meets (stmt : Stmt NodeId) (fits : ofStmt stmt) :
    Meets ofExpr ofStmt ofValue expected (fun ending => ofValue ending.value) (exec (fuel + 1) stmt) := by
  have finished : Meets ofExpr ofStmt ofValue expected (fun ending => ofValue ending.value) (pure Ending.normal) :=
    meets_pure (parts.datum _)
  refine meets_marked (fun _ => fits) ?_
  cases stmt with
  | ret keyword value =>
      have ofReturned := parts.ret keyword value fits
      cases value with
      | none => exact meets_pure (parts.datum _)
      | some value => exact meets_bind (ih.eval value (ofReturned value rfl)) fun _ ofResult => meets_pure ofResult
  | print keyword value =>
      obtain ⟨foreseen, ofPrinted⟩ := parts.print keyword value fits
      refine meets_bind (ih.eval value ofPrinted) fun result _ => ?_
      exact meets_bind (meets_quiet (carries_write keyword _ foreseen)) fun _ _ => finished
  | expr value => exact meets_bind (ih.eval value (parts.expr value fits)) fun _ _ => finished
  | var name value =>
      obtain ⟨foreseen, ofInitial⟩ := parts.defines name value fits
      cases value with
      | none => exact meets_bind (meets_quiet (carries_declare name foreseen)) fun _ _ => finished
      | some value =>
          refine meets_bind (ih.eval value (ofInitial value rfl)) fun result ofResult => ?_
          exact meets_bind (meets_quiet (carries_define name foreseen result ofResult)) fun _ _ => finished
  | block body =>
      exact meets_bind (meets_quiet carries_newInner) fun frame _ =>
        meets_inFrame frame (ih.execAll body (parts.block body fits))
  | func name params body =>
      obtain ⟨foreseen, made⟩ := parts.func name params body fits
      refine meets_bind (meets_quiet (carries_newClosure name params body made)) fun closure ofClosure => ?_
      exact meets_bind (meets_quiet (carries_define name foreseen closure ofClosure)) fun _ _ => finished
  | branch condition yes no =>
      obtain ⟨ofCondition, ofYes, ofNo⟩ := parts.branch condition yes no fits
      refine meets_bind (ih.eval condition ofCondition) fun _ _ => ?_
      cases no with
      | none => exact meets_ite (ih.exec yes ofYes) finished
      | some no => exact meets_ite (ih.exec yes ofYes) (ih.exec no (ofNo no rfl))
  | loop condition body =>
      obtain ⟨ofCondition, ofBody⟩ := parts.loop condition body fits
      exact ih.execLoop condition body ofCondition ofBody

theorem execAll_meets (stmts : List (Stmt NodeId)) (fits : ∀ stmt ∈ stmts, ofStmt stmt) :
    Meets ofExpr ofStmt ofValue expected (fun ending => ofValue ending.value) (execAll (fuel + 1) stmts) := by
  cases stmts with
  | nil => exact meets_pure (parts.datum _)
  | cons first rest =>
      rw [List.forall_mem_cons] at fits
      refine meets_bind (ih.exec first fits.1) fun ending ofEnding => ?_
      cases ending with
      | normal => exact ih.execAll rest fits.2
      | returned value => exact meets_pure ofEnding

theorem execLoop_meets (condition : Expr NodeId) (body : Stmt NodeId) (ofCondition : ofExpr condition)
    (ofBody : ofStmt body) :
    Meets ofExpr ofStmt ofValue expected (fun ending => ofValue ending.value) (execLoop (fuel + 1) condition body) := by
  refine meets_bind (ih.eval condition ofCondition) fun _ _ => ?_
  refine meets_ite (meets_bind (ih.exec body ofBody) fun ending ofEnding => ?_) (meets_pure (parts.datum _))
  cases ending with
  | normal => exact ih.execLoop condition body ofCondition ofBody
  | returned value => exact meets_pure ofEnding

end step

theorem meets_within (parts : Hereditary ofExpr ofStmt ofValue expected) (fuel : Nat) :
    MeetsWithin ofExpr ofStmt ofValue expected fuel := by
  induction fuel with
  | zero =>
      constructor
      all_goals intros
      all_goals exact meets_outOfFuel
  | succ fuel ih =>
      exact ⟨eval_meets parts fuel ih, evalAll_meets fuel ih, invoke_meets parts fuel ih, exec_meets parts fuel ih,
        execAll_meets parts fuel ih, execLoop_meets parts fuel ih⟩

theorem runProgram_meets (parts : Hereditary ofExpr ofStmt ofValue expected) (fuel : Nat) (program : List (Stmt NodeId))
    (fits : ∀ stmt ∈ program, ofStmt stmt) :
    Meets ofExpr ofStmt ofValue expected (fun _ => True) (runProgram fuel program) := by
  induction program with
  | nil => exact meets_pure trivial
  | cons first rest ih =>
      rw [List.forall_mem_cons] at fits
      exact meets_bind ((meets_within parts fuel).exec first fits.1) fun _ _ => ih fits.2

end Traced

end Treewalk
