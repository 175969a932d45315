import Treewalk.Proofs.GuardedRuns
import Treewalk.Proofs.HeldValues
import Treewalk.Proofs.Restoring

/-!
Programs without loops come to an end, however their functions call themselves and each other. A call jumps into code that
is no part of the calling code, so the syntax alone does not get smaller; but each call uses up one of the calls that
may still start, and within one call only the syntax counts. That the code jumped into has no loops either is an
invariant of the frames, which every new function keeps.
-/

set_option autoImplicit false

namespace Treewalk

-- No loop in a statement, nor in the functions declared in it.

mutual
def Stmt.loopFree {ν : Type} : Stmt ν → Bool
  | .ret _ _ => true
  | .print _ _ => true
  | .expr _ => true
  | .var _ _ => true
  | .block body => Stmt.loopFreeAll body
  | .func _ _ body => Stmt.loopFreeAll body
  | .branch _ yes none => yes.loopFree
  | .branch _ yes (some no) => yes.loopFree && no.loopFree
  | .loop _ _ => false
def Stmt.loopFreeAll {ν : Type} : List (Stmt ν) → Bool
  | [] => true
  | first :: rest => first.loopFree && Stmt.loopFreeAll rest
end

def Value.LoopFree : Value → Prop
  | .closure function => Stmt.loopFreeAll function.body = true
  | .datum _ => True
  | .clock => True

def Ending.LoopFree (ending : Ending) : Prop := ending.value.LoopFree

-- No function that any frame holds has a loop.
def Heap.LoopFree (heap : Heap) : Prop :=
  ∀ frame name value, heap.slot? frame name = some (.holds value) → value.LoopFree

-- How many more calls may start inside the running ones.
def Control.left (control : Control) : Nat := control.limit - control.depth

-- A run that came to an end, and if with a value, then on a machine from which the next step may start.
inductive Outcome.Settled {α : Type} (good : α → Prop) (machine : Machine) : Outcome α → Prop where
  | done (value : α) (after : Machine) (kept : after.control = machine.control) (free : after.heap.LoopFree)
      (holds : good value) : Settled good machine (.done value after)
  | fault (reported : Fault) (after : Machine) : Settled good machine (.fault reported after)

-- With any fuel from some amount on the runs come to one and the same end.
def Halts {α : Type} (good : α → Prop) (runs : Nat → Run α) (machine : Machine) : Prop :=
  ∃ enough outcome, Outcome.Settled good machine outcome ∧ ∀ fuel, enough ≤ fuel → runs fuel machine = outcome

section rules

variable {α β : Type} {good : α → Prop} {result : β → Prop} {machine : Machine}

theorem halts_step (run : Run α) (settled : (run machine).Settled good machine) : Halts good (fun _ => run) machine :=
  ⟨0, run machine, settled, fun _ _ => rfl⟩

theorem halts_pure (value : α) (free : machine.heap.LoopFree) (holds : good value) :
    Halts good (fun _ => pure value) machine :=
  halts_step (pure value) (.done value machine rfl free holds)

-- Every level of the evaluation takes one unit of fuel.
theorem halts_later (runs : Nat → Run α) (halts : Halts good (fun fuel => runs (fuel + 1)) machine) :
    Halts good runs machine := by
  obtain ⟨enough, outcome, settled, ends⟩ := halts
  refine ⟨enough + 1, outcome, settled, ?_⟩
  intro fuel more
  obtain ⟨less, rfl⟩ : ∃ less, fuel = less + 1 := ⟨fuel - 1, by omega⟩
  exact ends less (by omega)

theorem halts_bind (first : Nat → Run α) (next : Nat → α → Run β) (start : Halts good first machine)
    (goOn : ∀ value after, after.control = machine.control → after.heap.LoopFree → good value →
      Halts result (fun fuel => next fuel value) after) :
    Halts result (fun fuel => first fuel >>= next fuel) machine := by
  obtain ⟨enough, outcome, settled, ends⟩ := start
  cases settled with
  | done value between kept free holds =>
      obtain ⟨further, last, settled', ends'⟩ := goOn value between kept free holds
      refine ⟨max enough further, last, ?_, ?_⟩
      · cases settled' with
        | done value after kept' free holds => exact .done value after (kept'.trans kept) free holds
        | fault reported after => exact .fault reported after
      · intro fuel more
        change Run.bind (first fuel) (next fuel) machine = last
        simp only [Run.bind, ends fuel (by omega)]
        exact ends' fuel (by omega)
  | fault reported after =>
      refine ⟨enough, .fault reported after, .fault reported after, ?_⟩
      intro fuel more
      change Run.bind (first fuel) (next fuel) machine = _
      simp only [Run.bind, ends fuel more]

theorem halts_inFrame (frame : FrameId) (body : Nat → Run α) (inside : Halts good body { machine with frame := frame }) :
    Halts good (fun fuel => Run.inFrame frame (body fuel)) machine := by
  obtain ⟨enough, outcome, settled, ends⟩ := inside
  cases settled with
  | done value after kept free holds =>
      refine ⟨enough, .done value { after with frame := machine.frame }, .done _ _ ?_ free holds, ?_⟩
      · simp only [Machine.control, Control.mk.injEq, true_and] at kept ⊢
        exact kept.2
      · intro fuel more
        simp only [Run.inFrame, ends fuel more]
  | fault reported after =>
      refine ⟨enough, .fault reported { after with frame := machine.frame }, .fault _ _, ?_⟩
      intro fuel more
      simp only [Run.inFrame, ends fuel more]

theorem halts_deeper (body : Nat → Run α) (inside : Halts good body { machine with depth := machine.depth + 1 }) :
    Halts good (fun fuel => Run.deeper (body fuel)) machine := by
  obtain ⟨enough, outcome, settled, ends⟩ := inside
  cases settled with
  | done value after kept free holds =>
      refine ⟨enough, .done value { after with depth := after.depth - 1 }, .done _ _ ?_ free holds, ?_⟩
      · simp only [Machine.control, Control.mk.injEq] at kept ⊢
        obtain ⟨frame, depth, limit⟩ := kept
        exact ⟨frame, by rw [depth]; rfl, limit⟩
      · intro fuel more
        simp only [Run.deeper, ends fuel more]
  | fault reported after =>
      refine ⟨enough, .fault reported { after with depth := after.depth - 1 }, .fault _ _, ?_⟩
      intro fuel more
      simp only [Run.deeper, ends fuel more]

end rules

-- The single steps of the machine.

section steps

variable (machine : Machine)

theorem change_settled (line : Int) (action : Heap → FrameId → Except Cause Heap)
    (keeps : ∀ heap, action machine.heap machine.frame = .ok heap → heap.LoopFree) :
    (Run.change line action machine).Settled (fun _ => True) machine := by
  unfold Run.change
  cases changed : action machine.heap machine.frame with
  | ok heap => exact .done () _ rfl (keeps heap changed) trivial
  | error cause => exact .fault _ machine

variable (free : machine.heap.LoopFree)

include free

theorem define_settled (name : Token) (value : Value) (holds : value.LoopFree) :
    (Run.define name value machine).Settled (fun _ => True) machine := by
  apply change_settled machine
  intro heap defined
  exact answers_ok (Heap.define_answers free machine.frame name.lexeme value holds) defined

theorem declare_settled (name : Token) : (Run.declare name machine).Settled (fun _ => True) machine := by
  apply change_settled machine
  intro heap declared
  exact answers_ok (Heap.declare_answers free machine.frame name.lexeme) declared

theorem store_settled (label : NodeId) (name : Token) (value : Value) (holds : value.LoopFree) :
    (Run.store label name value machine).Settled (fun _ => True) machine := by
  unfold Run.store
  cases machine.distances[label]? with
  | none =>
      apply change_settled machine
      intro heap updated
      exact answers_ok (Heap.update_answers free globalFrame name.lexeme value holds) updated
  | some distance =>
      apply change_settled machine
      intro heap updated
      exact answers_ok (Heap.updateAt_answers free machine.frame distance name.lexeme value holds) updated

theorem lookup_settled (label : NodeId) (name : Token) :
    (Run.lookup label name machine).Settled Value.LoopFree machine := by
  unfold Run.lookup
  cases found : machine.valueOf label name.lexeme with
  | error cause => exact .fault _ machine
  | ok value =>
      exact .done value machine rfl free (answers_ok (valueOf_answers machine free label name.lexeme) found)

theorem answer_settled (answer : Except Fault Value) (plain : Binding.Plain answer) :
    (Run.lift answer machine).Settled Value.LoopFree machine := by
  cases plain with
  | answer datum => exact .done _ machine rfl free trivial
  | refusal reported known => exact .fault reported machine

theorem write_settled (line : Int) (text : String) : (Run.write line text machine).Settled (fun _ => True) machine := by
  unfold Run.write Machine.emit
  cases machine.sink.offer text.toUTF8 with
  | mk refusal sink =>
      cases refusal with
      | none => exact .done () { machine with sink := sink } rfl free trivial
      | some reason => exact .fault _ { machine with sink := sink }

-- Behind the check there is room for one more call.
theorem checkCall_settled (line : Int) (callee : Value) (count : Nat) :
    (checkCall line callee count machine).Settled (fun _ => machine.depth < machine.limit) machine := by
  have checked := checkCall_checked line callee count machine
  generalize checkCall line callee count machine = outcome at checked ⊢
  cases checked with
  | passed room => exact .done () machine rfl free room
  | refused cause => exact .fault _ machine

end steps

theorem bindParams_halts (params : List Token) : ∀ (arguments : List Value) (machine : Machine), machine.heap.LoopFree →
    (∀ argument ∈ arguments, argument.LoopFree) →
    Halts (fun _ => True) (fun _ => bindParams params arguments) machine := by
  induction params with
  | nil => exact fun arguments machine free _ => halts_pure () free trivial
  | cons param params ih =>
      intro arguments machine free given
      cases arguments with
      | nil => exact halts_pure () free trivial
      | cons argument arguments =>
          rw [List.forall_mem_cons] at given
          refine halts_bind _ (fun _ _ => bindParams params arguments)
            (halts_step _ (define_settled machine free param argument given.1)) ?_
          intro _ after _ free _
          exact ih arguments after free given.2

-- All code without loops ends where fewer calls are left.
def HaltsBelow (budget : Nat) : Prop :=
  ∀ (stmts : List (Stmt NodeId)) (machine : Machine), Stmt.loopFreeAll stmts = true → machine.heap.LoopFree →
    machine.control.left < budget → Halts Ending.LoopFree (fun fuel => execAll fuel stmts) machine

theorem invoke_halts (budget : Nat) (earlier : HaltsBelow budget) (callee : Value) (arguments : List Value)
    (machine : Machine) (free : machine.heap.LoopFree) (room : machine.control.left < budget) (called : callee.LoopFree)
    (given : ∀ argument ∈ arguments, argument.LoopFree) :
    Halts Value.LoopFree (fun fuel => invoke fuel callee arguments) machine := by
  apply halts_later
  cases callee with
  | datum value => exact halts_pure _ free trivial
  | clock => exact halts_step Run.readClock (.done _ _ rfl free trivial)
  | closure closure =>
      have entered : (Run.newFrame closure.home machine).Settled (fun _ => True) machine :=
        .done _ _ rfl (Heap.holds_push free _) trivial
      refine halts_bind _ _ (halts_step _ entered) ?_
      intro frame inner kept free _
      have body : Halts Ending.LoopFree
          (fun fuel => Run.inFrame frame (do bindParams closure.params arguments; execAll fuel closure.body)) inner := by
        apply halts_inFrame
        refine halts_bind _ _ (bindParams_halts closure.params arguments { inner with frame := frame } free given) ?_
        intro _ bound bindingKept free _
        refine earlier closure.body bound called free ?_
        rw [bindingKept]
        change inner.control.left < budget
        rw [kept]
        exact room
      refine halts_bind _ _ body ?_
      intro ending after _ free holds
      exact halts_pure ending.value free holds

mutual
theorem eval_halts (budget : Nat) (earlier : HaltsBelow budget) : (expr : Expr NodeId) → (machine : Machine) →
    machine.heap.LoopFree → machine.control.left = budget →
    Halts Value.LoopFree (fun fuel => eval fuel expr) machine
  | .literal value, machine, free, _ => halts_later _ (halts_pure _ free trivial)
  | .group inner, machine, free, left => halts_later _ (eval_halts budget earlier inner machine free left)
  | .unary operator operand, machine, free, left => by
      apply halts_later
      refine halts_bind _ _ (eval_halts budget earlier operand machine free left) ?_
      intro value after _ free _
      exact halts_step _ (answer_settled after free _ (Binding.applyUnary_plain operator value))
  | .binary first operator second, machine, free, left => by
      apply halts_later
      refine halts_bind _ _ (eval_halts budget earlier first machine free left) ?_
      intro value between kept free _
      refine halts_bind _ _ (eval_halts budget earlier second between free (kept ▸ left)) ?_
      intro other after _ free _
      exact halts_step _ (answer_settled after free _ (Binding.applyBinary_plain operator value other))
  | .logical first operator second, machine, free, left => by
      apply halts_later
      refine halts_bind _ _ (eval_halts budget earlier first machine free left) ?_
      intro value after kept free holds
      by_cases decided : decides operator value = true
      · simp only [decided, if_true]
        exact halts_pure value free holds
      · simp only [decided]
        exact eval_halts budget earlier second after free (kept ▸ left)
  | .ternary condition yes no, machine, free, left => by
      apply halts_later
      refine halts_bind _ _ (eval_halts budget earlier condition machine free left) ?_
      intro test after kept free _
      by_cases passed : test.toBool = true
      · simp only [passed, if_true]
        exact eval_halts budget earlier yes after free (kept ▸ left)
      · simp only [passed]
        exact eval_halts budget earlier no after free (kept ▸ left)
  | .comma first second, machine, free, left => by
      apply halts_later
      refine halts_bind _ _ (eval_halts budget earlier first machine free left) ?_
      intro _ after kept free _
      exact eval_halts budget earlier second after free (kept ▸ left)
  | .var label name, machine, free, _ => by
      apply halts_later
      exact halts_step _ (lookup_settled machine free label name)
  | .assign label name value, machine, free, left => by
      apply halts_later
      refine halts_bind _ _ (eval_halts budget earlier value machine free left) ?_
      intro result between _ free holds
      refine halts_bind _ _ (halts_step _ (store_settled between free label name result holds)) ?_
      intro _ after _ free _
      exact halts_pure result free holds
  | .call callee close arguments, machine, free, left => by
      apply halts_later
      refine halts_bind _ _ (eval_halts budget earlier callee machine free left) ?_
      intro target called keptCallee free targetFree
      refine halts_bind _ _ (evalAll_halts budget earlier arguments called free (keptCallee ▸ left)) ?_
      intro values passed keptArguments free given
      refine halts_bind _ _ (halts_step _ (checkCall_settled passed free close.line target values.length)) ?_
      intro _ checked keptCheck free room
      apply halts_deeper
      refine invoke_halts budget earlier target values _ free ?_ targetFree given
      -- One call more is running, so one less may start.
      rw [← left, ← keptCallee, ← keptArguments, ← keptCheck]
      have depth : checked.depth = passed.depth := congrArg Control.depth keptCheck
      have limit : checked.limit = passed.limit := congrArg Control.limit keptCheck
      simp only [Control.left, Machine.control]
      omega
theorem evalAll_halts (budget : Nat) (earlier : HaltsBelow budget) : (exprs : List (Expr NodeId)) →
    (machine : Machine) → machine.heap.LoopFree → machine.control.left = budget →
    Halts (fun values => ∀ value ∈ values, Value.LoopFree value) (fun fuel => evalAll fuel exprs) machine
  | [], machine, free, _ => halts_later _ (halts_pure [] free fun _ inside => nomatch inside)
  | first :: rest, machine, free, left => by
      apply halts_later
      refine halts_bind _ _ (eval_halts budget earlier first machine free left) ?_
      intro value between kept free holds
      refine halts_bind _ _ (evalAll_halts budget earlier rest between free (kept ▸ left)) ?_
      intro values after _ free others
      exact halts_pure (value :: values) free (List.forall_mem_cons.mpr ⟨holds, others⟩)
end

mutual
theorem exec_halts (budget : Nat) (earlier : HaltsBelow budget) : (stmt : Stmt NodeId) → (machine : Machine) →
    stmt.loopFree = true → machine.heap.LoopFree → machine.control.left = budget →
    Halts Ending.LoopFree (fun fuel => exec fuel stmt) machine
  | .ret _ none, machine, _, free, _ => halts_later _ (halts_pure _ free trivial)
  | .ret _ (some value), machine, _, free, left => by
      apply halts_later
      refine halts_bind _ _ (eval_halts budget earlier value machine free left) ?_
      intro result after _ free holds
      exact halts_pure (Ending.returned result) free holds
  | .print keyword value, machine, _, free, left => by
      apply halts_later
      refine halts_bind _ _ (eval_halts budget earlier value machine free left) ?_
      intro result between _ free _
      refine halts_bind _ _ (halts_step _ (write_settled between free keyword.line (result.display ++ "\n"))) ?_
      intro _ after _ free _
      exact halts_pure Ending.normal free trivial
  | .expr value, machine, _, free, left => by
      apply halts_later
      refine halts_bind _ _ (eval_halts budget earlier value machine free left) ?_
      intro _ after _ free _
      exact halts_pure Ending.normal free trivial
  | .var name none, machine, _, free, _ => by
      apply halts_later
      refine halts_bind _ _ (halts_step _ (declare_settled machine free name)) ?_
      intro _ after _ free _
      exact halts_pure Ending.normal free trivial
  | .var name (some value), machine, _, free, left => by
      apply halts_later
      refine halts_bind _ _ (eval_halts budget earlier value machine free left) ?_
      intro result between _ free holds
      refine halts_bind _ _ (halts_step _ (define_settled between free name result holds)) ?_
      intro _ after _ free _
      exact halts_pure Ending.normal free trivial
  | .block body, machine, loopless, free, left => by
      apply halts_later
      have entered : (Run.newInner machine).Settled (fun _ => True) machine :=
        .done _ _ rfl (Heap.holds_push free _) trivial
      refine halts_bind _ _ (halts_step _ entered) ?_
      intro frame inner kept free _
      apply halts_inFrame
      refine execAll_halts budget earlier body { inner with frame := frame } loopless free ?_
      change inner.control.left = budget
      rw [kept]
      exact left
  | .func name params body, machine, loopless, free, _ => by
      apply halts_later
      have made : (Run.newClosure name params body machine).Settled Value.LoopFree machine :=
        .done _ _ rfl free loopless
      refine halts_bind _ _ (halts_step _ made) ?_
      intro closure between _ free holds
      refine halts_bind _ _ (halts_step _ (define_settled between free name closure holds)) ?_
      intro _ after _ free _
      exact halts_pure Ending.normal free trivial
  | .branch condition yes none, machine, loopless, free, left => by
      apply halts_later
      refine halts_bind _ _ (eval_halts budget earlier condition machine free left) ?_
      intro test after kept free _
      by_cases passed : test.toBool = true
      · simp only [passed, if_true]
        exact exec_halts budget earlier yes after loopless free (kept ▸ left)
      · simp only [passed]
        exact halts_pure Ending.normal free trivial
  | .branch condition yes (some no), machine, loopless, free, left => by
      simp only [Stmt.loopFree, Bool.and_eq_true] at loopless
      apply halts_later
      refine halts_bind _ _ (eval_halts budget earlier condition machine free left) ?_
      intro test after kept free _
      by_cases passed : test.toBool = true
      · simp only [passed, if_true]
        exact exec_halts budget earlier yes after loopless.1 free (kept ▸ left)
      · simp only [passed]
        exact exec_halts budget earlier no after loopless.2 free (kept ▸ left)
theorem execAll_halts (budget : Nat) (earlier : HaltsBelow budget) : (stmts : List (Stmt NodeId)) →
    (machine : Machine) → Stmt.loopFreeAll stmts = true → machine.heap.LoopFree → machine.control.left = budget →
    Halts Ending.LoopFree (fun fuel => execAll fuel stmts) machine
  | [], machine, _, free, _ => halts_later _ (halts_pure Ending.normal free trivial)
  | first :: rest, machine, loopless, free, left => by
      simp only [Stmt.loopFreeAll, Bool.and_eq_true] at loopless
      apply halts_later
      refine halts_bind _ _ (exec_halts budget earlier first machine loopless.1 free left) ?_
      intro ending after kept free holds
      cases ending with
      | normal => exact execAll_halts budget earlier rest after loopless.2 free (kept ▸ left)
      | returned value => exact halts_pure (Ending.returned value) free holds
end

-- The calls that are left go down with each call that starts, and the syntax within one call.
theorem loopFree_halts (budget : Nat) : ∀ (stmts : List (Stmt NodeId)) (machine : Machine),
    Stmt.loopFreeAll stmts = true → machine.heap.LoopFree → machine.control.left = budget →
    Halts Ending.LoopFree (fun fuel => execAll fuel stmts) machine := by
  induction budget using Nat.strongRecOn with
  | ind budget earlier =>
      refine execAll_halts budget ?_
      intro stmts machine loopless free fewer
      exact earlier machine.control.left fewer stmts machine loopless free rfl

theorem exec_loopFree_halts (stmt : Stmt NodeId) (machine : Machine) (loopless : stmt.loopFree = true)
    (free : machine.heap.LoopFree) : Halts Ending.LoopFree (fun fuel => exec fuel stmt) machine :=
  exec_halts machine.control.left (fun stmts machine loopless free _ => loopFree_halts _ stmts machine loopless free rfl)
    stmt machine loopless free rfl

theorem runProgram_halts (program : List (Stmt NodeId)) : ∀ machine : Machine, Stmt.loopFreeAll program = true →
    machine.heap.LoopFree → Halts (fun _ => True) (fun fuel => runProgram fuel program) machine := by
  induction program with
  | nil => exact fun machine _ free => halts_pure () free trivial
  | cons first rest ih =>
      intro machine loopless free
      simp only [Stmt.loopFreeAll, Bool.and_eq_true] at loopless
      refine halts_bind _ _ (exec_loopFree_halts first machine loopless.1 free) ?_
      intro _ after _ free _
      exact ih after loopless.2 free

-- The end is one and the same with any fuel from some amount on.
theorem loop_free_programs_end (program : List (Stmt NodeId)) (machine : Machine)
    (loopless : Stmt.loopFreeAll program = true) (free : machine.heap.LoopFree) :
    ∃ outcome, outcome ≠ .outOfFuel ∧ ∃ enough, ∀ fuel, enough ≤ fuel → runProgram fuel program machine = outcome := by
  obtain ⟨enough, outcome, settled, ends⟩ := runProgram_halts program machine loopless free
  refine ⟨outcome, ?_, enough, ends⟩
  cases settled with
  | done value after kept free holds => exact fun same => nomatch same
  | fault reported after => exact fun same => nomatch same

theorem loopFree_start (limit : Nat) (sink : Sink) (clock : Clock) :
    (Machine.start limit sink clock).heap.LoopFree :=
  holds_start limit sink clock trivial

-- `fun twice() { twice(); twice(); } twice();`, which calls itself until a call is refused.

def twiceName : Token := ⟨.identifier, "twice", none, 1⟩

def twiceCall (label : NodeId) : Stmt NodeId := .expr (.call (.var label twiceName) ⟨.rightParen, ")", none, 1⟩ [])

def doubling : List (Stmt NodeId) := [.func twiceName [] [twiceCall 0, twiceCall 1], twiceCall 2]

theorem doubling_ends :
    Stmt.loopFreeAll doubling = true ∧
    (Machine.start defaultLimit (Sink.empty none) (Clock.ticking 0)).heap.LoopFree ∧
    ∃ outcome, outcome ≠ .outOfFuel ∧ ∃ enough, ∀ fuel, enough ≤ fuel →
      runProgram fuel doubling (Machine.start defaultLimit (Sink.empty none) (Clock.ticking 0)) = outcome := by
  have free := loopFree_start defaultLimit (Sink.empty none) (Clock.ticking 0)
  exact ⟨rfl, free, loop_free_programs_end doubling _ rfl free⟩

end Treewalk
