import Treewalk.Proofs.EveryRun

/-!
Every run leaves the control state of the machine as it found it: the current frame, the number of running calls and the
bound on them, whether the run ends with a value or with a fault raised at any depth. A call counts itself before its
body and counts one less behind it, so the number comes out right only because the body leaves it alone.
-/

set_option autoImplicit false

namespace Treewalk

structure Control where
  frame : FrameId
  depth : Nat
  limit : Nat

def Machine.control (machine : Machine) : Control := ⟨machine.frame, machine.depth, machine.limit⟩

-- A run that comes to an end has the control state of the machine it started on.
def Outcome.Restored {α : Type} (machine : Machine) : Outcome α → Prop
  | .done _ after => after.control = machine.control
  | .fault _ after => after.control = machine.control
  | .outOfFuel => True

-- A call passes where one more may run, and is refused on its line otherwise. Either way the machine stays as it is.
inductive Checked (line : Int) (machine : Machine) : Outcome Unit → Prop where
  | passed (room : machine.depth < machine.limit) : Checked line machine (.done () machine)
  | refused (cause : Cause) : Checked line machine (.fault ⟨cause, line⟩ machine)

theorem checkCall_checked (line : Int) (callee : Value) (count : Nat) (machine : Machine) :
    Checked line machine (checkCall line callee count machine) := by
  unfold checkCall
  cases callee.arity? with
  | none => exact .refused _
  | some arity =>
      by_cases counts : arity = count
      · by_cases full : machine.limit ≤ machine.depth
        · simp only [counts, ne_eq, not_true, if_false, full, if_true]
          exact .refused _
        · simp only [counts, ne_eq, not_true, if_false, full]
          exact .passed (Nat.lt_of_not_le full)
      · simp only [counts, ne_eq, not_false_eq_true, if_true]
        exact .refused _

namespace Run

variable {α β : Type}

def Restores (run : Run α) : Prop := ∀ machine, (run machine).Restored machine

theorem restores_bind (first : Run α) (next : α → Run β) (start : first.Restores)
    (goOn : ∀ value, (next value).Restores) : Restores (first >>= next) := by
  intro machine
  have early := start machine
  change (Run.bind first next machine).Restored machine
  unfold Run.bind
  cases ran : first machine with
  | done value between =>
      rw [ran] at early
      have late := goOn value between
      dsimp only
      cases rest : next value between with
      | done _ after | fault _ after =>
          rw [rest] at late
          exact late.trans early
      | outOfFuel => trivial
  | fault fault after =>
      rw [ran] at early
      exact early
  | outOfFuel => trivial

-- The body may stand where it likes, as long as it leaves the number of calls.
theorem restores_inFrame (frame : FrameId) (body : Run α) (inside : body.Restores) : Restores (inFrame frame body) := by
  intro machine
  have kept := inside { machine with frame := frame }
  unfold inFrame
  dsimp only
  cases ran : body { machine with frame := frame } with
  | done _ after | fault _ after =>
      rw [ran] at kept
      simp only [Outcome.Restored, Machine.control, Control.mk.injEq, true_and] at kept ⊢
      exact kept.2
  | outOfFuel => trivial

theorem restores_deeper (body : Run α) (inside : body.Restores) : Restores (deeper body) := by
  intro machine
  have kept := inside { machine with depth := machine.depth + 1 }
  unfold deeper
  cases ran : body { machine with depth := machine.depth + 1 } with
  | done _ after | fault _ after =>
      rw [ran] at kept
      simp only [Outcome.Restored, Machine.control, Control.mk.injEq] at kept ⊢
      obtain ⟨frame, depth, limit⟩ := kept
      exact ⟨frame, by rw [depth]; rfl, limit⟩
  | outOfFuel => trivial

theorem restores_change (line : Int) (action : Heap → FrameId → Except Cause Heap) : Restores (change line action) := by
  intro machine
  unfold change
  cases action machine.heap machine.frame <;> rfl

theorem restores_write (line : Int) (text : String) : Restores (write line text) := by
  intro machine
  unfold write Machine.emit
  cases machine.sink.offer text.toUTF8 with
  | mk refusal sink => cases refusal <;> rfl

theorem restores_lookup (label : NodeId) (name : Token) : Restores (lookup label name) := by
  intro machine
  unfold lookup
  cases machine.valueOf label name.lexeme <;> rfl

theorem restores_store (label : NodeId) (name : Token) (value : Value) : Restores (store label name value) := by
  intro machine
  unfold store
  cases machine.distances[label]? with
  | none => exact restores_change _ _ machine
  | some distance => exact restores_change _ _ machine

theorem restores_checkCall (line : Int) (callee : Value) (count : Nat) : Restores (checkCall line callee count) := by
  intro machine
  have checked := checkCall_checked line callee count machine
  generalize checkCall line callee count machine = outcome at checked ⊢
  cases checked with
  | passed room => rfl
  | refused cause => rfl

end Run

open Run

theorem restores_compositional : Traced.Compositional fun run => run.erase.Restores where
  pure _ := fun _ => rfl
  outOfFuel := fun _ => trivial
  bind first next start goOn := by
    rw [Traced.erase_bind]
    exact restores_bind _ _ start goOn
  mark _ _ := fun _ => rfl
  inFrame frame body inside := restores_inFrame frame body.erase inside
  call line callee count body inside := by
    rw [Traced.erase_bind]
    exact restores_bind _ _ (restores_checkCall line callee count) fun _ => restores_deeper body.erase inside
  lift result := by
    intro machine
    cases result <;> rfl
  change line action := restores_change line action
  newFrame _ := fun _ => rfl
  newInner := fun _ => rfl
  write line text := restores_write line text
  readClock := fun _ => rfl
  newClosure _ _ _ := fun _ => rfl
  lookup label name := restores_lookup label name
  store label name value := restores_store label name value

section

variable (fuel : Nat)

theorem eval_restores (expr : Expr NodeId) : Restores (eval fuel expr) := by
  rw [← (Traced.erases_within fuel).eval]
  exact (Traced.holds_within restores_compositional.printing fuel).eval expr

theorem invoke_restores (callee : Value) (arguments : List Value) : Restores (invoke fuel callee arguments) := by
  rw [← (Traced.erases_within fuel).invoke]
  exact (Traced.holds_within restores_compositional.printing fuel).invoke callee arguments

theorem exec_restores (stmt : Stmt NodeId) : Restores (exec fuel stmt) := by
  rw [← (Traced.erases_within fuel).exec]
  exact (Traced.holds_within restores_compositional.printing fuel).exec stmt

theorem block_restores (frame : FrameId) (stmts : List (Stmt NodeId)) :
    Restores (inFrame frame (execAll fuel stmts)) := by
  rw [← (Traced.erases_within fuel).execAll]
  exact restores_inFrame frame _ ((Traced.holds_within restores_compositional.printing fuel).execAll stmts)

end

end Treewalk
