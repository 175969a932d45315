import Mathlib
import Treewalk.Proofs.EveryRun

/-!
The bound on running calls shows only where it is hit. Two runs of one program, on machines that differ in nothing but the
bound, end alike unless the one with the lower bound ends with a call refused for its depth: no statement and no
expression takes that fault up on its way out.
-/

set_option autoImplicit false

namespace Treewalk

def Machine.limited (machine : Machine) (limit : Nat) : Machine := { machine with limit := limit }

-- The same end, of a machine with another bound.
def Outcome.limited {α : Type} (limit : Nat) : Outcome α → Outcome α
  | .done value machine => .done value (machine.limited limit)
  | .fault reported machine => .fault reported (machine.limited limit)
  | .outOfFuel => .outOfFuel

-- A call was refused for its depth.
def Outcome.overflows {α : Type} : Outcome α → Bool
  | .fault reported _ => reported.cause = .tooDeep
  | _ => false

-- How two runs end that differ in the bound.
inductive Unhindered {α : Type} (low high : Nat) : Outcome α → Outcome α → Prop where
  | done (value : α) (machine : Machine) :
      Unhindered low high (.done value (machine.limited low)) (.done value (machine.limited high))
  | fault (fault : Fault) (machine : Machine) :
      Unhindered low high (.fault fault (machine.limited low)) (.fault fault (machine.limited high))
  | outOfFuel : Unhindered low high .outOfFuel .outOfFuel
  | hindered (line : Int) (machine : Machine) (other : Outcome α) : Unhindered low high (.fault ⟨.tooDeep, line⟩ machine) other

theorem unhindered_outcome {α : Type} (low high : Nat) (outcome other : Outcome α)
    (unhindered : Unhindered low high outcome other) (within : outcome.overflows = false) :
    other = outcome.limited high := by
  cases unhindered with
  | done value machine => rfl
  | fault fault machine => rfl
  | outOfFuel => rfl
  | hindered line machine other => cases within

namespace Run

variable {α β : Type} (low high : Nat)

def Scales (run : Run α) : Prop :=
  ∀ machine : Machine, Unhindered low high (run (machine.limited low)) (run (machine.limited high))

theorem scales_bind (first : Run α) (next : α → Run β) (start : first.Scales low high)
    (goOn : ∀ value, (next value).Scales low high) : Scales low high (first >>= next) := by
  intro machine
  have early := start machine
  change Unhindered low high (Run.bind first next _) (Run.bind first next _)
  unfold Run.bind
  generalize first (machine.limited low) = outcome at early ⊢
  generalize first (machine.limited high) = other at early ⊢
  cases early with
  | done value between => exact goOn value between
  | fault fault after => exact .fault fault after
  | outOfFuel => exact .outOfFuel
  | hindered line after other => exact .hindered line after _

-- Whatever the body does, a refused call inside it is not taken up.
theorem scales_inFrame (frame : FrameId) (body : Run α) (inside : body.Scales low high) :
    Scales low high (inFrame frame body) := by
  intro machine
  have ran := inside { machine with frame := frame }
  change Unhindered low high (body { machine.limited low with frame := frame })
    (body { machine.limited high with frame := frame }) at ran
  unfold inFrame
  dsimp only
  generalize body _ = outcome at ran ⊢
  generalize body _ = other at ran ⊢
  cases ran with
  | done value after => exact .done value { after with frame := machine.frame }
  | fault fault after => exact .fault fault { after with frame := machine.frame }
  | outOfFuel => exact .outOfFuel
  | hindered line after other => exact .hindered line _ _

theorem scales_deeper (body : Run α) (inside : body.Scales low high) : Scales low high (deeper body) := by
  intro machine
  have ran := inside { machine with depth := machine.depth + 1 }
  change Unhindered low high (body { machine.limited low with depth := (machine.limited low).depth + 1 })
    (body { machine.limited high with depth := (machine.limited high).depth + 1 }) at ran
  unfold deeper
  generalize body _ = outcome at ran ⊢
  generalize body _ = other at ran ⊢
  cases ran with
  | done value after => exact .done value { after with depth := after.depth - 1 }
  | fault fault after => exact .fault fault { after with depth := after.depth - 1 }
  | outOfFuel => exact .outOfFuel
  | hindered line after other => exact .hindered line _ _

theorem scales_change (line : Int) (action : Heap → FrameId → Except Cause Heap) : Scales low high (change line action) := by
  intro machine
  simp only [change, Machine.limited]
  cases action machine.heap machine.frame with
  | ok heap => exact .done () { machine with heap := heap }
  | error cause => exact .fault _ machine

theorem scales_write (line : Int) (text : String) : Scales low high (write line text) := by
  intro machine
  simp only [write, Machine.emit, Machine.limited]
  cases machine.sink.offer text.toUTF8 with
  | mk refusal sink =>
      cases refusal with
      | none => exact .done () { machine with sink := sink }
      | some reason => exact .fault _ { machine with sink := sink }

theorem scales_lookup (label : NodeId) (name : Token) : Scales low high (lookup label name) := by
  intro machine
  have same (limit : Nat) : (machine.limited limit).valueOf label name.lexeme = machine.valueOf label name.lexeme := rfl
  simp only [lookup, same]
  cases machine.valueOf label name.lexeme with
  | ok value => exact .done value machine
  | error cause => exact .fault _ machine

theorem scales_store (label : NodeId) (name : Token) (value : Value) : Scales low high (store label name value) := by
  intro machine
  have same (limit : Nat) : (machine.limited limit).distances = machine.distances := rfl
  simp only [store, same]
  cases machine.distances[label]? with
  | none => exact scales_change low high _ _ machine
  | some distance => exact scales_change low high _ _ machine

-- The only step that looks at the bound. Below the lower one it goes on with both.
theorem scales_checkCall (more : low ≤ high) (line : Int) (callee : Value) (count : Nat) :
    Scales low high (checkCall line callee count) := by
  intro machine
  simp only [checkCall, Machine.limited]
  cases callee.arity? with
  | none => exact .fault _ machine
  | some arity =>
      by_cases counts : arity = count
      · by_cases full : low ≤ machine.depth
        · simp only [counts, ne_eq, not_true, if_false, full, if_true]
          exact .hindered line _ _
        · have room : ¬ high ≤ machine.depth := by omega
          simp only [counts, ne_eq, not_true, if_false, full, room]
          exact .done () machine
      · simp only [counts, ne_eq, not_false_eq_true, if_true]
        exact .fault _ machine

end Run

theorem scales_compositional (low high : Nat) (more : low ≤ high) :
    Traced.Compositional fun run => run.erase.Scales low high where
  pure value := .done value
  outOfFuel := fun _ => .outOfFuel
  bind first next start goOn := by
    rw [Traced.erase_bind]
    exact Run.scales_bind low high _ _ start goOn
  mark _ _ := .done ()
  inFrame frame body inside := Run.scales_inFrame low high frame body.erase inside
  call line callee count body inside := by
    rw [Traced.erase_bind]
    exact Run.scales_bind low high _ _ (Run.scales_checkCall low high more line callee count) fun _ =>
      Run.scales_deeper low high body.erase inside
  lift result := by
    cases result with
    | ok value => exact .done value
    | error fault => exact .fault fault
  change line action := Run.scales_change low high line action
  newFrame enclosing := fun machine => .done _ { machine with heap := machine.heap.push (some enclosing) }
  newInner := fun machine => .done _ { machine with heap := machine.heap.push (some machine.frame) }
  write line text := Run.scales_write low high line text
  readClock := fun machine => .done _ { machine with clock := { machine.clock with taken := machine.clock.taken + 1 } }
  newClosure _ _ _ := fun machine => .done _ { machine with closures := machine.closures + 1 }
  lookup label name := Run.scales_lookup low high label name
  store label name value := Run.scales_store low high label name value

-- The end under the higher bound is the same with all that the machine holds: frames, output and clock.
theorem limit_unseen_until_hit (low high : Nat) (more : low ≤ high) (fuel : Nat) (program : List (Stmt NodeId))
    (machine : Machine) (outcome : Outcome Unit) (ran : runProgram fuel program (machine.limited low) = outcome)
    (within : outcome.overflows = false) :
    runProgram fuel program (machine.limited high) = outcome.limited high := by
  have scales := Traced.runProgram_holds (scales_compositional low high more).printing fuel program machine
  rw [Traced.runProgram_erases, ran] at scales
  exact unhindered_outcome low high outcome _ scales within

-- `fun inner() { return "deep"; } fun outer() { return inner(); } print outer();`

def innerName : Token := ⟨.identifier, "inner", none, 1⟩

def outerName : Token := ⟨.identifier, "outer", none, 1⟩

def closing : Token := ⟨.rightParen, ")", none, 1⟩

def twoDeep : List (Stmt NodeId) :=
  [.func innerName [] [.ret innerName (some (.literal (.text "deep")))],
    .func outerName [] [.ret outerName (some (.call (.var 0 innerName) closing []))],
    .print outerName (.call (.var 1 outerName) closing [])]

def twoDeepMachine : Machine := Machine.start 0 (Sink.empty none) (Clock.ticking 0)

def Outcome.shown {α : Type} : Outcome α → Option String
  | .done _ machine => some (machine.sink.textFrom 0)
  | _ => none

theorem twoDeep_unseen :
    (runProgram 12 twoDeep (twoDeepMachine.limited 1)).overflows = true ∧
    (runProgram 12 twoDeep (twoDeepMachine.limited 2)).overflows = false ∧
    (runProgram 12 twoDeep (twoDeepMachine.limited 2)).shown = some "deep\n" ∧
    runProgram 12 twoDeep (twoDeepMachine.limited 5) = (runProgram 12 twoDeep (twoDeepMachine.limited 2)).limited 5 := by
  have within : (runProgram 12 twoDeep (twoDeepMachine.limited 2)).overflows = false := by cbv
  exact ⟨by cbv, within, by cbv, limit_unseen_until_hit 2 5 (by decide) 12 twoDeep twoDeepMachine _ rfl within⟩

end Treewalk
