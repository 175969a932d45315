import Treewalk.Proofs.EveryRun
import Treewalk.Proofs.History

/-!
What runs never change. A view of the machine that shows no frames, no place of control, no serial numbers, no clock and
nothing that was written is the same behind every run as before it, however the run ends. One such view is the policy of
the sink, so a sink that refuses no text still refuses none behind any run.
-/

set_option autoImplicit false

namespace Treewalk

-- A sink that takes every text without a refusal, whatever it was offered before.
def Sink.Reliable (sink : Sink) : Prop := ∀ written offered bytes, (sink.policy written offered bytes).2 = none

theorem emit_reliable (machine : Machine) (text : String) (reliable : machine.sink.Reliable) :
    (machine.emit text).1 = none :=
  reliable _ _ _

theorem reliable_empty : (Sink.empty none).Reliable := fun _ _ _ => rfl

-- A view of the machine in which no single step shows.
structure Unmoved {σ : Type} (view : Machine → σ) : Prop where
  heap : ∀ (machine : Machine) (heap : Heap), view { machine with heap := heap } = view machine
  frame : ∀ (machine : Machine) (frame : FrameId), view { machine with frame := frame } = view machine
  depth : ∀ (machine : Machine) (depth : Nat), view { machine with depth := depth } = view machine
  closures : ∀ (machine : Machine) (closures : Nat), view { machine with closures := closures } = view machine
  clock : ∀ (machine : Machine) (clock : Clock), view { machine with clock := clock } = view machine
  emit : ∀ (machine : Machine) (text : String), view (machine.emit text).2 = view machine

theorem unmoved_policy : Unmoved (·.sink.policy) :=
  ⟨fun _ _ => rfl, fun _ _ => rfl, fun _ _ => rfl, fun _ _ => rfl, fun _ _ => rfl, fun _ _ => rfl⟩

namespace Run

variable {α β σ : Type}

-- A run that comes to an end leaves the view as it was.
def Keeps (view : Machine → σ) (run : Run α) : Prop :=
  ∀ machine after, (run machine).machine? = some after → view after = view machine

variable {view : Machine → σ}

theorem keeps_done (value : Machine → α) (step : Machine → Machine)
    (same : ∀ machine, view (step machine) = view machine) :
    Keeps view fun machine => .done (value machine) (step machine) := by
  intro machine after ended
  cases ended
  exact same machine

theorem keeps_unchanged (run : Run α)
    (unchanged : ∀ machine after, (run machine).machine? = some after → after = machine) : run.Keeps view := by
  intro machine after ended
  rw [unchanged machine after ended]

theorem keeps_bind (first : Run α) (next : α → Run β) (start : first.Keeps view)
    (goOn : ∀ value, (next value).Keeps view) : Keeps view (first >>= next) := by
  intro machine after ended
  have early := start machine
  change (Run.bind first next machine).machine? = some after at ended
  simp only [Run.bind] at ended
  cases ran : first machine with
  | done value between =>
      rw [ran] at ended early
      exact (goOn value between after ended).trans (early between rfl)
  | fault fault between =>
      rw [ran] at ended early
      exact early after ended
  | outOfFuel =>
      rw [ran] at ended
      cases ended

variable (unmoved : Unmoved view)

include unmoved

theorem keeps_inFrame (frame : FrameId) (body : Run α) (inside : body.Keeps view) :
    Keeps view (inFrame frame body) := by
  intro machine after ended
  have kept := inside { machine with frame := frame }
  simp only [inFrame] at ended
  cases ran : body { machine with frame := frame } with
  | done _ last | fault _ last =>
      rw [ran] at ended kept
      cases ended
      exact (unmoved.frame last machine.frame).trans ((kept last rfl).trans (unmoved.frame machine frame))
  | outOfFuel =>
      rw [ran] at ended
      cases ended

theorem keeps_deeper (body : Run α) (inside : body.Keeps view) : Keeps view (deeper body) := by
  intro machine after ended
  have kept := inside { machine with depth := machine.depth + 1 }
  simp only [deeper] at ended
  cases ran : body { machine with depth := machine.depth + 1 } with
  | done _ last | fault _ last =>
      rw [ran] at ended kept
      cases ended
      exact (unmoved.depth last _).trans ((kept last rfl).trans (unmoved.depth machine _))
  | outOfFuel =>
      rw [ran] at ended
      cases ended

theorem keeps_change (line : Int) (action : Heap → FrameId → Except Cause Heap) : Keeps view (change line action) := by
  intro machine after ended
  simp only [change] at ended
  cases changed : action machine.heap machine.frame with
  | ok heap =>
      rw [changed] at ended
      cases ended
      exact unmoved.heap machine heap
  | error cause =>
      rw [changed] at ended
      cases ended
      rfl

theorem keeps_write (line : Int) (text : String) : Keeps view (write line text) := by
  intro machine after ended
  have kept := unmoved.emit machine text
  simp only [write] at ended
  generalize machine.emit text = emitted at ended kept
  obtain ⟨refusal, last⟩ := emitted
  cases refusal with
  | none | some =>
      cases ended
      exact kept

theorem keeps_store (label : NodeId) (name : Token) (value : Value) : Keeps view (store label name value) := by
  intro machine after ended
  simp only [store] at ended
  cases recorded : machine.distances[label]? with
  | none =>
      rw [recorded] at ended
      exact keeps_change unmoved _ _ machine after ended
  | some distance =>
      rw [recorded] at ended
      exact keeps_change unmoved _ _ machine after ended

omit unmoved

theorem keeps_lift (result : Except Fault α) : Keeps view (lift result) := by
  apply keeps_unchanged
  intro machine after ended
  cases result with
  | ok | error =>
      cases ended
      rfl

theorem keeps_lookup (label : NodeId) (name : Token) : Keeps view (lookup label name) := by
  apply keeps_unchanged
  intro machine after ended
  simp only [lookup] at ended
  cases found : machine.valueOf label name.lexeme with
  | ok | error =>
      rw [found] at ended
      cases ended
      rfl

theorem keeps_checkCall (line : Int) (callee : Value) (count : Nat) : Keeps view (checkCall line callee count) := by
  apply keeps_unchanged
  intro machine after ended
  simp only [checkCall] at ended
  split at ended
  · cases ended
    rfl
  · split at ended
    · cases ended
      rfl
    · split at ended <;> cases ended <;> rfl

end Run

open Run

theorem keeps_compositional {σ : Type} {view : Machine → σ} (unmoved : Unmoved view) :
    Traced.Compositional fun run => run.erase.Keeps view where
  pure value := keeps_done (fun _ => value) id fun _ => rfl
  outOfFuel := by
    intro α machine after ended
    cases ended
  bind first next start goOn := by
    rw [Traced.erase_bind]
    exact keeps_bind _ _ start goOn
  mark _ _ := keeps_done (fun _ => ()) id fun _ => rfl
  inFrame frame body inside := keeps_inFrame unmoved frame body.erase inside
  call line callee count body inside := by
    rw [Traced.erase_bind]
    exact keeps_bind _ _ (keeps_checkCall line callee count) fun _ => keeps_deeper unmoved body.erase inside
  lift result := keeps_lift result
  change line action := keeps_change unmoved line action
  newFrame enclosing := keeps_done _ _ fun machine => unmoved.heap machine _
  newInner := keeps_done _ _ fun machine => unmoved.heap machine _
  write line text := keeps_write unmoved line text
  readClock := keeps_done _ _ fun machine => unmoved.clock machine _
  newClosure _ _ _ := keeps_done _ _ fun machine => unmoved.closures machine _
  lookup label name := keeps_lookup label name
  store label name value := keeps_store unmoved label name value

theorem eval_keeps {σ : Type} {view : Machine → σ} (unmoved : Unmoved view) (fuel : Nat) (expr : Expr NodeId) :
    (eval fuel expr).Keeps view := by
  rw [← (Traced.erases_within fuel).eval]
  exact (Traced.holds_within (keeps_compositional unmoved).printing fuel).eval expr

theorem runProgram_keeps {σ : Type} {view : Machine → σ} (unmoved : Unmoved view) (fuel : Nat)
    (program : List (Stmt NodeId)) : (runProgram fuel program).Keeps view := by
  rw [← Traced.runProgram_erases]
  exact Traced.runProgram_holds (keeps_compositional unmoved).printing fuel program

theorem reliable_of_policy (sink other : Sink) (same : other.policy = sink.policy) (reliable : sink.Reliable) :
    other.Reliable := by
  intro written offered bytes
  rw [same]
  exact reliable written offered bytes

end Treewalk
