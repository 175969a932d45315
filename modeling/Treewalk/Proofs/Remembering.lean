import Treewalk.Proofs.Sessions

/-!
What a machine knows about uses of names lasts. Nothing that runs gives out numbers or records distances, and what is loaded
and analysed later has later numbers. So a session never changes the distance of a number it has given out.
-/

set_option autoImplicit false

namespace Treewalk

structure Machine.Remembers (machine after : Machine) : Prop where
  distances : after.distances = machine.distances
  labels : after.labels = machine.labels

namespace Run

variable {α β : Type}

def Remembers (run : Run α) : Prop := ∀ machine after, (run machine).machine? = some after → machine.Remembers after

theorem remembers_bind (first : Run α) (next : α → Run β) (start : first.Remembers)
    (goOn : ∀ value, (next value).Remembers) : Remembers (first >>= next) := by
  intro machine after ended
  change (Run.bind first next machine).machine? = some after at ended
  unfold Run.bind at ended
  cases ran : first machine with
  | done value between =>
      rw [ran] at ended
      have early := start machine between (by rw [ran]; rfl)
      have late := goOn value between after ended
      exact ⟨late.distances.trans early.distances, late.labels.trans early.labels⟩
  | fault fault between =>
      rw [ran] at ended
      exact start machine after (by rw [ran]; exact ended)
  | outOfFuel =>
      rw [ran] at ended
      cases ended

theorem remembers_inFrame (frame : FrameId) (body : Run α) (inside : body.Remembers) :
    Remembers (inFrame frame body) := by
  intro machine after ended
  unfold inFrame at ended
  dsimp only at ended
  cases ran : body { machine with frame := frame } with
  | done _ last | fault _ last =>
      rw [ran] at ended
      cases ended
      have kept := inside { machine with frame := frame } last (by rw [ran]; rfl)
      exact ⟨kept.distances, kept.labels⟩
  | outOfFuel =>
      rw [ran] at ended
      cases ended

theorem remembers_deeper (body : Run α) (inside : body.Remembers) : Remembers (deeper body) := by
  intro machine after ended
  unfold deeper at ended
  cases ran : body { machine with depth := machine.depth + 1 } with
  | done _ last | fault _ last =>
      rw [ran] at ended
      cases ended
      have kept := inside { machine with depth := machine.depth + 1 } last (by rw [ran]; rfl)
      exact ⟨kept.distances, kept.labels⟩
  | outOfFuel =>
      rw [ran] at ended
      cases ended

theorem remembers_change (line : Int) (action : Heap → FrameId → Except Cause Heap) : Remembers (change line action) := by
  intro machine after ended
  unfold change at ended
  cases acted : action machine.heap machine.frame <;>
    (rw [acted] at ended; cases ended; exact ⟨rfl, rfl⟩)

theorem remembers_write (line : Int) (text : String) : Remembers (write line text) := by
  intro machine after ended
  unfold write Machine.emit at ended
  cases offered : machine.sink.offer text.toUTF8 with
  | mk refusal sink =>
      rw [offered] at ended
      cases refusal <;> (cases ended; exact ⟨rfl, rfl⟩)

theorem remembers_lookup (label : NodeId) (name : Token) : Remembers (lookup label name) := by
  intro machine after ended
  unfold lookup at ended
  cases found : machine.valueOf label name.lexeme <;>
    (rw [found] at ended; cases ended; exact ⟨rfl, rfl⟩)

theorem remembers_store (label : NodeId) (name : Token) (value : Value) : Remembers (store label name value) := by
  intro machine after ended
  unfold store at ended
  cases found : machine.distances[label]? <;>
    (rw [found] at ended; exact remembers_change _ _ machine after ended)

theorem remembers_checkCall (line : Int) (callee : Value) (count : Nat) : Remembers (checkCall line callee count) := by
  intro machine after ended
  have checked := checkCall_checked line callee count machine
  generalize checkCall line callee count machine = outcome at checked ended
  cases checked with
  | passed room | refused cause =>
      cases ended
      exact ⟨rfl, rfl⟩

theorem remembers_lift (result : Except Fault α) : Remembers (lift result) := by
  intro machine after ended
  cases result <;> (cases ended; exact ⟨rfl, rfl⟩)

end Run

open Run

theorem remembers_compositional : Traced.Compositional fun run => run.erase.Remembers where
  pure _ := remembers_lift (.ok _)
  outOfFuel := fun _ _ ended => nomatch ended
  bind first next start goOn := by
    rw [Traced.erase_bind]
    exact remembers_bind _ _ start goOn
  mark _ _ := remembers_lift (.ok ())
  inFrame frame body inside := remembers_inFrame frame body.erase inside
  call line callee count body inside := by
    rw [Traced.erase_bind]
    exact remembers_bind _ _ (remembers_checkCall line callee count) fun _ => remembers_deeper body.erase inside
  lift result := remembers_lift result
  change line action := remembers_change line action
  newFrame _ := by
    rintro machine after ⟨⟩
    exact ⟨rfl, rfl⟩
  newInner := by
    rintro machine after ⟨⟩
    exact ⟨rfl, rfl⟩
  write line text := remembers_write line text
  readClock := by
    rintro machine after ⟨⟩
    exact ⟨rfl, rfl⟩
  newClosure _ _ _ := by
    rintro machine after ⟨⟩
    exact ⟨rfl, rfl⟩
  lookup label name := remembers_lookup label name
  store label name value := remembers_store label name value

theorem eval_remembers (fuel : Nat) (expr : Expr NodeId) : Remembers (eval fuel expr) := by
  rw [← (Traced.erases_within fuel).eval]
  exact (Traced.holds_within remembers_compositional.printing fuel).eval expr

theorem runProgram_remembers (fuel : Nat) (program : List (Stmt NodeId)) : Remembers (runProgram fuel program) := by
  rw [← Traced.runProgram_erases]
  exact Traced.runProgram_holds remembers_compositional.printing fuel program

-- The machine has given out no fewer numbers, and knows the same about those it had given out before.
structure Machine.Keeps (machine after : Machine) : Prop where
  more : (machine.labels : Nat) ≤ after.labels
  kept : ∀ label : Nat, label < machine.labels → after.distances[label]? = machine.distances[label]?

theorem keeps_trans (machine between after : Machine) (early : machine.Keeps between) (late : between.Keeps after) :
    machine.Keeps after :=
  ⟨Nat.le_trans early.more late.more, fun label below =>
    (late.kept label (Nat.lt_of_lt_of_le below early.more)).trans (early.kept label below)⟩

theorem keeps_of_remembers (machine after : Machine) (remembers : machine.Remembers after) : machine.Keeps after :=
  ⟨Nat.le_of_eq remembers.labels.symm, fun _ _ => by rw [remembers.distances]⟩

theorem prepare_keeps (machine : Machine) (program : List (Stmt Unit)) : machine.Keeps (machine.prepare program).2 := by
  have numbers : Numbered machine.labels (machine.prepare program).2.labels _ :=
    Stmt.numberedAll_labels program machine.labels false []
  refine ⟨numbers.ordered, fun label below => ?_⟩
  rw [prepare_distances]
  apply notes_elsewhere
  intro among
  exact Nat.not_lt.mpr (numbers.inside label among).1 below

theorem loadExpr_keeps (machine : Machine) (expr : Expr Unit) : machine.Keeps (machine.loadExpr expr).2 :=
  ⟨(Expr.numbered_labels expr machine.labels).ordered, fun _ _ => rfl⟩

theorem keeps_lasts (machine : Machine) : Machine.Lasts machine.Keeps where
  program before after fuel tokens kept _ _ ended := by
    have remembers := runProgram_remembers fuel _ _ after ended
    exact keeps_trans _ _ _ (keeps_trans _ _ _ kept (prepare_keeps before _)) (keeps_of_remembers _ _ remembers)
  expression before after fuel expr kept ended := by
    have remembers := eval_remembers fuel _ _ after ended
    exact keeps_trans _ _ _ (keeps_trans _ _ _ kept (loadExpr_keeps before expr)) (keeps_of_remembers _ _ remembers)
  analysed before program kept := keeps_trans _ _ _ kept (prepare_keeps before program)
  shown before text kept := keeps_trans _ _ _ kept (keeps_of_remembers _ _ ⟨rfl, rfl⟩)

-- The session behind some steps. There is none behind a step that runs out of fuel.
def Session.steps (fuel : Nat) : List (Step × String) → Session → Option Session
  | [], session => some session
  | (kind, source) :: rest, session => (session.step fuel kind source).bind (Session.steps fuel rest)

theorem steps_keep (fuel : Nat) (all : List (Step × String)) : ∀ session after : Session,
    session.steps fuel all = some after → session.machine.Keeps after.machine := by
  induction all with
  | nil =>
      rintro session after ⟨⟩
      exact keeps_of_remembers _ _ ⟨rfl, rfl⟩
  | cons step rest ih =>
      intro session after stepped
      obtain ⟨between, first, later⟩ := Option.bind_eq_some_iff.mp stepped
      have itself : session.machine.Keeps session.machine := keeps_of_remembers _ _ ⟨rfl, rfl⟩
      have early := Session.step_lasts (keeps_lasts session.machine) fuel session between itself step.1 step.2 first
      exact keeps_trans _ _ _ early (ih between after later)

end Treewalk
