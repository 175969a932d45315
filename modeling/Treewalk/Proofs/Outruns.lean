import Treewalk.Proofs.LexicalScoping

/-!
More fuel. A run says the same as one with less fuel, or the other says nothing. This goes through all rules of running,
so two manners that only differ in the counting loops agree wherever these do: the one has said what it says by the time
that the other has used five times as much fuel.
-/

set_option autoImplicit false

namespace Treewalk.Lexical

variable {α β : Type}

-- A run that may have had less fuel: it says nothing, or the same.
inductive Outcome.Below : Outcome α → Outcome α → Prop where
  | unknown (outcome : Outcome α) : Below .outOfFuel outcome
  | same (outcome : Outcome α) : Below outcome outcome

namespace Run

def Below (run more : Run α) : Prop := ∀ state, (run state).Below (more state)

theorem below_refl (run : Run α) : run.Below run := fun _ => .same _

theorem below_unfueled (more : Run α) : Below outOfFuel more := fun _ => .unknown _

theorem below_bind {run more : Run α} {next next' : α → Run β} (first : run.Below more)
    (later : ∀ value, (next value).Below (next' value)) : Below (run >>= next) (more >>= next') := by
  intro state
  change Outcome.Below (Run.bind run next state) (Run.bind more next' state)
  have early := first state
  unfold Run.bind
  generalize run state = outcome at early
  generalize more state = outcome' at early
  cases early with
  | unknown => exact .unknown _
  | same =>
      cases outcome with
      | done value after => exact later value after
      | fault | outOfFuel => exact .same _

theorem below_ite {condition : Prop} [Decidable condition] {yes no yes' no' : Run α} (ofYes : yes.Below yes')
    (ofNo : no.Below no') : Below (if condition then yes else no) (if condition then yes' else no') := by
  by_cases holds : condition
  · rw [if_pos holds, if_pos holds]
    exact ofYes
  · rw [if_neg holds, if_neg holds]
    exact ofNo

theorem below_deeper {run more : Run α} (inside : run.Below more) : Below (deeper run) (deeper more) := by
  intro state
  have ended := inside { state with depth := state.depth + 1 }
  unfold deeper
  generalize run { state with depth := state.depth + 1 } = outcome at ended
  generalize more { state with depth := state.depth + 1 } = outcome' at ended
  cases ended with
  | unknown => exact .unknown _
  | same => exact .same _

end Run

open Treewalk.Lexical.Run

-- How a statement ends, without the place behind it.
def ended (run : Run (Ending × Place)) : Run Ending := run >>= fun pair => pure pair.1

-- Goes on behind a statement that ended so, unless it returned.
def resume (next : Run Ending) : Ending → Run Ending
  | .normal => next
  | .returned value => return .returned value

def onward (run : Run (Ending × Place)) (next : Place → Run Ending) : Run Ending :=
  run >>= fun pair => resume (next pair.2) pair.1

section rules

variable (run : Run (Ending × Place))

theorem resume_below {next next' : Run Ending} (later : next.Below next') (ending : Ending) :
    (resume next ending).Below (resume next' ending) := by
  cases ending with
  | normal => exact later
  | returned value => exact below_refl _

theorem onward_below {run more : Run (Ending × Place)} {next next' : Place → Run Ending} (first : run.Below more)
    (later : ∀ after, (next after).Below (next' after)) : Below (onward run next) (onward more next') :=
  below_bind first fun pair => resume_below (later pair.2) pair.1

theorem ended_bind (first : Run α) (later : α → Run (Ending × Place)) :
    ended (first >>= later) = first >>= fun value => ended (later value) := (mirror_assoc _ _ _).symm

theorem ended_ite {condition : Prop} [Decidable condition] (yes no : Run (Ending × Place)) :
    ended (if condition then yes else no) = if condition then ended yes else ended no := by
  by_cases holds : condition
  · rw [if_pos holds, if_pos holds]
  · rw [if_neg holds, if_neg holds]

-- The place behind a statement is given up.
theorem ended_again (place : Place) : ended (run >>= fun pair => pure (pair.1, place)) = ended run := ended_bind run _

-- Where the place behind a statement does not matter, only how the statement ends does.
theorem onward_ended (next : Run Ending) : onward run (fun _ => next) = ended run >>= resume next := by
  rw [ended, ← mirror_assoc]
  rfl

theorem onward_normal : onward run (fun _ => pure .normal) = ended run := by
  refine congrArg (run >>= ·) (funext fun pair => ?_)
  obtain ⟨ending, after⟩ := pair
  cases ending <;> rfl

theorem onward_resume (middle next : Run Ending) :
    (onward run (fun _ => middle) >>= resume next) = onward run fun _ => middle >>= resume next := by
  rw [onward, ← mirror_assoc]
  refine congrArg (run >>= ·) (funext fun pair => ?_)
  obtain ⟨ending, after⟩ := pair
  cases ending <;> rfl

theorem bind_pure (body : Run α) : (body >>= pure) = body := by
  funext state
  change Run.bind body Run.pure state = body state
  unfold Run.bind
  cases body state <;> rfl

end rules

namespace Manner

variable (manner : Manner) (place : Place) (fuel : Nat)

theorem execAll_nil : manner.execAll place (fuel + 1) [] = pure .normal := by
  rw [execAll]

theorem execAll_cons (first : Stmt Unit) (rest : List (Stmt Unit)) :
    manner.execAll place (fuel + 1) (first :: rest) =
      onward (manner.exec place fuel first) fun after => manner.execAll after fuel rest := by
  rw [execAll]
  rfl

theorem execLoop_succ (condition : Expr Unit) (body : Stmt Unit) :
    manner.execLoop place (fuel + 1) condition body = (manner.eval place.names none fuel condition >>= fun test =>
      if test.toBool then onward (manner.exec place fuel body) fun _ => manner.execLoop place fuel condition body
      else pure .normal) := by
  rw [execLoop]
  rfl

theorem execRounds_succ (loop : Counting) :
    manner.execRounds place (fuel + 1) loop =
      (clauseOr (.boolean true) (manner.eval place.names none fuel) loop.condition >>= fun test =>
        if test.toBool then onward (manner.exec (.inner place.names) fuel loop.body) fun _ =>
          clauseOr .nil (manner.eval place.names none fuel) loop.step >>= fun _ => manner.execRounds place fuel loop
        else pure .normal) := by
  rw [execRounds]
  rfl

-- A statement that runs as a counting loop.

theorem exec_counting (stmt : Stmt Unit) (loop : Counting) (counts : manner.loops stmt = some loop)
    (absent : loop.start = none) :
    manner.exec place (fuel + 1) stmt =
      manner.execRounds (.inner place.names) fuel loop >>= fun ending => pure (ending, place) := by
  rw [exec.eq_def]
  simp only [counts, absent]

theorem exec_counting_start (stmt start : Stmt Unit) (loop : Counting) (counts : manner.loops stmt = some loop)
    (present : loop.start = some start) :
    manner.exec place (fuel + 1) stmt = (manner.exec (.inner place.names) fuel start >>= fun pair =>
      manner.execRounds pair.2 fuel loop >>= fun ending => pure (ending, place)) := by
  rw [exec.eq_def]
  simp only [counts, present]

end Manner

-- Two manners, each with its fuel: what the first says the second says as well.
structure BelowWithin (manner other : Manner) (fuel more : Nat) : Prop where
  eval : ∀ names waiting expr, (manner.eval names waiting fuel expr).Below (other.eval names waiting more expr)
  evalAll : ∀ names waiting exprs,
    (manner.evalAll names waiting fuel exprs).Below (other.evalAll names waiting more exprs)
  invoke : ∀ callee arguments, (manner.invoke fuel callee arguments).Below (other.invoke more callee arguments)
  exec : ∀ place stmt, (manner.exec place fuel stmt).Below (other.exec place more stmt)
  execAll : ∀ place stmts, (manner.execAll place fuel stmts).Below (other.execAll place more stmts)
  execLoop : ∀ place condition body,
    (manner.execLoop place fuel condition body).Below (other.execLoop place more condition body)

theorem below_within_unfueled (manner other : Manner) (more : Nat) : BelowWithin manner other 0 more := by
  constructor
  · intros
    rw [Manner.eval_unfueled]
    exact below_unfueled _
  · intros
    rw [Manner.evalAll_unfueled]
    exact below_unfueled _
  · intros
    rw [Manner.invoke_unfueled]
    exact below_unfueled _
  · intros
    rw [Manner.exec_unfueled]
    exact below_unfueled _
  · intros
    rw [Manner.execAll_unfueled]
    exact below_unfueled _
  · intros
    rw [Manner.execLoop_unfueled]
    exact below_unfueled _

-- One step more of both.

section steps

variable {manner other : Manner} {fuel more : Nat} (ih : BelowWithin manner other fuel more)

include ih

theorem eval_below (refuses : manner.refuses = other.refuses) (names : Names) (waiting : Option String)
    (expr : Expr Unit) :
    (manner.eval names waiting (fuel + 1) expr).Below (other.eval names waiting (more + 1) expr) := by
  have stores (name : Token) (value : Value) :
      manner.store waiting names name value = other.store waiting names name value := by
    unfold Manner.store
    rw [refuses]
  cases expr with
  | literal value =>
      simp only [Manner.eval]
      exact below_refl _
  | group inner =>
      simp only [Manner.eval]
      exact ih.eval names waiting inner
  | unary operator operand =>
      simp only [Manner.eval]
      exact below_bind (ih.eval names waiting operand) fun _ => below_refl _
  | binary left operator right =>
      simp only [Manner.eval]
      refine below_bind (ih.eval names waiting left) fun _ => ?_
      exact below_bind (ih.eval names waiting right) fun _ => below_refl _
  | logical left operator right =>
      simp only [Manner.eval]
      refine below_bind (ih.eval names waiting left) fun _ => ?_
      exact below_ite (below_refl _) (ih.eval names waiting right)
  | ternary condition yes no =>
      simp only [Manner.eval]
      refine below_bind (ih.eval names waiting condition) fun _ => ?_
      exact below_ite (ih.eval names waiting yes) (ih.eval names waiting no)
  | comma first second =>
      simp only [Manner.eval]
      exact below_bind (ih.eval names waiting first) fun _ => ih.eval names waiting second
  | var label name =>
      simp only [Manner.eval]
      exact below_refl _
  | assign label name value =>
      simp only [Manner.eval, stores]
      exact below_bind (ih.eval names waiting value) fun _ => below_refl _
  | call callee close arguments =>
      simp only [Manner.eval]
      refine below_bind (ih.eval names waiting callee) fun target => ?_
      refine below_bind (ih.evalAll names waiting arguments) fun values => ?_
      exact below_bind (below_refl _) fun _ => below_deeper (ih.invoke target values)

theorem evalAll_below (names : Names) (waiting : Option String) (exprs : List (Expr Unit)) :
    (manner.evalAll names waiting (fuel + 1) exprs).Below (other.evalAll names waiting (more + 1) exprs) := by
  cases exprs with
  | nil =>
      simp only [Manner.evalAll]
      exact below_refl _
  | cons first rest =>
      simp only [Manner.evalAll]
      refine below_bind (ih.eval names waiting first) fun _ => ?_
      exact below_bind (ih.evalAll names waiting rest) fun _ => below_refl _

theorem invoke_below (callee : Value) (arguments : List Value) :
    (manner.invoke (fuel + 1) callee arguments).Below (other.invoke (more + 1) callee arguments) := by
  cases callee with
  | datum | clock =>
      simp only [Manner.invoke]
      exact below_refl _
  | closure closure =>
      simp only [Manner.invoke]
      refine below_bind (below_refl _) fun names => ?_
      exact below_bind (ih.execAll (.inner names) closure.body) fun _ => below_refl _

-- A statement that is no counting loop in either manner.
theorem exec_below (place : Place) (stmt : Stmt Unit) (plain : manner.loops stmt = none)
    (plain' : other.loops stmt = none) :
    (manner.exec place (fuel + 1) stmt).Below (other.exec place (more + 1) stmt) := by
  cases stmt with
  | ret keyword value =>
      cases value with
      | none =>
          simp only [Manner.exec, plain, plain']
          exact below_refl _
      | some value =>
          simp only [Manner.exec, plain, plain']
          exact below_bind (ih.eval place.names none value) fun _ => below_refl _
  | print keyword value =>
      simp only [Manner.exec, plain, plain']
      exact below_bind (ih.eval place.names none value) fun _ => below_refl _
  | expr value =>
      simp only [Manner.exec, plain, plain']
      exact below_bind (ih.eval place.names none value) fun _ => below_refl _
  | var name value =>
      cases value with
      | none =>
          simp only [Manner.exec, plain, plain']
          exact below_refl _
      | some value =>
          simp only [Manner.exec, plain, plain']
          exact below_bind (ih.eval place.names (place.waiting name) value) fun _ => below_refl _
  | block body =>
      simp only [Manner.exec, plain, plain']
      exact below_bind (ih.execAll (.inner place.names) body) fun _ => below_refl _
  | func name params body =>
      simp only [Manner.exec, plain, plain']
      exact below_refl _
  | branch condition yes no =>
      cases no with
      | none =>
          simp only [Manner.exec, plain, plain']
          refine below_bind (ih.eval place.names none condition) fun _ => ?_
          exact below_ite (below_bind (ih.exec place yes) fun _ => below_refl _) (below_refl _)
      | some no =>
          simp only [Manner.exec, plain, plain']
          refine below_bind (ih.eval place.names none condition) fun _ => ?_
          exact below_ite (below_bind (ih.exec place yes) fun _ => below_refl _)
            (below_bind (ih.exec place no) fun _ => below_refl _)
  | loop condition body =>
      simp only [Manner.exec, plain, plain']
      exact below_bind (ih.execLoop place condition body) fun _ => below_refl _

theorem execAll_below (place : Place) (stmts : List (Stmt Unit)) :
    (manner.execAll place (fuel + 1) stmts).Below (other.execAll place (more + 1) stmts) := by
  cases stmts with
  | nil =>
      rw [Manner.execAll_nil, Manner.execAll_nil]
      exact below_refl _
  | cons first rest =>
      rw [Manner.execAll_cons, Manner.execAll_cons]
      exact onward_below (ih.exec place first) fun after => ih.execAll after rest

theorem execLoop_below (place : Place) (condition : Expr Unit) (body : Stmt Unit) :
    (manner.execLoop place (fuel + 1) condition body).Below (other.execLoop place (more + 1) condition body) := by
  rw [Manner.execLoop_succ, Manner.execLoop_succ]
  refine below_bind (ih.eval place.names none condition) fun _ => ?_
  exact below_ite (onward_below (ih.exec place body) fun _ => ih.execLoop place condition body) (below_refl _)

end steps

-- Five times the fuel is enough for whatever a round has to do more as a tree.
def Outruns (other manner : Manner) (fuel : Nat) : Prop := ∀ more, 5 * fuel ≤ more → BelowWithin manner other fuel more

-- All that two manners may differ in are the counting loops, so what holds of these with the fuel that there is, given
-- all runs with less, holds of everything.
theorem outruns (manner other : Manner) (refuses : manner.refuses = other.refuses)
    (counting : ∀ fuel, (∀ less, less < fuel → Outruns other manner less) → ∀ more, 5 * fuel ≤ more → ∀ place stmt,
      manner.loops stmt ≠ none ∨ other.loops stmt ≠ none →
      (manner.exec place fuel stmt).Below (other.exec place more stmt)) :
    ∀ fuel, Outruns other manner fuel := by
  intro fuel
  induction fuel using Nat.strongRecOn with
  | ind fuel ih =>
      intro more enough
      have counts := counting fuel ih more enough
      cases fuel with
      | zero => exact below_within_unfueled manner other more
      | succ fuel =>
          obtain ⟨more, rfl⟩ : ∃ fewer, more = fewer + 1 := ⟨more - 1, by omega⟩
          have within := ih fuel (Nat.lt_succ_self fuel) more (by omega)
          refine ⟨eval_below within refuses, evalAll_below within, invoke_below within, ?_, execAll_below within,
            execLoop_below within⟩
          intro place stmt
          by_cases plain : manner.loops stmt = none ∧ other.loops stmt = none
          · exact exec_below within place stmt plain.1 plain.2
          · exact counts place stmt (Classical.not_and_iff_not_or_not.mp plain)

end Treewalk.Lexical
