import Treewalk.Proofs.History
import Treewalk.Proofs.JoinedPrograms
import Treewalk.Session

/-!
Sessions and the machines in them. Whatever steps a session took, programs without misuse ran on its machine one after
another, with expressions evaluated, texts shown and rejected programs analysed in between.
-/

set_option autoImplicit false

namespace Treewalk

theorem analyse_errors (machine : Machine) (program : List (Stmt Unit)) :
    ((machine.load program).2.analyse (machine.load program).1).1 = misuses program := by
  change misuses (Stmt.numberedAll machine.labels program).1 = misuses program
  rw [← misuses_strip, Stmt.stripAll_numbered]

-- A machine on which programs have run, whichever they were.
def Machine.Used (machine : Machine) : Prop := ∃ history, machine.Ran history

-- What a session may do to its machine, and what holds of the machine behind each if it held before.
structure Machine.Lasts (holds : Machine → Prop) : Prop where
  program : ∀ (machine after : Machine) (fuel : Nat) (tokens : List Token), holds machine →
    (readProgram tokens).errors = [] → misuses (readProgram tokens).result = [] →
    (Machine.interpret fuel (readProgram tokens).result machine).machine? = some after → holds after
  expression : ∀ (machine after : Machine) (fuel : Nat) (expr : Expr Unit), holds machine →
    (eval fuel (machine.loadExpr expr).1 (machine.loadExpr expr).2).machine? = some after → holds after
  analysed : ∀ (machine : Machine) (program : List (Stmt Unit)), holds machine → holds (machine.prepare program).2
  shown : ∀ (machine : Machine) (text : String), holds machine → holds (machine.emit text).2

theorem used_lasts : Machine.Lasts Machine.Used where
  program _ _ fuel tokens := fun ⟨history, ran⟩ read resolved ended =>
    ⟨_, .program history _ _ fuel tokens ran read resolved ended⟩
  expression _ _ fuel expr := fun ⟨history, ran⟩ ended => ⟨history, .expression history _ _ fuel expr ran ended⟩
  analysed _ program := fun ⟨history, ran⟩ => ⟨history, .analysed history _ program ran⟩
  shown _ text := fun ⟨history, ran⟩ => ⟨history, .shown history _ text ran⟩

namespace Session

inductive Reachable : Session → Prop where
  | start (sink : Sink) (clock : Clock) : Reachable (Session.start sink clock)
  | step (session after : Session) (fuel : Nat) (kind : Step) (source : String) (earlier : Reachable session)
      (stepped : session.step fuel kind source = some after) : Reachable after

-- The session behind a run of a program.
def conclude (session : Session) : Outcome Unit → Option Session
  | .done _ machine => some { session with machine := machine }
  | .fault fault machine => some ({ session with machine := machine }.report fault)
  | .outOfFuel => none

theorem execute_resolved (fuel : Nat) (session : Session) (program : List (Stmt Unit)) (clean : misuses program = []) :
    session.execute fuel program = session.conclude (Machine.interpret fuel program session.machine) := by
  unfold execute
  dsimp only
  rw [analyse_errors, clean]
  rfl

theorem reject_machine (session : Session) (complaints : List String) :
    (session.reject complaints).machine = session.machine := by
  unfold reject
  split <;> rfl

theorem execute_misused (fuel : Nat) (session : Session) (program : List (Stmt Unit)) (misused : misuses program ≠ []) :
    session.execute fuel program = some ({ session with machine := (session.machine.prepare program).2 }.reject
      ((misuses program).map ScopeError.display)) := by
  unfold execute
  dsimp only
  rw [analyse_errors, if_pos (by simpa using misused)]
  rfl

-- What a step does, by the stage at which it stops.

section stages

variable (fuel : Nat) (session : Session) (source : String) (tokens : List Token)

theorem step_unscanned (kind : Step) (mistaken : (scan source).errors ≠ []) :
    session.step fuel kind source = some (session.reset.rejectScan (scan source).errors) := by
  unfold step
  exact if_pos (by simpa using mistaken)

theorem step_run (scanned : (scan source).errors = []) :
    session.step fuel .run source = session.reset.runTokens fuel (scan source).tokens := by
  unfold step
  exact if_neg (by simp [scanned])

theorem step_line (scanned : (scan source).errors = []) :
    session.step fuel .line source = session.reset.runLineTokens fuel (scan source).tokens := by
  unfold step
  exact if_neg (by simp [scanned])

theorem step_tree (scanned : (scan source).errors = []) :
    session.step fuel .tree source = some (session.reset.showTrees (scan source).tokens) := by
  unfold step
  exact if_neg (by simp [scanned])

theorem runTokens_unread (mistaken : (readProgram tokens).errors ≠ []) :
    session.runTokens fuel tokens = some (session.rejectParse (readProgram tokens).errors) := by
  unfold runTokens
  exact if_neg (by simpa using mistaken)

theorem runTokens_read (read : (readProgram tokens).errors = []) :
    session.runTokens fuel tokens = session.execute fuel (readProgram tokens).result := by
  unfold runTokens
  exact if_pos (by simp [read])

theorem runLineTokens_read (read : (readProgram tokens).errors = []) :
    session.runLineTokens fuel tokens = session.runTokens fuel tokens := by
  rw [runTokens_read fuel session tokens read]
  unfold runLineTokens
  exact if_pos (by simp [read])

-- A line that is no program may be an expression.
theorem runLineTokens_unread (mistaken : (readProgram tokens).errors ≠ []) :
    session.runLineTokens fuel tokens =
      (readExpression tokens).result.elim (session.runTokens fuel tokens) (session.evaluate fuel) := by
  rw [runTokens_unread fuel session tokens mistaken]
  unfold runLineTokens
  dsimp only
  rw [if_neg (by simpa using mistaken)]
  cases (readExpression tokens).result <;> rfl

end stages

theorem conclude_machine (session after : Session) (outcome : Outcome Unit)
    (concluded : session.conclude outcome = some after) : outcome.machine? = some after.machine := by
  cases outcome with
  | done value machine =>
      cases concluded
      rfl
  | fault fault machine =>
      cases concluded
      rfl
  | outOfFuel => cases concluded

-- Every step on a text leaves a machine of which such a property holds, if it held before.

section lasting

variable {holds : Machine → Prop} (lasts : Machine.Lasts holds) (fuel : Nat) (session after : Session)
  (before : holds session.machine)

include lasts before

theorem execute_lasts (tokens : List Token) (read : (readProgram tokens).errors = [])
    (executed : session.execute fuel (readProgram tokens).result = some after) : holds after.machine := by
  by_cases resolved : misuses (readProgram tokens).result = []
  · rw [execute_resolved fuel session _ resolved] at executed
    exact lasts.program _ _ fuel tokens before read resolved (conclude_machine session after _ executed)
  · rw [execute_misused fuel session _ resolved] at executed
    cases executed
    rw [reject_machine]
    exact lasts.analysed _ _ before

omit before in
theorem echo_lasts (lines : List String) : ∀ session : Session, holds session.machine →
    holds (session.echo lines).machine := by
  induction lines with
  | nil => exact fun _ before => before
  | cons line rest ih =>
      intro session before
      have shown := lasts.shown session.machine (line ++ "\n") before
      unfold echo
      cases emitted : session.machine.emit (line ++ "\n") with
      | mk refusal machine =>
          rw [emitted] at shown
          cases refusal with
          | none => exact ih _ shown
          | some reason => exact shown

theorem evaluate_lasts (expr : Expr Unit) (evaluated : session.evaluate fuel expr = some after) :
    holds after.machine := by
  have ended (machine : Machine) := lasts.expression session.machine machine fuel expr before
  unfold evaluate at evaluated
  dsimp only at evaluated
  cases outcome : eval fuel (session.machine.loadExpr expr).1 (session.machine.loadExpr expr).2 with
  | done value machine =>
      rw [outcome] at evaluated
      cases evaluated
      exact echo_lasts lasts _ _ (ended machine (by rw [outcome]; rfl))
  | fault fault machine =>
      rw [outcome] at evaluated
      cases evaluated
      exact ended machine (by rw [outcome]; rfl)
  | outOfFuel =>
      rw [outcome] at evaluated
      cases evaluated

theorem runTokens_lasts (tokens : List Token) (ran : session.runTokens fuel tokens = some after) :
    holds after.machine := by
  by_cases read : (readProgram tokens).errors = []
  · rw [runTokens_read fuel session tokens read] at ran
    exact execute_lasts lasts fuel session after before tokens read ran
  · rw [runTokens_unread fuel session tokens read] at ran
    cases ran
    rw [rejectParse, reject_machine]
    exact before

theorem runLineTokens_lasts (tokens : List Token) (ran : session.runLineTokens fuel tokens = some after) :
    holds after.machine := by
  by_cases read : (readProgram tokens).errors = []
  · rw [runLineTokens_read fuel session tokens read] at ran
    exact runTokens_lasts lasts fuel session after before tokens ran
  · rw [runLineTokens_unread fuel session tokens read] at ran
    cases expression : (readExpression tokens).result with
    | some expr =>
        rw [expression] at ran
        exact evaluate_lasts lasts fuel session after before expr ran
    | none =>
        rw [expression] at ran
        exact runTokens_lasts lasts fuel session after before tokens ran

theorem step_lasts (kind : Step) (source : String) (stepped : session.step fuel kind source = some after) :
    holds after.machine := by
  by_cases scanned : (scan source).errors = []
  · cases kind with
    | run =>
        rw [step_run fuel session source scanned] at stepped
        exact runTokens_lasts lasts fuel session.reset after before _ stepped
    | line =>
        rw [step_line fuel session source scanned] at stepped
        exact runLineTokens_lasts lasts fuel session.reset after before _ stepped
    | tree =>
        rw [step_tree fuel session source scanned] at stepped
        cases stepped
        refine echo_lasts lasts _ _ ?_
        rw [rejectParse, reject_machine]
        exact before
  · rw [step_unscanned fuel session source kind scanned] at stepped
    cases stepped
    rw [rejectScan, reject_machine]
    exact before

end lasting

theorem used_of_reachable (session : Session) (reached : session.Reachable) : session.machine.Used := by
  induction reached with
  | start sink clock => exact ⟨[], .start defaultLimit sink clock⟩
  | step session after fuel kind source _ stepped used =>
      exact step_lasts used_lasts fuel session after used kind source stepped

-- A text without a mistake is run.
theorem step_accepted (fuel : Nat) (session : Session) (source : String) (clean : AcceptedText source) :
    session.step fuel .run source =
      session.reset.conclude (Machine.interpret fuel (programOf source) session.machine) := by
  rw [step_run fuel session source clean.scanned, runTokens_read fuel session.reset _ clean.read]
  exact execute_resolved fuel session.reset (programOf source) clean.resolved

end Session

end Treewalk
