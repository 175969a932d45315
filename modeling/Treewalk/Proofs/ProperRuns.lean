import Treewalk.Proofs.History
import Treewalk.Proofs.ProperTrees
import Treewalk.Proofs.RunningCode

/-!
Runs of what was read. Trees that are read are proper, and so are the bodies of functions that earlier runs have left in
the frames. So no run comes to an operator that is none, for which the answer would be nil.
-/

set_option autoImplicit false

namespace Treewalk

variable {ν : Type}

theorem Expr.stripAll_map (exprs : List (Expr ν)) : Expr.stripAll exprs = exprs.map Expr.strip := by
  induction exprs with
  | nil => rfl
  | cons first rest ih => rw [Expr.stripAll, ih, List.map_cons]

theorem Stmt.stripAll_map (stmts : List (Stmt ν)) : Stmt.stripAll stmts = stmts.map Stmt.strip := by
  induction stmts with
  | nil => rfl
  | cons first rest ih => rw [Stmt.stripAll, ih, List.map_cons]

theorem Stmt.properAll_strip (stmts : List (Stmt ν)) :
    Stmt.ProperAll (Stmt.stripAll stmts) ↔ ∀ stmt ∈ stmts, stmt.strip.Proper := by
  rw [Stmt.stripAll_map, Stmt.properAll_iff, List.forall_mem_map]

-- Code that runs is proper if it is without its numbers, and then its parts are.

def Expr.ProperCode (expr : Expr NodeId) : Prop := expr.strip.Proper

def Stmt.ProperCode (stmt : Stmt NodeId) : Prop := stmt.strip.Proper

def Value.ProperCode : Value → Prop
  | .closure function => ∀ stmt ∈ function.body, stmt.ProperCode
  | .datum _ => True
  | .clock => True

theorem proper_hereditary : Hereditary Expr.ProperCode Stmt.ProperCode Value.ProperCode fun _ => True where
  group _ proper := proper
  unary _ _ proper := ⟨fun _ _ => trivial, proper.2⟩
  binary _ _ _ proper := ⟨fun _ _ => trivial, proper.2⟩
  logical _ _ _ proper := proper.2
  ternary _ _ _ proper := proper
  comma _ _ proper := proper
  var _ _ _ := fun _ _ => trivial
  assign _ _ _ proper := ⟨fun _ _ => trivial, proper⟩
  call _ _ arguments proper := by
    obtain ⟨ofCallee, ofArguments⟩ := proper
    rw [Expr.stripAll_map, Expr.properAll_iff, List.forall_mem_map] at ofArguments
    exact ⟨ofCallee, fun _ _ => trivial, ofArguments⟩
  ret _ _ proper := fun expr found => proper expr.strip (Option.mem_map_of_mem _ found)
  print _ _ proper := ⟨fun _ _ => trivial, proper⟩
  expr _ proper := proper
  defines _ _ proper := ⟨fun _ _ => trivial, fun expr found => proper expr.strip (Option.mem_map_of_mem _ found)⟩
  block body proper := (Stmt.properAll_strip body).mp proper
  func _ _ body proper := ⟨fun _ _ => trivial, fun _ _ => (Stmt.properAll_strip body).mp proper⟩
  branch _ _ no proper := by
    cases no with
    | none => exact ⟨proper.1, proper.2.1, by simp⟩
    | some no => exact ⟨proper.1, proper.2.1.1, fun _ found => Option.some.inj found ▸ proper.2.2.1⟩
  loop _ _ proper := ⟨proper.1, proper.2.1⟩
  datum _ := trivial
  clock := trivial
  closure _ proper := ⟨fun _ _ _ _ => trivial, proper⟩

-- Machines on which nothing has run but what was read, with mistakes or without. Apart from the frames, anything about
-- the machine may change between the runs.
inductive Machine.Fed : Machine → Prop where
  | start (limit : Nat) (sink : Sink) (clock : Clock) : Fed (Machine.start limit sink clock)
  | program (machine after : Machine) (fuel : Nat) (tokens : List Token) (earlier : Fed machine)
      (ended : (Machine.interpret fuel (readProgram tokens).result machine).machine? = some after) : Fed after
  | expression (machine after : Machine) (fuel : Nat) (tokens : List Token) (tree : Expr Unit) (earlier : Fed machine)
      (read : (readExpression tokens).result = some tree)
      (ended : (eval fuel (machine.loadExpr tree).1 (machine.loadExpr tree).2).machine? = some after) : Fed after
  | altered (machine after : Machine) (earlier : Fed machine) (same : after.heap = machine.heap) : Fed after

-- An operator is applied that could answer nil, as only one of a wrong kind does.
def Moment.FallsBack : Moment → Prop
  | .evaluates (.unary operator _) _ => ∃ operand : Value, applyUnary operator operand = .ok .nil
  | .evaluates (.binary _ operator _) _ => ∃ left right : Value, applyBinary operator left right = .ok .nil
  | _ => False

theorem meets_not_fallsBack (moment : Moment)
    (meets : moment.Meets Expr.ProperCode Stmt.ProperCode Value.ProperCode) : ¬ moment.FallsBack := by
  cases moment with
  | evaluates expr machine =>
      cases expr with
      | unary operator operand =>
          rintro ⟨value, answer⟩
          cases meets.1.symm.trans ((applyUnary_nil_iff operator value).mp answer)
      | binary left operator right =>
          rintro ⟨first, second, answer⟩
          cases meets.1.symm.trans ((applyBinary_nil_iff operator first second).mp answer)
      | literal | group | logical | ternary | comma | var | assign | call => exact id
  | executes | invokes | stores => exact id

section runs

variable (machine : Machine) (held : machine.heap.Holds Value.ProperCode) (fuel : Nat) (tokens : List Token)

include held

theorem traced_meets :
    (∀ moment ∈ (Machine.traced fuel (readProgram tokens).result machine).1,
      moment.Meets Expr.ProperCode Stmt.ProperCode Value.ProperCode) ∧
    (Machine.traced fuel (readProgram tokens).result machine).2.Carries Value.ProperCode (fun _ => True)
      fun _ => True := by
  have stripped : Stmt.stripAll (machine.prepare (readProgram tokens).result).1 = (readProgram tokens).result :=
    Stmt.stripAll_numbered _ machine.labels
  have proper := (Stmt.properAll_iff _).mpr (Grammar.readProgram_proper tokens)
  rw [← stripped, Stmt.properAll_strip] at proper
  exact Traced.runProgram_meets proper_hereditary fuel _ proper (machine.prepare (readProgram tokens).result).2 held

theorem evaluated_meets (tree : Expr Unit) (read : (readExpression tokens).result = some tree) :
    (∀ moment ∈ (Traced.eval fuel (machine.loadExpr tree).1 (machine.loadExpr tree).2).1,
      moment.Meets Expr.ProperCode Stmt.ProperCode Value.ProperCode) ∧
    (Traced.eval fuel (machine.loadExpr tree).1 (machine.loadExpr tree).2).2.Carries Value.ProperCode
      (fun _ => True) Value.ProperCode := by
  have stripped : (machine.loadExpr tree).1.strip = tree := Expr.strip_numbered tree machine.labels
  have proper := Grammar.readExpression_proper tokens tree read
  rw [← stripped] at proper
  exact (Traced.meets_within proper_hereditary fuel).eval _ proper (machine.loadExpr tree).2 held

end runs

theorem held_after {α : Type} {ofValue : Value → Prop} {expected : Fault → Prop} {good : α → Prop} (outcome : Outcome α)
    (carries : outcome.Carries ofValue expected good) (after : Machine) (ended : outcome.machine? = some after) :
    after.heap.Holds ofValue := by
  cases carries with
  | done value machine held =>
      cases ended
      exact held
  | fault fault machine held =>
      cases ended
      exact held
  | outOfFuel => cases ended

-- Functions outlive the run that declares them, so this is an invariant from one run to the next.
theorem held_of_fed (machine : Machine) (fed : machine.Fed) : machine.heap.Holds Value.ProperCode := by
  induction fed with
  | start limit sink clock => exact holds_start limit sink clock trivial
  | program machine after fuel tokens _ ended ih =>
      have carries := (traced_meets machine ih fuel tokens).2
      rw [← Machine.traced_erases] at ended
      exact held_after _ carries after ended
  | expression machine after fuel tokens tree _ read ended ih =>
      have carries := (evaluated_meets machine ih fuel tokens tree read).2
      rw [← (Traced.erases_within fuel).eval] at ended
      exact held_after _ carries after ended
  | altered machine after _ same ih =>
      rw [same]
      exact ih

-- Whatever the tokens are, the trees read from them are proper, and no run of them applies an operator that could
-- answer nil.
theorem read_trees_are_proper :
    (∀ tokens, Stmt.ProperAll (readProgram tokens).result) ∧
    (∀ tokens tree, (readExpression tokens).result = some tree → tree.Proper) ∧
    ∀ machine : Machine, machine.Fed → ∀ fuel tokens,
      (Machine.traced fuel (readProgram tokens).result machine).2 =
        Machine.interpret fuel (readProgram tokens).result machine ∧
      (∀ moment ∈ (Machine.traced fuel (readProgram tokens).result machine).1, ¬ moment.FallsBack) ∧
      ∀ tree, (readExpression tokens).result = some tree →
        (Traced.eval fuel (machine.loadExpr tree).1 (machine.loadExpr tree).2).2 =
          eval fuel (machine.loadExpr tree).1 (machine.loadExpr tree).2 ∧
        ∀ moment ∈ (Traced.eval fuel (machine.loadExpr tree).1 (machine.loadExpr tree).2).1, ¬ moment.FallsBack := by
  refine ⟨fun tokens => (Stmt.properAll_iff _).mpr (Grammar.readProgram_proper tokens), Grammar.readExpression_proper,
    fun machine fed fuel tokens => ?_⟩
  have held := held_of_fed machine fed
  refine ⟨congrFun (Machine.traced_erases fuel _) machine, fun moment inside => ?_, fun tree read => ?_⟩
  · exact meets_not_fallsBack moment ((traced_meets machine held fuel tokens).1 moment inside)
  · refine ⟨congrFun ((Traced.erases_within fuel).eval _) _, fun moment inside => ?_⟩
    exact meets_not_fallsBack moment ((evaluated_meets machine held fuel tokens tree read).1 moment inside)

open Grammar (plainToken)

-- `= print !(nil == nil);`, of which the first token is dropped.
def strayEqual : List Token :=
  [plainToken .equal "=", plainToken .kwPrint "print", plainToken .bang "!", plainToken .leftParen "(",
    plainToken .kwNil "nil", plainToken .equalEqual "==", plainToken .kwNil "nil", plainToken .rightParen ")",
    plainToken .semicolon ";"]

-- `!nil`
def negatedNil : List Token := [plainToken .bang "!", plainToken .kwNil "nil"]

theorem strayEqual_proper :
    (readProgram strayEqual).errors.length = 1 ∧ (readProgram strayEqual).result.length = 1 ∧
    Stmt.ProperAll (readProgram strayEqual).result ∧
    ∃ machine : Machine, machine.Fed ∧
      (Machine.traced 10 (readProgram strayEqual).result machine).1.length = 6 ∧
      (∀ moment ∈ (Machine.traced 10 (readProgram strayEqual).result machine).1, ¬ moment.FallsBack) ∧
      ∃ tree, (readExpression negatedNil).result = some tree ∧ tree.Proper ∧
        ∀ moment ∈ (Traced.eval 10 (machine.loadExpr tree).1 (machine.loadExpr tree).2).1, ¬ moment.FallsBack := by
  obtain ⟨programs, expressions, runs⟩ := read_trees_are_proper
  have fed := Machine.Fed.start 8 (Sink.empty none) (Clock.ticking 0)
  have read : (readExpression negatedNil).result = some (.unary (plainToken .bang "!") (.literal .nil)) := by rfl
  exact ⟨by rfl, by rfl, programs strayEqual, _, fed, by rfl, (runs _ fed 10 strayEqual).2.1, _, read,
    expressions negatedNil _ read, ((runs _ fed 10 negatedNil).2.2 _ read).2⟩

end Treewalk
