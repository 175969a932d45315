import Treewalk.Proofs.Outruns

/-!
Counting loops and their trees. A counting loop is read as a plain loop whose body runs the step at its end, in a block
with the start. Run as such a tree or round by round, it comes to the same end from the same state, with the same values
in all cells.
-/

set_option autoImplicit false

namespace Treewalk.Lexical

open Treewalk.Lexical.Run

namespace Counting

variable (loop : Counting)

def test : Expr Unit := loop.condition.getD (.literal (.boolean true))

def round : Stmt Unit :=
  match loop.step with
  | some step => .block [loop.body, .expr step]
  | none => loop.body

def tree : Stmt Unit := .counting loop.start loop.condition loop.step loop.body

-- A start is a declaration of a variable or an expression, and the body declares nothing in the scope of the loop.

inductive Starts : Stmt Unit → Prop where
  | var (name : Token) (value : Option (Expr Unit)) : Starts (.var name value)
  | expr (value : Expr Unit) : Starts (.expr value)

structure Formed : Prop where
  start : ∀ start, loop.start = some start → Starts start
  placed : loop.body.placed = true
  plain : loop.body.isDeclaration = false

variable {loop}

theorem round_bare (absent : loop.step = none) : loop.round = loop.body := by
  rw [round, absent]

theorem round_step {step : Expr Unit} (present : loop.step = some step) :
    loop.round = .block [loop.body, .expr step] := by
  rw [round, present]

theorem tree_bare (absent : loop.start = none) : loop.tree = .loop loop.test loop.round := by
  obtain ⟨start, condition, step, body⟩ := loop
  cases absent
  cases step <;> rfl

theorem tree_start {start : Stmt Unit} (present : loop.start = some start) :
    loop.tree = .block [start, .loop loop.test loop.round] := by
  obtain ⟨start, condition, step, body⟩ := loop
  cases present
  cases step <;> rfl

end Counting

-- Statements that are taken for counting loops are the trees of these.
def Faithful (loops : Stmt Unit → Option Counting) : Prop :=
  ∀ stmt loop, loops stmt = some loop → stmt = loop.tree ∧ loop.Formed

-- A statement that leaves the place as it is.

def Stays (place : Place) (run : Run (Ending × Place)) : Prop :=
  ∀ state pair after, run state = .done pair after → pair.2 = place

theorem stays_unfueled (place : Place) : Stays place outOfFuel := by
  intro state pair after done
  cases done

theorem stays_pure (place : Place) (ending : Ending) : Stays place (pure (ending, place)) := by
  intro state pair after done
  cases done
  rfl

theorem stays_bind {α : Type} (place : Place) (first : Run α) (next : α → Run (Ending × Place))
    (later : ∀ value, Stays place (next value)) : Stays place (first >>= next) := by
  intro state pair after done
  change Run.bind first next state = _ at done
  unfold Run.bind at done
  cases outcome : first state with
  | done value middle =>
      rw [outcome] at done
      exact later value middle pair after done
  | fault | outOfFuel =>
      rw [outcome] at done
      cases done

theorem stays_ite (place : Place) {condition : Prop} [Decidable condition] {yes no : Run (Ending × Place)}
    (ofYes : Stays place yes) (ofNo : Stays place no) : Stays place (if condition then yes else no) := by
  by_cases holds : condition
  · rw [if_pos holds]
    exact ofYes
  · rw [if_neg holds]
    exact ofNo

theorem stays_onward {place : Place} {run : Run (Ending × Place)} (stays : Stays place run) (next : Place → Run Ending) :
    onward run next = onward run fun _ => next place := by
  funext state
  change Run.bind run _ state = Run.bind run _ state
  unfold Run.bind
  cases outcome : run state with
  | done pair after => simp only [stays state pair after outcome]
  | fault | outOfFuel => rfl

-- Trees, in a manner that takes no statement for a counting loop. With less fuel than some steps need, both sides of
-- these equations have none.

section trees

variable (manner : Manner) (place : Place) (fuel : Nat)

theorem execAll_single (stmt : Stmt Unit) :
    manner.execAll place fuel [stmt] = ended (manner.exec place (fuel - 1) stmt) := by
  cases fuel with
  | zero =>
      rw [Manner.execAll_unfueled, Manner.exec_unfueled]
      rfl
  | succ fuel =>
      rw [Manner.execAll_cons, Nat.add_sub_cancel]
      cases fuel with
      | zero =>
          rw [Manner.exec_unfueled]
          rfl
      | succ fuel =>
          simp only [Manner.execAll_nil]
          exact onward_normal _

theorem execAll_pair (first second : Stmt Unit) :
    manner.execAll place fuel [first, second] =
      onward (manner.exec place (fuel - 1) first) fun after => ended (manner.exec after (fuel - 2) second) := by
  cases fuel with
  | zero =>
      rw [Manner.execAll_unfueled, Manner.exec_unfueled]
      rfl
  | succ fuel =>
      rw [Manner.execAll_cons]
      simp only [execAll_single]
      rfl

-- In a scope of its own, a statement that declares nothing does the same.
structure InnerWithin : Prop where
  exec : ∀ stmt : Stmt Unit, stmt.placed = true → stmt.isDeclaration = false →
    ended (manner.exec place fuel stmt) = ended (manner.exec (.inner place.names) fuel stmt)
  execLoop : ∀ (condition : Expr Unit) (body : Stmt Unit), body.placed = true → body.isDeclaration = false →
    manner.execLoop place fuel condition body = manner.execLoop (.inner place.names) fuel condition body

theorem execLoop_inner (ih : InnerWithin manner place fuel) (condition : Expr Unit) (body : Stmt Unit)
    (placed : body.placed = true) (plain : body.isDeclaration = false) :
    manner.execLoop place (fuel + 1) condition body =
      manner.execLoop (.inner place.names) (fuel + 1) condition body := by
  rw [Manner.execLoop_succ, Manner.execLoop_succ, onward_ended, onward_ended, ih.exec body placed plain,
    ih.execLoop condition body placed plain]
  rfl

variable (tree : ∀ stmt, manner.loops stmt = none)

include tree

theorem ended_expr (value : Expr Unit) :
    ended (manner.exec place fuel (.expr value)) =
      manner.eval place.names none (fuel - 1) value >>= fun _ => pure .normal := by
  cases fuel with
  | zero =>
      rw [Manner.exec_unfueled, Manner.eval_unfueled]
      rfl
  | succ fuel =>
      simp only [Manner.exec, tree]
      exact ended_bind _ _

theorem exec_block (body : List (Stmt Unit)) :
    manner.exec place fuel (.block body) =
      manner.execAll (.inner place.names) (fuel - 1) body >>= fun ending => pure (ending, place) := by
  cases fuel with
  | zero =>
      rw [Manner.exec_unfueled, Manner.execAll_unfueled]
      rfl
  | succ fuel =>
      simp only [Manner.exec, tree]
      rfl

theorem exec_loop (condition : Expr Unit) (body : Stmt Unit) :
    manner.exec place fuel (.loop condition body) =
      manner.execLoop place (fuel - 1) condition body >>= fun ending => pure (ending, place) := by
  cases fuel with
  | zero =>
      rw [Manner.exec_unfueled, Manner.execLoop_unfueled]
      rfl
  | succ fuel =>
      simp only [Manner.exec, tree]
      rfl

theorem ended_block (body : List (Stmt Unit)) :
    ended (manner.exec place fuel (.block body)) = manner.execAll (.inner place.names) (fuel - 1) body := by
  rw [exec_block manner place fuel tree, ended_bind]
  exact bind_pure _

theorem ended_loop (condition : Expr Unit) (body : Stmt Unit) :
    ended (manner.exec place fuel (.loop condition body)) = manner.execLoop place (fuel - 1) condition body := by
  rw [exec_loop manner place fuel tree, ended_bind]
  exact bind_pure _

-- What starts a counting loop ends normally.
theorem start_onward (start : Stmt Unit) (starts : Counting.Starts start) (next : Place → Run Ending) :
    onward (manner.exec place fuel start) next = manner.exec place fuel start >>= fun pair => next pair.2 := by
  cases fuel with
  | zero =>
      rw [Manner.exec_unfueled]
      rfl
  | succ fuel =>
      unfold onward
      cases starts with
      | expr value =>
          simp only [Manner.exec, tree, ← mirror_assoc]
          rfl
      | var name value =>
          cases value with
          | none =>
              simp only [Manner.exec, tree, ← mirror_assoc]
              rfl
          | some value =>
              simp only [Manner.exec, tree, ← mirror_assoc]
              rfl

-- A statement that declares nothing leaves the place as it is.
theorem exec_stays (stmt : Stmt Unit) (plain : stmt.isDeclaration = false) :
    Stays place (manner.exec place fuel stmt) := by
  cases fuel with
  | zero =>
      rw [Manner.exec_unfueled]
      exact stays_unfueled place
  | succ fuel =>
      cases stmt with
      | ret keyword value =>
          cases value with
          | none =>
              simp only [Manner.exec, tree]
              exact stays_pure place _
          | some value =>
              simp only [Manner.exec, tree]
              exact stays_bind place _ _ fun _ => stays_pure place _
      | print keyword value =>
          simp only [Manner.exec, tree]
          exact stays_bind place _ _ fun _ => stays_bind place _ _ fun _ => stays_pure place _
      | expr value =>
          simp only [Manner.exec, tree]
          exact stays_bind place _ _ fun _ => stays_pure place _
      | var name value => cases plain
      | func name params body => cases plain
      | block body =>
          simp only [Manner.exec, tree]
          exact stays_bind place _ _ fun _ => stays_pure place _
      | branch condition yes no =>
          cases no with
          | none =>
              simp only [Manner.exec, tree]
              refine stays_bind place _ _ fun _ => stays_ite place ?_ (stays_pure place _)
              exact stays_bind place _ _ fun _ => stays_pure place _
          | some no =>
              simp only [Manner.exec, tree]
              refine stays_bind place _ _ fun _ => stays_ite place ?_ ?_
              · exact stays_bind place _ _ fun _ => stays_pure place _
              · exact stays_bind place _ _ fun _ => stays_pure place _
      | loop condition body =>
          simp only [Manner.exec, tree]
          exact stays_bind place _ _ fun _ => stays_pure place _

theorem exec_inner (ih : InnerWithin manner place fuel) (stmt : Stmt Unit) (placed : stmt.placed = true)
    (plain : stmt.isDeclaration = false) :
    ended (manner.exec place (fuel + 1) stmt) = ended (manner.exec (.inner place.names) (fuel + 1) stmt) := by
  cases stmt with
  | ret keyword value =>
      cases value with
      | none =>
          simp only [Manner.exec, tree]
          rfl
      | some value =>
          simp only [Manner.exec, tree, ended_bind]
          rfl
  | print keyword value =>
      simp only [Manner.exec, tree, ended_bind]
      rfl
  | expr value =>
      simp only [Manner.exec, tree, ended_bind]
      rfl
  | var name value => cases plain
  | func name params body => cases plain
  | block body =>
      rw [ended_block manner _ _ tree, ended_block manner _ _ tree]
      rfl
  | branch condition yes no =>
      cases no with
      | none =>
          simp only [Stmt.placed, Bool.and_eq_true, Bool.not_eq_true'] at placed
          simp only [Manner.exec, tree]
          rw [ended_bind, ended_bind]
          refine congrArg (_ >>= ·) (funext fun test => ?_)
          rw [ended_ite, ended_ite, ended_again, ended_again, ih.exec yes placed.1 placed.2]
          rfl
      | some no =>
          simp only [Stmt.placed, Bool.and_eq_true, Bool.not_eq_true'] at placed
          obtain ⟨⟨yesPlaced, yesPlain⟩, noPlaced, noPlain⟩ := placed
          simp only [Manner.exec, tree]
          rw [ended_bind, ended_bind]
          refine congrArg (_ >>= ·) (funext fun test => ?_)
          rw [ended_ite, ended_ite, ended_again, ended_again, ended_again, ended_again, ih.exec yes yesPlaced yesPlain,
            ih.exec no noPlaced noPlain]
  | loop condition body =>
      simp only [Stmt.placed, Bool.and_eq_true, Bool.not_eq_true'] at placed
      rw [ended_loop manner _ _ tree, ended_loop manner _ _ tree]
      exact ih.execLoop condition body placed.1 placed.2

theorem inner_within : InnerWithin manner place fuel := by
  induction fuel with
  | zero =>
      constructor
      · intro stmt _ _
        rw [Manner.exec_unfueled, Manner.exec_unfueled]
      · intro condition body _ _
        rw [Manner.execLoop_unfueled, Manner.execLoop_unfueled]
  | succ fuel ih => exact ⟨exec_inner manner place fuel tree ih, execLoop_inner manner place fuel ih⟩

-- What a round does as a tree: the body in a scope of its own, then the step.

section rounds

variable {loop : Counting} (formed : loop.Formed) (next : Run Ending)

include formed

theorem round_bare_onward (absent : loop.step = none) :
    onward (manner.exec place fuel loop.round) (fun _ => next) =
      onward (manner.exec (.inner place.names) fuel loop.body) fun _ => next := by
  have within := inner_within manner place fuel tree
  rw [Counting.round_bare absent, onward_ended, onward_ended, within.exec loop.body formed.placed formed.plain]

theorem round_step_onward {step : Expr Unit} (present : loop.step = some step) :
    onward (manner.exec place fuel loop.round) (fun _ => next) =
      onward (manner.exec (.inner place.names) (fuel - 2) loop.body) fun _ =>
        manner.eval place.names none (fuel - 4) step >>= fun _ => next := by
  have stays := exec_stays manner (.inner place.names) (fuel - 2) tree loop.body formed.plain
  calc onward (manner.exec place fuel loop.round) (fun _ => next)
      = ended (manner.exec place fuel (.block [loop.body, .expr step])) >>= resume next := by
        rw [Counting.round_step present, onward_ended]
    _ = manner.execAll (.inner place.names) (fuel - 1) [loop.body, .expr step] >>= resume next := by
        rw [ended_block manner place fuel tree]
    _ = onward (manner.exec (.inner place.names) (fuel - 2) loop.body)
          (fun after => manner.eval after.names none (fuel - 4) step >>= fun _ => pure .normal) >>= resume next := by
        rw [execAll_pair]
        simp only [ended_expr manner _ _ tree]
        rfl
    _ = onward (manner.exec (.inner place.names) (fuel - 2) loop.body) fun _ =>
          manner.eval place.names none (fuel - 4) step >>= fun _ => next := by
        rw [stays_onward stays, onward_resume]
        simp only [← mirror_assoc]
        rfl

end rounds

end trees

-- The rounds of a counting loop beside the loop of its tree. The fuel of the one goes down with that of the other.

section loops

variable {direct built : Manner} {fuel more : Nat} {loop : Counting}

theorem test_below (within : BelowWithin direct built fuel more) (some : 0 < more) (names : Names) :
    (clauseOr (.boolean true) (direct.eval names none fuel) loop.condition).Below
      (built.eval names none more loop.test) := by
  unfold Counting.test
  cases loop.condition with
  | none =>
      obtain ⟨fewer, rfl⟩ : ∃ fewer, more = fewer + 1 := ⟨more - 1, by omega⟩
      simp only [Option.getD_none, Manner.eval]
      exact below_refl _
  | some condition => exact within.eval names none condition

theorem built_test_below (within : BelowWithin built direct fuel more) (names : Names) :
    (built.eval names none fuel loop.test).Below
      (clauseOr (.boolean true) (direct.eval names none more) loop.condition) := by
  unfold Counting.test
  cases loop.condition with
  | none =>
      cases fuel with
      | zero =>
          rw [Manner.eval_unfueled]
          exact below_unfueled _
      | succ fuel =>
          simp only [Option.getD_none, Manner.eval]
          exact below_refl _
  | some condition => exact within.eval names none condition

variable (asBuilt : ∀ stmt, built.loops stmt = none) (formed : loop.Formed) {place place' : Place}
  (same : place.names = place'.names)

include asBuilt formed same

theorem rounds_below (count : Nat) (ih : ∀ less, less < count → Outruns built direct less) :
    ∀ more, 5 * count ≤ more →
      (direct.execRounds place count loop).Below (built.execLoop place' more loop.test loop.round) := by
  induction count with
  | zero =>
      intro more _
      rw [Manner.execRounds_unfueled]
      exact below_unfueled _
  | succ count next =>
      intro more enough
      obtain ⟨more, rfl⟩ : ∃ fewer, more = fewer + 1 := ⟨more - 1, by omega⟩
      have again := next (fun less fewer => ih less (by omega)) more (by omega)
      have within := ih count (Nat.lt_succ_self count)
      rw [Manner.execRounds_succ, Manner.execLoop_succ, same]
      refine below_bind (test_below (within more (by omega)) (by omega) _) fun _ => below_ite ?_ (below_refl _)
      cases step : loop.step with
      | none =>
          rw [round_bare_onward built place' more asBuilt formed _ step]
          exact onward_below ((within more (by omega)).exec _ _) fun _ => again
      | some clause =>
          rw [round_step_onward built place' more asBuilt formed _ step]
          refine onward_below ((within (more - 2) (by omega)).exec _ _) fun _ => ?_
          exact below_bind ((within (more - 4) (by omega)).eval _ _ _) fun _ => again

theorem loop_below (count : Nat) (ih : ∀ less, less < count → Outruns direct built less) :
    ∀ more, 5 * count ≤ more →
      (built.execLoop place' count loop.test loop.round).Below (direct.execRounds place more loop) := by
  induction count with
  | zero =>
      intro more _
      rw [Manner.execLoop_unfueled]
      exact below_unfueled _
  | succ count next =>
      intro more enough
      obtain ⟨more, rfl⟩ : ∃ fewer, more = fewer + 1 := ⟨more - 1, by omega⟩
      have again := next (fun less fewer => ih less (by omega)) more (by omega)
      have within (less : Nat) (fewer : less ≤ count) := ih less (Nat.lt_succ_of_le fewer) more (by omega)
      rw [Manner.execRounds_succ, Manner.execLoop_succ, same]
      refine below_bind (built_test_below (within count (by omega)) _) fun _ => below_ite ?_ (below_refl _)
      cases step : loop.step with
      | none =>
          rw [round_bare_onward built place' count asBuilt formed _ step]
          exact onward_below ((within count (by omega)).exec _ _) fun _ => again
      | some clause =>
          rw [round_step_onward built place' count asBuilt formed _ step]
          refine onward_below ((within (count - 2) (by omega)).exec _ _) fun _ => ?_
          exact below_bind ((within (count - 4) (by omega)).eval _ _ _) fun _ => again

end loops

-- A statement that is taken for a counting loop beside its tree.

section statements

variable {direct built : Manner} (asBuilt : ∀ stmt, built.loops stmt = none) {loop : Counting} (formed : loop.Formed)
  (counts : direct.loops loop.tree = some loop) (place : Place)

include asBuilt formed counts

theorem counting_below (fuel : Nat) (ih : ∀ less, less < fuel → Outruns built direct less) (more : Nat)
    (enough : 5 * fuel ≤ more) : (direct.exec place fuel loop.tree).Below (built.exec place more loop.tree) := by
  cases fuel with
  | zero =>
      rw [Manner.exec_unfueled]
      exact below_unfueled _
  | succ fuel =>
      have rounds (inside inside' : Place) (same : inside.names = inside'.names) :=
        rounds_below asBuilt formed same fuel fun less fewer => ih less (by omega)
      cases present : loop.start with
      | none =>
          rw [Manner.exec_counting direct place fuel _ loop counts present, Counting.tree_bare present,
            exec_loop built place more asBuilt]
          exact below_bind (rounds (.inner place.names) place rfl (more - 1) (by omega)) fun _ => below_refl _
      | some start =>
          rw [Manner.exec_counting_start direct place fuel _ start loop counts present, Counting.tree_start present,
            exec_block built place more asBuilt, execAll_pair,
            start_onward built _ _ asBuilt start (formed.start start present), ← mirror_assoc]
          simp only [ended_loop built _ _ asBuilt]
          have begun := (ih fuel (Nat.lt_succ_self fuel) (more - 1 - 1) (by omega)).exec (.inner place.names) start
          refine below_bind begun fun pair => ?_
          exact below_bind (rounds pair.2 pair.2 rfl (more - 1 - 2 - 1) (by omega)) fun _ => below_refl _

theorem tree_below (fuel : Nat) (ih : ∀ less, less < fuel → Outruns direct built less) (more : Nat)
    (enough : 5 * fuel ≤ more) : (built.exec place fuel loop.tree).Below (direct.exec place more loop.tree) := by
  cases fuel with
  | zero =>
      rw [Manner.exec_unfueled]
      exact below_unfueled _
  | succ fuel =>
      obtain ⟨more, rfl⟩ : ∃ fewer, more = fewer + 1 := ⟨more - 1, by omega⟩
      have repeats (inside inside' : Place) (same : inside.names = inside'.names) (count : Nat) (few : count ≤ fuel) :=
        loop_below asBuilt formed same count (fun less fewer => ih less (by omega)) more (by omega)
      cases present : loop.start with
      | none =>
          rw [Manner.exec_counting direct place more _ loop counts present, Counting.tree_bare present,
            exec_loop built place _ asBuilt]
          exact below_bind (repeats (.inner place.names) place rfl fuel (by omega)) fun _ => below_refl _
      | some start =>
          rw [Manner.exec_counting_start direct place more _ start loop counts present, Counting.tree_start present,
            exec_block built place _ asBuilt, execAll_pair,
            start_onward built _ _ asBuilt start (formed.start start present), ← mirror_assoc]
          simp only [ended_loop built _ _ asBuilt]
          have begun := (ih (fuel - 1) (by omega) more (by omega)).exec (.inner place.names) start
          refine below_bind begun fun pair => ?_
          exact below_bind (repeats pair.2 pair.2 rfl (fuel - 2 - 1) (by omega)) fun _ => below_refl _

end statements

-- Programs run alike with their counting loops and with the trees of these.

section programs

variable {loops : Stmt Unit → Option Counting} (faithful : Faithful loops)

include faithful

theorem trees_outrun (fuel : Nat) : Outruns (.strict fun _ => none) (.strict loops) fuel := by
  refine outruns (.strict loops) (.strict fun _ => none) rfl ?_ fuel
  intro fuel ih more enough place stmt counts
  obtain ⟨loop, counts⟩ := Option.ne_none_iff_exists'.mp (counts.resolve_right fun absent => absent rfl)
  obtain ⟨rfl, formed⟩ := faithful stmt loop counts
  exact counting_below (fun _ => rfl) formed counts place fuel ih more enough

theorem rounds_outrun (fuel : Nat) : Outruns (.strict loops) (.strict fun _ => none) fuel := by
  refine outruns (.strict fun _ => none) (.strict loops) rfl ?_ fuel
  intro fuel ih more enough place stmt counts
  obtain ⟨loop, counts⟩ := Option.ne_none_iff_exists'.mp (counts.resolve_left fun absent => absent rfl)
  obtain ⟨rfl, formed⟩ := faithful stmt loop counts
  exact tree_below (fun _ => rfl) formed counts place fuel ih more enough

end programs

section reports

variable {manner other : Manner} {fuel more : Nat} (within : BelowWithin manner other fuel more)

include within

theorem exec_outcome (place : Place) (stmt : Stmt Unit) (state : State)
    (finished : manner.exec place fuel stmt state ≠ .outOfFuel) :
    other.exec place more stmt state = manner.exec place fuel stmt state := by
  have below := within.exec place stmt state
  generalize manner.exec place fuel stmt state = outcome at below finished
  generalize other.exec place more stmt state = outcome' at below
  cases below with
  | unknown => exact absurd rfl finished
  | same => rfl

theorem runProgram_below (program : List (Stmt Unit)) :
    (manner.runProgram fuel program).Below (other.runProgram more program) := by
  induction program with
  | nil => exact below_refl _
  | cons first rest ih => exact below_bind (within.exec .outermost first) fun _ => ih

theorem reports_outcome (programs : List (List (Stmt Unit))) : ∀ state : State,
    .unfinished ∉ manner.reports fuel state programs →
      other.reports more state programs = manner.reports fuel state programs := by
  induction programs with
  | nil => exact fun _ _ => rfl
  | cons program rest ih =>
      intro state finished
      have below := runProgram_below within program state
      unfold Manner.reports at finished ⊢
      generalize manner.runProgram fuel program state = outcome at below finished ⊢
      generalize other.runProgram more program state = outcome' at below ⊢
      cases below with
      | unknown => exact absurd List.mem_cons_self finished
      | same =>
          cases outcome with
          | done value after =>
              exact congrArg (_ :: ·) (ih after fun inside => finished (List.mem_cons_of_mem _ inside))
          | fault fault after =>
              exact congrArg (_ :: ·) (ih after fun inside => finished (List.mem_cons_of_mem _ inside))
          | outOfFuel => rfl

end reports

-- The counting loops of program texts.

namespace Counting

open Grammar

inductive Written : List Token → List Token → Counting → Prop where
  | mk (keyword opening : Token) (tokens afterStart afterCondition afterStep rest : List Token)
      (start : Option (Stmt Unit)) (condition step : Option (Expr Unit)) (body : Stmt Unit)
      (isFor : keyword.kind = .kwFor) (isOpening : opening.kind = .leftParen)
      (starts : IsStart true tokens afterStart start)
      (tests : IsClause true .semicolon afterStart afterCondition condition)
      (steps : IsClause true .rightParen afterCondition afterStep step)
      (repeated : Builds true .statement afterStep rest body) :
      Written (keyword :: opening :: tokens) rest ⟨start, condition, step, body⟩

theorem written_formed (tokens rest : List Token) (loop : Counting) (written : Written tokens rest loop) :
    loop.Formed := by
  cases written with
  | mk _ _ _ _ _ _ _ start condition step body _ _ starts _ _ repeated =>
      obtain ⟨placed, plain⟩ := builds_placed true .statement _ _ body repeated
      refine ⟨?_, placed, plain⟩
      intro begun present
      cases starts with
      | nothing => cases present
      | declared _ _ _ _ _ whole =>
          cases present
          cases whole <;> exact .var _ _
      | value =>
          cases present
          exact .expr _

theorem written_of_built (keyword : Token) (tokens rest : List Token) (tree : Stmt Unit)
    (isFor : keyword.kind = .kwFor) (built : Builds true .statement (keyword :: tokens) rest tree) :
    ∃ loop : Counting, Written (keyword :: tokens) rest loop ∧ tree = loop.tree := by
  cases built with
  | counting _ opening later _ _ _ _ start condition step body _ isOpening starts tests steps repeated =>
      exact ⟨⟨start, condition, step, body⟩,
        .mk keyword opening later _ _ _ rest start condition step body isFor isOpening starts tests steps repeated, rfl⟩
  | expr _ _ _ _ whole =>
      have begins : Ahead startsExpr (keyword :: tokens) := derives_starts _ _ _ _ _ whole
      simp [ahead_cons, isFor, startsExpr, startsPrimary] at begins
  | branch _ _ _ _ _ _ kind | branches _ _ _ _ _ _ _ _ _ kind | print _ _ _ _ _ kind | ret _ _ _ _ kind
  | loop _ _ _ _ _ _ kind | block _ _ _ _ _ kind => cases isFor.symm.trans kind

-- Takes all trees of counting loops for such loops, and the tree of one of them for just that.
open Classical in
noncomputable def view (loop : Counting) (stmt : Stmt Unit) : Option Counting :=
  if stmt = loop.tree then some loop
  else if counts : ∃ other : Counting, other.Formed ∧ stmt = other.tree then some counts.choose
  else none

theorem view_here (loop : Counting) : loop.view loop.tree = some loop := if_pos rfl

theorem view_other (loop other : Counting) (formed : other.Formed) : loop.view other.tree ≠ none := by
  unfold view
  by_cases same : other.tree = loop.tree
  · rw [if_pos same]
    exact Option.some_ne_none _
  · rw [if_neg same, dif_pos ⟨other, formed, rfl⟩]
    exact Option.some_ne_none _

theorem view_faithful (loop : Counting) (formed : loop.Formed) : Faithful loop.view := by
  intro stmt seen sees
  unfold view at sees
  by_cases same : stmt = loop.tree
  · rw [if_pos same] at sees
    cases sees
    exact ⟨same, formed⟩
  · rw [if_neg same] at sees
    by_cases counts : ∃ other : Counting, other.Formed ∧ stmt = other.tree
    · rw [dif_pos counts] at sees
      cases sees
      exact ⟨counts.choose_spec.2, counts.choose_spec.1⟩
    · rw [dif_neg counts] at sees
      cases sees

end Counting

-- On the machine, accepted programs run as they are read, with names and cells.
theorem reports_as_read (limit fuel : Nat) (sink : Sink) (clock : Clock) (sources : List (List Token))
    (read : ∀ tokens ∈ sources, (readProgram tokens).errors = [])
    (resolved : ∀ tokens ∈ sources, misuses (readProgram tokens).result = []) :
    (Machine.start limit sink clock).reports fuel (sources.map fun tokens => (readProgram tokens).result) =
      (Manner.strict fun _ => none).reports fuel (State.start limit sink clock)
        (sources.map fun tokens => (readProgram tokens).result) := by
  apply manner_reports_match fuel _ ⟨∅, 0, true⟩ (fun _ _ => none) _ _ (matched_start limit sink clock) rfl
  · intro label _
    exact Std.HashMap.getElem?_empty
  · intro program inside
    obtain ⟨tokens, among, rfl⟩ := List.mem_map.mp inside
    exact ⟨resolved tokens among, Grammar.readProgram_placed tokens (read tokens among), nofun⟩

-- Token lists read without a mistake and analysed without a misuse, and any choice of trees of counting loops that are
-- run round by round instead: run one after another, the programs report the same on the machine and in this manner,
-- each statement comes from the same state to the same end with the same values in all cells, and what is read for a
-- counting loop is the tree of the loop that is written there, so that this and all others are among the choices.
theorem trees_run_as_counting_loops (limit : Nat) (sink : Sink) (clock : Clock) (sources : List (List Token))
    (read : ∀ tokens ∈ sources, (readProgram tokens).errors = [])
    (resolved : ∀ tokens ∈ sources, misuses (readProgram tokens).result = [])
    (loops : Stmt Unit → Option Counting) (faithful : Faithful loops) :
    (∀ reports, .unfinished ∉ reports →
      ((∃ fuel, (Machine.start limit sink clock).reports fuel
          (sources.map fun tokens => (readProgram tokens).result) = reports) ↔
        ∃ fuel, (Manner.strict loops).reports fuel (State.start limit sink clock)
          (sources.map fun tokens => (readProgram tokens).result) = reports)) ∧
      (∀ place stmt state outcome, outcome ≠ .outOfFuel →
        ((∃ fuel, (Manner.strict fun _ => none).exec place fuel stmt state = outcome) ↔
          ∃ fuel, (Manner.strict loops).exec place fuel stmt state = outcome)) ∧
      ∀ keyword tokens rest tree, keyword.kind = .kwFor → Grammar.Builds true .statement (keyword :: tokens) rest tree →
        ∃ loop : Counting, Counting.Written (keyword :: tokens) rest loop ∧ tree = loop.tree ∧
          ∃ view, Faithful view ∧ view tree = some loop ∧ ∀ other : Counting, other.Formed → view other.tree ≠ none := by
  refine ⟨?_, ?_, ?_⟩
  · intro reports finished
    constructor
    · rintro ⟨fuel, rfl⟩
      rw [reports_as_read limit fuel sink clock sources read resolved] at finished ⊢
      exact ⟨_, reports_outcome (rounds_outrun faithful fuel _ (Nat.le_refl _)) _ _ finished⟩
    · rintro ⟨fuel, rfl⟩
      refine ⟨5 * fuel, (reports_as_read limit (5 * fuel) sink clock sources read resolved).trans ?_⟩
      exact reports_outcome (trees_outrun faithful fuel _ (Nat.le_refl _)) _ _ finished
  · intro place stmt state outcome finished
    constructor
    · rintro ⟨fuel, rfl⟩
      exact ⟨_, exec_outcome (rounds_outrun faithful fuel _ (Nat.le_refl _)) place stmt state finished⟩
    · rintro ⟨fuel, rfl⟩
      exact ⟨_, exec_outcome (trees_outrun faithful fuel _ (Nat.le_refl _)) place stmt state finished⟩
  · intro keyword tokens rest tree isFor built
    obtain ⟨loop, written, rfl⟩ := Counting.written_of_built keyword tokens rest tree isFor built
    have formed := Counting.written_formed _ _ loop written
    exact ⟨loop, written, rfl, loop.view, Counting.view_faithful loop formed, Counting.view_here loop,
      Counting.view_other loop⟩

-- `for (var go = true; go; go = false) print "once";` has one round.

open Grammar (plainToken textToken)

def oneRound : List Token :=
  [plainToken .kwFor "for", plainToken .leftParen "(", plainToken .kwVar "var", plainToken .identifier "go",
    plainToken .equal "=", plainToken .kwTrue "true", plainToken .semicolon ";", plainToken .identifier "go",
    plainToken .semicolon ";", plainToken .identifier "go", plainToken .equal "=", plainToken .kwFalse "false",
    plainToken .rightParen ")", plainToken .kwPrint "print", textToken "once", plainToken .semicolon ";"]

-- The counting loops with all clauses and a body that prints.
def printingLoop : Stmt Unit → Option Counting
  | .block [.var name value, .loop test (.block [.print keyword text, .expr step])] =>
      some ⟨some (.var name value), some test, some step, .print keyword text⟩
  | _ => none

theorem printingLoop_faithful : Faithful printingLoop := by
  intro stmt loop sees
  unfold printingLoop at sees
  split at sees
  · cases sees
    refine ⟨rfl, ?_, rfl, rfl⟩
    intro start present
    cases present
    exact .var _ _
  · cases sees

theorem oneRound_runs :
    (readProgram oneRound).errors = [] ∧ misuses (readProgram oneRound).result = [] ∧
      (∃ stmt loop, (readProgram oneRound).result = [stmt] ∧ printingLoop stmt = some loop) ∧
      ∃ fuel clock globals,
        (Machine.start 8 (Sink.empty none) (Clock.ticking 0)).reports fuel [(readProgram oneRound).result] =
          [.ended none ((Sink.empty none).offer "once\n".toUTF8).2 clock globals] ∧
        ((Machine.start 8 (Sink.empty none) (Clock.ticking 0)).reports fuel [(readProgram oneRound).result]).map
          Report.shown = [some "once\n"] := by
  have read : (readProgram oneRound).errors = [] := by rfl
  have resolved : misuses (readProgram oneRound).result = [] := by rfl
  have rounds := trees_run_as_counting_loops 8 (Sink.empty none) (Clock.ticking 0) [oneRound] (by simpa using read)
    (by simpa using resolved) printingLoop printingLoop_faithful
  obtain ⟨clock, globals, ended⟩ : ∃ clock globals,
      (Manner.strict printingLoop).reports 20 (State.start 8 (Sink.empty none) (Clock.ticking 0))
        [(readProgram oneRound).result] = [.ended none ((Sink.empty none).offer "once\n".toUTF8).2 clock globals] :=
    ⟨_, _, rfl⟩
  obtain ⟨fuel, built⟩ := (rounds.1 _ (by simp)).mpr ⟨20, ended⟩
  have shown : ((Sink.empty none).offer "once\n".toUTF8).2.textFrom 0 = "once\n" := by decide +kernel
  refine ⟨read, resolved, ⟨_, _, rfl, rfl⟩, fuel, clock, globals, built, ?_⟩
  exact (congrArg (List.map Report.shown) built).trans (congrArg ([some ·]) shown)

end Treewalk.Lexical
