import Treewalk.Proofs.Settling

/-!
Returns stay inside functions. A statement returns only if it holds a `return` outside of the functions declared in it,
whatever the functions do that it calls: their own returns end at the call. The analysis refuses such a `return` at the
top level of a program, so the statements of an accepted program come to their ends or fail, and running them needs no
look at how each one ended.
-/

set_option autoImplicit false

namespace Treewalk

variable {ν : Type}

-- A return in a statement, outside of the functions declared in it.
inductive Stmt.HoldsReturn : Stmt ν → Prop where
  | ret (keyword : Token) (value : Option (Expr ν)) : HoldsReturn (.ret keyword value)
  | block (body : List (Stmt ν)) (stmt : Stmt ν) (inside : stmt ∈ body) (holds : stmt.HoldsReturn) :
      HoldsReturn (.block body)
  | yes (condition : Expr ν) (yes : Stmt ν) (no : Option (Stmt ν)) (holds : yes.HoldsReturn) :
      HoldsReturn (.branch condition yes no)
  | no (condition : Expr ν) (yes no : Stmt ν) (holds : no.HoldsReturn) : HoldsReturn (.branch condition yes (some no))
  | loop (condition : Expr ν) (body : Stmt ν) (holds : body.HoldsReturn) : HoldsReturn (.loop condition body)

-- A statement that ends so was allowed to return.
def Ending.Allowed (mayReturn : Prop) : Ending → Prop
  | .normal => True
  | .returned _ => mayReturn

theorem allowed_mono (fewer more : Prop) (implies : fewer → more) (ending : Ending) (allowed : ending.Allowed fewer) :
    ending.Allowed more := by
  cases ending with
  | normal => trivial
  | returned value => exact implies allowed

namespace Run

variable {α β : Type}

-- A run that ends with a value ends with a good one.
def Gives (good : α → Prop) (run : Run α) : Prop := ∀ machine value after, run machine = .done value after → good value

theorem gives_pure (good : α → Prop) (value : α) (holds : good value) : Gives good (pure value) := by
  intro machine other after ended
  cases ended
  exact holds

theorem gives_outOfFuel (good : α → Prop) : Gives good outOfFuel := by
  intro machine value after ended
  cases ended

theorem gives_bind (middle : α → Prop) (good : β → Prop) (first : Run α) (next : α → Run β) (start : first.Gives middle)
    (goOn : ∀ value, middle value → (next value).Gives good) : Gives good (first >>= next) := by
  intro machine value after ended
  change Run.bind first next machine = _ at ended
  simp only [Run.bind] at ended
  cases ran : first machine with
  | done between machine' =>
      rw [ran] at ended
      exact goOn between (start machine between machine' ran) machine' value after ended
  | fault fault machine' | outOfFuel =>
      rw [ran] at ended
      cases ended

-- Nothing need be known about what comes first.
theorem gives_after (good : β → Prop) (first : Run α) (next : α → Run β) (goOn : ∀ value, (next value).Gives good) :
    Gives good (first >>= next) :=
  gives_bind (fun _ => True) good first next (fun _ _ _ _ => trivial) fun value _ => goOn value

theorem gives_mono (fewer more : α → Prop) (run : Run α) (implies : ∀ value, fewer value → more value)
    (gives : run.Gives fewer) : run.Gives more :=
  fun machine value after ended => implies value (gives machine value after ended)

theorem gives_inFrame (good : α → Prop) (frame : FrameId) (body : Run α) (inside : body.Gives good) :
    Gives good (inFrame frame body) := by
  intro machine value after ended
  simp only [inFrame] at ended
  cases ran : body { machine with frame := frame } with
  | done other last =>
      rw [ran] at ended
      cases ended
      exact inside _ _ _ ran
  | fault fault last | outOfFuel =>
      rw [ran] at ended
      cases ended

end Run

open Run

structure ReturnsWithin (fuel : Nat) : Prop where
  exec : ∀ stmt, (exec fuel stmt).Gives (Ending.Allowed stmt.HoldsReturn)
  execAll : ∀ stmts, (execAll fuel stmts).Gives (Ending.Allowed (∃ stmt ∈ stmts, stmt.HoldsReturn))
  execLoop : ∀ condition body, (execLoop fuel condition body).Gives (Ending.Allowed body.HoldsReturn)

section

variable (fuel : Nat) (ih : ReturnsWithin fuel)

include ih

theorem exec_returns (stmt : Stmt NodeId) : (exec (fuel + 1) stmt).Gives (Ending.Allowed stmt.HoldsReturn) := by
  cases stmt with
  | ret keyword value =>
      have allowed (result : Value) : Ending.Allowed (Stmt.ret keyword value).HoldsReturn (.returned result) :=
        .ret keyword value
      cases value with
      | none => exact gives_pure _ _ (allowed .nil)
      | some value => exact gives_after _ _ _ fun result => gives_pure _ _ (allowed result)
  | print keyword value => exact gives_after _ _ _ fun _ => gives_after _ _ _ fun _ => gives_pure _ _ trivial
  | expr value => exact gives_after _ _ _ fun _ => gives_pure _ _ trivial
  | var name value =>
      cases value with
      | none => exact gives_after _ _ _ fun _ => gives_pure _ _ trivial
      | some value => exact gives_after _ _ _ fun _ => gives_after _ _ _ fun _ => gives_pure _ _ trivial
  | block body =>
      refine gives_after _ _ _ fun frame => gives_inFrame _ frame _ (gives_mono _ _ _ ?_ (ih.execAll body))
      apply allowed_mono
      rintro ⟨stmt, inside, holds⟩
      exact .block body stmt inside holds
  | func name params body => exact gives_after _ _ _ fun _ => gives_after _ _ _ fun _ => gives_pure _ _ trivial
  | branch condition yes no =>
      refine gives_after _ _ _ fun test => ?_
      refine iteInduction (motive := Gives _) (fun _ => ?_) fun _ => ?_
      · exact gives_mono _ _ _ (allowed_mono _ _ (.yes condition yes no)) (ih.exec yes)
      · cases no with
        | none => exact gives_pure _ _ trivial
        | some no => exact gives_mono _ _ _ (allowed_mono _ _ (.no condition yes no)) (ih.exec no)
  | loop condition body => exact gives_mono _ _ _ (allowed_mono _ _ (.loop condition body)) (ih.execLoop condition body)

theorem execAll_returns (stmts : List (Stmt NodeId)) :
    (execAll (fuel + 1) stmts).Gives (Ending.Allowed (∃ stmt ∈ stmts, stmt.HoldsReturn)) := by
  cases stmts with
  | nil => exact gives_pure _ _ trivial
  | cons first rest =>
      refine gives_bind _ _ _ _ (ih.exec first) fun ending allowed => ?_
      cases ending with
      | normal =>
          refine gives_mono _ _ _ (allowed_mono _ _ ?_) (ih.execAll rest)
          rintro ⟨stmt, inside, holds⟩
          exact ⟨stmt, List.mem_cons_of_mem _ inside, holds⟩
      | returned value => exact gives_pure _ _ ⟨first, List.mem_cons_self, allowed⟩

theorem execLoop_returns (condition : Expr NodeId) (body : Stmt NodeId) :
    (execLoop (fuel + 1) condition body).Gives (Ending.Allowed body.HoldsReturn) := by
  refine gives_after _ _ _ fun test => ?_
  refine iteInduction (motive := Gives _) (fun _ => ?_) fun _ => gives_pure _ _ trivial
  refine gives_bind _ _ _ _ (ih.exec body) fun ending allowed => ?_
  cases ending with
  | normal => exact ih.execLoop condition body
  | returned value => exact gives_pure _ _ allowed

end

theorem returns_within (fuel : Nat) : ReturnsWithin fuel := by
  induction fuel with
  | zero =>
      constructor
      all_goals intros
      all_goals exact gives_outOfFuel _
  | succ fuel ih => exact ⟨exec_returns fuel ih, execAll_returns fuel ih, execLoop_returns fuel ih⟩

-- The analysis meets every return that a statement holds, and takes it to be in a function only where the statement is.

theorem mentionsAll_mem (inFunction : Bool) (stmts : List (Stmt ν)) (stmt : Stmt ν) (inside : stmt ∈ stmts) :
    ∀ scopes, ∃ between, ∀ mention ∈ stmt.mentions inFunction between,
      mention ∈ Stmt.mentionsAll inFunction scopes stmts := by
  induction stmts with
  | nil => cases inside
  | cons first rest ih =>
      intro scopes
      rcases List.mem_cons.mp inside with rfl | later
      · exact ⟨scopes, fun mention mentioned => List.mem_append_left _ mentioned⟩
      · obtain ⟨between, among⟩ := ih later (first.after scopes)
        exact ⟨between, fun mention mentioned => List.mem_append_right _ (among mention mentioned)⟩

theorem holdsReturn_mentioned (inFunction : Bool) (stmt : Stmt ν) (holds : stmt.HoldsReturn) :
    ∀ scopes, ∃ keyword, .leaving inFunction keyword ∈ stmt.mentions inFunction scopes := by
  induction holds with
  | ret keyword value => exact fun _ => ⟨keyword, List.mem_cons_self⟩
  | block body stmt inside _ ih =>
      intro scopes
      obtain ⟨between, among⟩ := mentionsAll_mem inFunction body stmt inside ([] :: scopes)
      obtain ⟨keyword, mentioned⟩ := ih between
      exact ⟨keyword, among _ mentioned⟩
  | yes condition yes no _ ih =>
      intro scopes
      obtain ⟨keyword, mentioned⟩ := ih scopes
      cases no with
      | none => exact ⟨keyword, List.mem_append_right _ mentioned⟩
      | some no => exact ⟨keyword, List.mem_append_left _ (List.mem_append_right _ mentioned)⟩
  | no condition yes no _ ih =>
      intro scopes
      obtain ⟨keyword, mentioned⟩ := ih (yes.after scopes)
      exact ⟨keyword, List.mem_append_right _ mentioned⟩
  | loop condition body _ ih =>
      intro scopes
      obtain ⟨keyword, mentioned⟩ := ih scopes
      exact ⟨keyword, List.mem_append_right _ mentioned⟩

theorem accepted_holds_no_return (program : List (Stmt ν)) (accepted : misuses program = []) (stmt : Stmt ν)
    (inside : stmt ∈ program) : ¬ stmt.HoldsReturn := by
  intro holds
  obtain ⟨between, among⟩ := mentionsAll_mem false program stmt inside []
  obtain ⟨keyword, mentioned⟩ := holdsReturn_mentioned false stmt holds between
  rw [misuses_mentions, List.flatMap_eq_nil_iff] at accepted
  have clean := accepted _ (among _ mentioned)
  simp [Mention.findings, Finding.error?] at clean

-- Runs statements in order, up to one that returns, and tells how they ended.
def runStopping (fuel : Nat) : List (Stmt NodeId) → Run Ending
  | [] => return .normal
  | first :: rest => do
      match ← exec fuel first with
      | .normal => runStopping fuel rest
      | .returned value => return .returned value

-- How a statement ends that holds no return.
inductive Outcome.Unreturned : Outcome Ending → Prop where
  | normal (after : Machine) : Unreturned (.done .normal after)
  | fault (fault : Fault) (after : Machine) : Unreturned (.fault fault after)
  | outOfFuel : Unreturned .outOfFuel

theorem exec_unreturned (fuel : Nat) (stmt : Stmt NodeId) (none : ¬ stmt.HoldsReturn) (machine : Machine) :
    (exec fuel stmt machine).Unreturned := by
  cases ran : exec fuel stmt machine with
  | done ending after =>
      cases ending with
      | normal => exact .normal after
      | returned value => exact absurd ((returns_within fuel).exec stmt machine _ after ran) none
  | fault fault after => exact .fault fault after
  | outOfFuel => exact .outOfFuel

theorem runStopping_runs (fuel : Nat) (program : List (Stmt NodeId)) : (∀ stmt ∈ program, ¬ stmt.HoldsReturn) →
    ∀ machine, runStopping fuel program machine = (runProgram fuel program >>= fun _ => pure .normal) machine := by
  induction program with
  | nil => exact fun _ _ => rfl
  | cons first rest ih =>
      intro none machine
      rw [List.forall_mem_cons] at none
      change Run.bind (exec fuel first) _ machine = Run.bind (Run.bind (exec fuel first) _) _ machine
      have ended := exec_unreturned fuel first none.1 machine
      simp only [Run.bind]
      generalize exec fuel first machine = outcome at ended
      cases ended with
      | normal after => exact ih none.2 after
      | fault fault after => rfl
      | outOfFuel => rfl

-- A statement that returns holds a return outside of its functions. The statements of an accepted program hold none, so
-- none of them returns from any state, and a run that looked for returns would be the run that does not.
theorem returns_stay_inside_functions :
    (∀ (fuel : Nat) (stmt : Stmt NodeId) (machine after : Machine) (value : Value),
      exec fuel stmt machine = .done (.returned value) after → stmt.HoldsReturn) ∧
    ∀ (machine : Machine) (program : List (Stmt NodeId)), (machine.analyse program).1 = [] →
      (∀ stmt ∈ program, ∀ (fuel : Nat) (start : Machine), (exec fuel stmt start).Unreturned) ∧
      ∀ (fuel : Nat) (start : Machine),
        runStopping fuel program start = (runProgram fuel program >>= fun _ => pure .normal) start := by
  constructor
  · intro fuel stmt machine after value ended
    exact (returns_within fuel).exec stmt machine _ after ended
  · intro machine program accepted
    have none := accepted_holds_no_return program accepted
    exact ⟨fun stmt inside fuel start => exec_unreturned fuel stmt (none stmt inside) start,
      fun fuel start => runStopping_runs fuel program none start⟩

-- A function of `while (true) { return "found"; }`, called at the top level.

def finding : Stmt NodeId :=
  .loop (.literal (.boolean true))
    (.block [.ret ⟨.kwReturn, "return", none, 1⟩ (some (.literal (.text "found")))])

def findName : Token := ⟨.identifier, "find", none, 1⟩

def callingFind : List (Stmt NodeId) :=
  [.func findName [] [finding], .expr (.call (.var 0 findName) ⟨.rightParen, ")", none, 1⟩ [])]

-- The loop returns, and the statements of the program, which calls it, never do.
theorem finding_returns :
    (∃ after, exec 6 finding (Machine.start 1 (Sink.empty none) (Clock.ticking 0)) =
      .done (.returned (.text "found")) after) ∧ finding.HoldsReturn ∧
    ((Machine.start 1 (Sink.empty none) (Clock.ticking 0)).analyse callingFind).1 = [] ∧
    ∀ stmt ∈ callingFind, ∀ (fuel : Nat) (start : Machine), (exec fuel stmt start).Unreturned := by
  obtain ⟨returning, accepted⟩ := returns_stay_inside_functions
  have returned : ∃ after, exec 6 finding (Machine.start 1 (Sink.empty none) (Clock.ticking 0)) =
      .done (.returned (.text "found")) after := ⟨_, rfl⟩
  have clean : ((Machine.start 1 (Sink.empty none) (Clock.ticking 0)).analyse callingFind).1 = [] := by rfl
  obtain ⟨after, ended⟩ := returned
  exact ⟨⟨after, ended⟩, returning 6 finding _ after _ ended, clean, (accepted _ callingFind clean).1⟩

end Treewalk
