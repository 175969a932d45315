import Treewalk.Proofs.BareExpressions

/-!
What a session tells about its mistakes. As long as the sink refuses nothing, a step keeps all earlier messages, raises
at most one of the two flags, and raises one exactly if it has added a message. A rejected step leaves the output and
the frames alone, and showing trees leaves all of the machine but its output alone. This holds of every step of every
sequence, whatever went wrong before it.
-/

set_option autoImplicit false

namespace Treewalk

namespace Session

-- The ways in which a step can end. Trees are shown also for a text with complaints, and a run that was refused may
-- have recorded distances.
inductive Ends (kind : Step) (source : String) (session : Session) : Session → Prop where
  | rejected (ready : Machine) (complaints : List String) (mistaken : complaints ≠ [])
      (sink : ready.sink = session.machine.sink) (heap : ready.heap = session.machine.heap)
      (untouched : kind = .tree → ready = session.machine) :
      Ends kind source session ({ session.reset with machine := ready }.reject complaints)
  | concluded (outcome : Outcome Unit) (after : Session) (runs : kind ≠ .tree)
      (policy : ∀ machine, outcome.machine? = some machine → machine.sink.policy = session.machine.sink.policy)
      (ended : session.reset.conclude outcome = some after) : Ends kind source session after
  | shown (complaints : List String) (sink : Sink) (scanned : (scan source).errors = []) (isTree : kind = .tree)
      (policy : sink.policy = session.machine.sink.policy) :
      Ends kind source session
        { session.reset.reject complaints with machine := { session.machine with sink := sink } }

theorem interpret_policy (fuel : Nat) (program : List (Stmt Unit)) (machine after : Machine)
    (ended : (Machine.interpret fuel program machine).machine? = some after) :
    after.sink.policy = machine.sink.policy :=
  runProgram_keeps unmoved_policy fuel (machine.prepare program).1 (machine.prepare program).2 after ended

theorem ends_execute (fuel : Nat) (kind : Step) (source : String) (session after : Session) (program : List (Stmt Unit))
    (runs : kind ≠ .tree) (executed : session.reset.execute fuel program = some after) :
    Ends kind source session after := by
  by_cases resolved : misuses program = []
  · rw [execute_resolved fuel session.reset program resolved] at executed
    exact .concluded _ after runs (interpret_policy fuel program session.machine) executed
  · rw [execute_misused fuel session.reset program resolved] at executed
    cases executed
    exact .rejected _ _ (by simpa using resolved) rfl rfl fun isTree => absurd isTree runs

theorem ends_evaluate (fuel : Nat) (kind : Step) (source : String) (session after : Session) (tree : Expr Unit)
    (runs : kind ≠ .tree) (reliable : session.machine.sink.Reliable)
    (evaluated : session.reset.evaluate fuel tree = some after) : Ends kind source session after := by
  -- Any token will do as the keyword that prints.
  rw [evaluate_prints fuel session.reset (Token.endAt 1) tree reliable] at evaluated
  exact .concluded _ after runs (interpret_policy (fuel + 1) _ session.machine) evaluated

theorem ends_runTokens (fuel : Nat) (kind : Step) (source : String) (session after : Session) (tokens : List Token)
    (runs : kind ≠ .tree) (ran : session.reset.runTokens fuel tokens = some after) :
    Ends kind source session after := by
  by_cases read : (readProgram tokens).errors = []
  · rw [runTokens_read fuel session.reset tokens read] at ran
    exact ends_execute fuel kind source session after _ runs ran
  · rw [runTokens_unread fuel session.reset tokens read] at ran
    cases ran
    exact .rejected session.machine _ (by simpa using read) rfl rfl fun _ => rfl

theorem ends_runLineTokens (fuel : Nat) (kind : Step) (source : String) (session after : Session) (tokens : List Token)
    (runs : kind ≠ .tree) (reliable : session.machine.sink.Reliable)
    (ran : session.reset.runLineTokens fuel tokens = some after) : Ends kind source session after := by
  by_cases read : (readProgram tokens).errors = []
  · rw [runLineTokens_read fuel session.reset tokens read] at ran
    exact ends_runTokens fuel kind source session after tokens runs ran
  · rw [runLineTokens_unread fuel session.reset tokens read] at ran
    cases expression : (readExpression tokens).result with
    | none =>
        rw [expression] at ran
        exact ends_runTokens fuel kind source session after tokens runs ran
    | some tree =>
        rw [expression] at ran
        exact ends_evaluate fuel kind source session after tree runs reliable ran

theorem echo_reliable (lines : List String) : ∀ session : Session, session.machine.sink.Reliable →
    ∃ sink, session.echo lines = { session with machine := { session.machine with sink := sink } } ∧
      sink.policy = session.machine.sink.policy := by
  induction lines with
  | nil => exact fun session _ => ⟨session.machine.sink, rfl, rfl⟩
  | cons line rest ih =>
      intro session reliable
      have taken := emit_reliable session.machine (line ++ "\n") reliable
      have written : (session.machine.emit (line ++ "\n")).2 =
          { session.machine with sink := (session.machine.emit (line ++ "\n")).2.sink } := rfl
      have policy : (session.machine.emit (line ++ "\n")).2.sink.policy = session.machine.sink.policy := rfl
      rw [echo]
      generalize session.machine.emit (line ++ "\n") = emitted at taken written policy
      obtain ⟨refusal, machine⟩ := emitted
      cases taken
      obtain ⟨sink, shown, same⟩ := ih { session with machine := machine }
        (reliable_of_policy session.machine.sink machine.sink policy reliable)
      refine ⟨sink, ?_, same.trans policy⟩
      dsimp only at written ⊢
      rw [shown, written]

theorem ends_showTrees (source : String) (session : Session) (tokens : List Token)
    (scanned : (scan source).errors = []) (reliable : session.machine.sink.Reliable) :
    Ends .tree source session (session.reset.showTrees tokens) := by
  unfold showTrees
  dsimp only
  rw [rejectParse]
  generalize (readProgram tokens).errors.map ParseError.display = complaints
  have machine := reject_machine session.reset complaints
  obtain ⟨sink, shown, policy⟩ := echo_reliable ((readProgram tokens).result.map Stmt.render)
    (session.reset.reject complaints) (by rw [machine]; exact reliable)
  rw [shown, machine]
  rw [machine] at policy
  exact .shown complaints sink scanned rfl policy

-- All that a step can do.
theorem step_ends (fuel : Nat) (kind : Step) (source : String) (session after : Session)
    (reliable : session.machine.sink.Reliable) (stepped : session.step fuel kind source = some after) :
    Ends kind source session after := by
  by_cases scanned : (scan source).errors = []
  · cases kind with
    | run =>
        rw [step_run fuel session source scanned] at stepped
        exact ends_runTokens fuel .run source session after _ (by decide) stepped
    | line =>
        rw [step_line fuel session source scanned] at stepped
        exact ends_runLineTokens fuel .line source session after _ (by decide) reliable stepped
    | tree =>
        rw [step_tree fuel session source scanned] at stepped
        cases stepped
        exact ends_showTrees source session _ scanned reliable
  · rw [step_unscanned fuel session source kind scanned] at stepped
    cases stepped
    exact .rejected session.machine _ (by simpa using scanned) rfl rfl fun _ => rfl

theorem reject_complaints (session : Session) (complaints : List String) (mistaken : complaints ≠ []) :
    session.reject complaints =
      { session with messages := session.messages ++ complaints, hadError := true } := by
  rw [reject, if_neg (by simpa using mistaken)]

-- What a step is to tell about its mistakes.
structure Tells (kind : Step) (source : String) (before after : Session) : Prop where
  messages : ∃ added, after.messages = before.messages ++ added ∧
    (after.hadError = true ∨ after.hadRuntimeError = true ↔ added ≠ []) ∧
    (after.hadRuntimeError = true → added.length = 1)
  oneFlag : ¬ (after.hadError = true ∧ after.hadRuntimeError = true)
  shownAll : after.failure = none
  rejected : after.hadError = true → (scan source).errors ≠ [] ∨ kind ≠ .tree →
    after.machine.sink = before.machine.sink ∧ after.machine.heap = before.machine.heap
  trees : kind = .tree → after.machine.heap = before.machine.heap ∧
    after.machine.distances = before.machine.distances ∧ after.machine.depth = before.machine.depth

theorem tells_rejected (kind : Step) (source : String) (session : Session) (ready : Machine) (complaints : List String)
    (mistaken : complaints ≠ []) (sink : ready.sink = session.machine.sink) (heap : ready.heap = session.machine.heap)
    (untouched : kind = .tree → ready = session.machine) :
    Tells kind source session ({ session.reset with machine := ready }.reject complaints) := by
  rw [reject_complaints _ complaints mistaken]
  refine ⟨⟨complaints, rfl, ?_, ?_⟩, ?_, rfl, fun _ _ => ⟨sink, heap⟩, ?_⟩
  · simpa [reset] using mistaken
  · simp [reset]
  · simp [reset]
  · intro isTree
    rw [untouched isTree]
    exact ⟨rfl, rfl, rfl⟩

theorem tells_concluded (kind : Step) (source : String) (session after : Session) (outcome : Outcome Unit)
    (runs : kind ≠ .tree) (ended : session.reset.conclude outcome = some after) : Tells kind source session after := by
  cases outcome with
  | done value machine =>
      cases ended
      exact ⟨⟨[], by simp [reset], by simp [reset], by simp [reset]⟩, by simp [reset], rfl, by simp [reset],
        fun isTree => absurd isTree runs⟩
  | fault fault machine =>
      cases ended
      exact ⟨⟨[fault.display], rfl, by simp [report], fun _ => rfl⟩, by simp [report, reset], rfl,
        by simp [report, reset], fun isTree => absurd isTree runs⟩
  | outOfFuel => cases ended

theorem tells_shown (source : String) (session : Session) (complaints : List String) (sink : Sink)
    (scanned : (scan source).errors = []) :
    Tells .tree source session
      { session.reset.reject complaints with machine := { session.machine with sink := sink } } := by
  have notUnscanned : ¬ ((scan source).errors ≠ [] ∨ Step.tree ≠ .tree) := by simp [scanned]
  by_cases mistaken : complaints = []
  · subst mistaken
    exact ⟨⟨[], by simp [reset, reject], by simp [reset, reject], by simp [reset, reject]⟩, by simp [reset, reject],
      rfl, fun _ unscanned => absurd unscanned notUnscanned, fun _ => ⟨rfl, rfl, rfl⟩⟩
  · rw [reject_complaints _ complaints mistaken]
    exact ⟨⟨complaints, rfl, by simpa using mistaken, by simp [reset]⟩, by simp [reset], rfl,
      fun _ unscanned => absurd unscanned notUnscanned, fun _ => ⟨rfl, rfl, rfl⟩⟩

theorem tells_of_ends (kind : Step) (source : String) (session after : Session)
    (ends : Ends kind source session after) : Tells kind source session after := by
  cases ends with
  | rejected ready complaints mistaken sink heap untouched =>
      exact tells_rejected kind source session ready complaints mistaken sink heap untouched
  | concluded outcome _ runs policy ended => exact tells_concluded kind source session after outcome runs ended
  | shown complaints sink scanned isTree policy =>
      subst isTree
      exact tells_shown source session complaints sink scanned

theorem policy_of_ends (kind : Step) (source : String) (session after : Session)
    (ends : Ends kind source session after) : after.machine.sink.policy = session.machine.sink.policy := by
  cases ends with
  | rejected ready complaints mistaken sink heap untouched =>
      rw [reject_machine]
      exact congrArg Sink.policy sink
  | concluded outcome _ runs policy ended =>
      exact policy after.machine (conclude_machine session.reset after outcome ended)
  | shown complaints sink scanned isTree policy => exact policy

-- A step that was taken: the session before it and the one behind it.
structure Taken where
  kind : Step
  source : String
  before : Session
  after : Session

-- Steps one after another, each with fuel of its own.
inductive Path : Session → List Taken → Prop where
  | stop (session : Session) : Path session []
  | step (session after : Session) (fuel : Nat) (kind : Step) (source : String) (rest : List Taken)
      (stepped : session.step fuel kind source = some after) (later : Path after rest) :
      Path session (⟨kind, source, session, after⟩ :: rest)

theorem errors_told_along (session : Session) (path : List Taken) (reliable : session.machine.sink.Reliable)
    (walked : session.Path path) : ∀ taken ∈ path, Tells taken.kind taken.source taken.before taken.after := by
  induction walked with
  | stop session => simp
  | step session after fuel kind source rest stepped later ih =>
      have ends := step_ends fuel kind source session after reliable stepped
      have stillReliable := reliable_of_policy session.machine.sink after.machine.sink
        (policy_of_ends kind source session after ends) reliable
      rw [List.forall_mem_cons]
      exact ⟨tells_of_ends kind source session after ends, ih stillReliable⟩

-- A program that cannot be read, an expression that fails, a text that cannot be scanned, and a value that is shown.

def behind (session : Session) (kind : Step) (source : String) : Session := (session.step 9 kind source).getD session

theorem step_behind (session : Session) (kind : Step) (source : String)
    (ended : (session.step 9 kind source).isSome = true) :
    session.step 9 kind source = some (session.behind kind source) := by
  obtain ⟨after, stepped⟩ := Option.isSome_iff_exists.mp ended
  rw [behind, stepped]
  rfl

def unreadable : Session := freshSession.behind .run "print ;"

def failing : Session := unreadable.behind .line "-\"one\""

def unscannable : Session := failing.behind .tree "@"

def showing : Session := unscannable.behind .line "\"one\""

def fourSteps : List Taken :=
  [⟨.run, "print ;", freshSession, unreadable⟩, ⟨.line, "-\"one\"", unreadable, failing⟩,
    ⟨.tree, "@", failing, unscannable⟩, ⟨.line, "\"one\"", unscannable, showing⟩]

theorem four_steps_told :
    freshSession.machine.sink.Reliable ∧ freshSession.Path fourSteps ∧
    fourSteps.map (fun taken => (taken.after.hadError, taken.after.hadRuntimeError, taken.after.messages.length)) =
      [(true, false, 1), (false, true, 2), (true, false, 3), (false, false, 3)] ∧
    ∀ taken ∈ fourSteps, Tells taken.kind taken.source taken.before taken.after := by
  have walked : freshSession.Path fourSteps :=
    .step _ _ 9 _ _ _ (step_behind _ _ _ (by decide +kernel)) <|
      .step _ _ 9 _ _ _ (step_behind _ _ _ (by decide +kernel)) <|
        .step _ _ 9 _ _ _ (step_behind _ _ _ (by decide +kernel)) <|
          .step _ _ 9 _ _ _ (step_behind _ _ _ (by decide +kernel)) (.stop _)
  exact ⟨reliable_empty, walked, by decide +kernel, errors_told_along freshSession fourSteps reliable_empty walked⟩

end Session

end Treewalk
