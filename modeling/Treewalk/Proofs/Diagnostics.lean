import Treewalk.Proofs.ErrorState
import Treewalk.Proofs.SourcedReadings
import Treewalk.Proofs.SourcedRuns

/-!
Messages and the text they are about. What a program is told about its mistakes, at whichever stage it is stopped,
points at tokens of its own text: at the very token for mistakes in reading and for misused names, at a token on the
same line for a fault. So no message gives a line that the text does not have.
-/

set_option autoImplicit false

namespace Treewalk

variable {ν : Type}

-- Names are misused where they are mentioned.

def Mention.token : Mention ν → Token
  | .use mentioned _ => mentioned.name
  | .binding name _ => name
  | .leaving _ keyword => keyword

theorem misuse_token (mention : Mention ν) (error : ScopeError)
    (found : error ∈ mention.findings.filterMap Finding.error?) : error.token = mention.token := by
  obtain ⟨finding, inside, isError⟩ := List.mem_filterMap.mp found
  cases finding with
  | distance label scopes => cases isError
  | misuse reported =>
      cases isError
      cases mention with
      | use mentioned scopes =>
          obtain ⟨label, name, writes⟩ := mentioned
          have undistanced : Finding.misuse error ∉ Scope.found scopes label name := by
            simp [Scope.found]
          have early := (List.mem_append.mp inside).resolve_right undistanced
          cases writes with
          | true => cases early
          | false =>
              by_cases pending : scopes.head?.bind (·.lookup name.lexeme) = some false
              · simp only [Bool.false_eq_true, if_false, Scope.premature, pending, if_true, List.mem_singleton] at early
                cases early
                rfl
              · simp [Scope.premature, pending] at early
      | binding name scopes =>
          cases scopes with
          | nil => cases inside
          | cons inner outer =>
              by_cases declared : inner.declares name.lexeme = true
              · simp only [Mention.findings, Scope.repeated, declared, if_true, List.mem_singleton] at inside
                cases inside
                rfl
              · simp [Mention.findings, Scope.repeated, declared] at inside
      | leaving inFunction keyword =>
          cases inFunction with
          | true => cases inside
          | false =>
              cases List.mem_singleton.mp inside
              rfl

mutual
theorem Expr.uses_sourced (known : List Token) : (expr : Expr ν) → expr.Sourced known →
    ∀ use ∈ expr.uses, use.name ∈ known
  | .literal _, _ => by simp [Expr.uses]
  | .group inner, sourced => Expr.uses_sourced known inner sourced
  | .unary _ operand, sourced => Expr.uses_sourced known operand sourced.2
  | .binary left _ right, sourced | .logical left _ right, sourced =>
      List.forall_mem_append.mpr ⟨Expr.uses_sourced known left sourced.1, Expr.uses_sourced known right sourced.2.2⟩
  | .ternary condition yes no, sourced =>
      List.forall_mem_append.mpr ⟨List.forall_mem_append.mpr
        ⟨Expr.uses_sourced known condition sourced.1, Expr.uses_sourced known yes sourced.2.1⟩,
        Expr.uses_sourced known no sourced.2.2⟩
  | .comma first second, sourced =>
      List.forall_mem_append.mpr ⟨Expr.uses_sourced known first sourced.1, Expr.uses_sourced known second sourced.2⟩
  | .var _ name, sourced => by simpa [Expr.uses] using sourced.1
  | .assign _ name value, sourced =>
      List.forall_mem_append.mpr ⟨Expr.uses_sourced known value sourced.2, by simpa using sourced.1.1⟩
  | .call callee _ arguments, sourced =>
      List.forall_mem_append.mpr
        ⟨Expr.uses_sourced known callee sourced.1, Expr.usesAll_sourced known arguments sourced.2.2⟩
theorem Expr.usesAll_sourced (known : List Token) : (exprs : List (Expr ν)) → Expr.SourcedAll known exprs →
    ∀ use ∈ Expr.usesAll exprs, use.name ∈ known
  | [], _ => by simp [Expr.usesAll]
  | first :: rest, sourced =>
      List.forall_mem_append.mpr ⟨Expr.uses_sourced known first sourced.1, Expr.usesAll_sourced known rest sourced.2⟩
end

theorem use_mentions_sourced (known : List Token) (expr : Expr ν) (scopes : List Scope) (sourced : expr.Sourced known) :
    ∀ mention ∈ expr.uses.map (.use · scopes), Mention.token mention ∈ known := by
  rw [List.forall_mem_map]
  exact Expr.uses_sourced known expr sourced

theorem option_mentions_sourced (known : List Token) (value : Option (Expr ν)) (scopes : List Scope)
    (sourced : Expr.SourcedOption known value) :
    ∀ mention ∈ (Expr.usesOption value).map (.use · scopes), Mention.token mention ∈ known := by
  cases value with
  | none => simp [Expr.usesOption]
  | some expr => exact use_mentions_sourced known expr scopes (sourced expr rfl)

theorem bindingMentions_sourced (known params : List Token) (inside : ∀ param ∈ params, param ∈ known) :
    ∀ (scopes : List Scope) (mention : Mention ν), mention ∈ bindingMentions scopes params → mention.token ∈ known := by
  induction params with
  | nil => simp [bindingMentions]
  | cons first rest ih =>
      rw [List.forall_mem_cons] at inside
      intro scopes
      exact List.forall_mem_cons.mpr ⟨inside.1, ih inside.2 _⟩

mutual
theorem Stmt.mentions_sourced (known : List Token) : (stmt : Stmt ν) → (inFunction : Bool) → (scopes : List Scope) →
    stmt.Sourced known → ∀ mention ∈ stmt.mentions inFunction scopes, mention.token ∈ known
  | .ret _ value, _, scopes, sourced =>
      List.forall_mem_cons.mpr ⟨sourced.1, option_mentions_sourced known value scopes sourced.2⟩
  | .print _ value, _, scopes, sourced => use_mentions_sourced known value scopes sourced.2
  | .expr value, _, scopes, sourced => use_mentions_sourced known value scopes sourced
  | .var _ value, _, _, sourced =>
      List.forall_mem_cons.mpr ⟨sourced.1.1, option_mentions_sourced known value _ sourced.2⟩
  | .block body, inFunction, _, sourced => Stmt.mentionsAll_sourced known body inFunction _ sourced
  | .func _ params body, _, _, sourced =>
      List.forall_mem_cons.mpr ⟨sourced.1.1, List.forall_mem_append.mpr
        ⟨bindingMentions_sourced known params (fun param inside => (sourced.2.1 param inside).1) _,
          Stmt.mentionsAll_sourced known body true _ sourced.2.2⟩⟩
  | .branch condition yes none, inFunction, scopes, sourced =>
      List.forall_mem_append.mpr ⟨use_mentions_sourced known condition scopes sourced.1,
        Stmt.mentions_sourced known yes inFunction scopes sourced.2⟩
  | .branch condition yes (some no), inFunction, scopes, sourced =>
      List.forall_mem_append.mpr ⟨List.forall_mem_append.mpr
        ⟨use_mentions_sourced known condition scopes sourced.1,
          Stmt.mentions_sourced known yes inFunction scopes sourced.2.1⟩,
        Stmt.mentions_sourced known no inFunction _ sourced.2.2⟩
  | .loop condition body, inFunction, scopes, sourced =>
      List.forall_mem_append.mpr ⟨use_mentions_sourced known condition scopes sourced.1,
        Stmt.mentions_sourced known body inFunction scopes sourced.2⟩
theorem Stmt.mentionsAll_sourced (known : List Token) : (stmts : List (Stmt ν)) → (inFunction : Bool) →
    (scopes : List Scope) → Stmt.SourcedAll known stmts →
    ∀ mention ∈ Stmt.mentionsAll inFunction scopes stmts, mention.token ∈ known
  | [], _, _, _ => by simp [Stmt.mentionsAll]
  | first :: rest, inFunction, scopes, sourced =>
      List.forall_mem_append.mpr ⟨Stmt.mentions_sourced known first inFunction scopes sourced.1,
        Stmt.mentionsAll_sourced known rest inFunction _ sourced.2⟩
end

theorem misuses_sourced (known : List Token) (program : List (Stmt ν)) (sourced : Stmt.SourcedAll known program) :
    ∀ error ∈ misuses program, error.token ∈ known := by
  intro error found
  rw [misuses_mentions] at found
  obtain ⟨mention, mentioned, inside⟩ := List.mem_flatMap.mp found
  rw [misuse_token mention error inside]
  exact Stmt.mentionsAll_sourced known program false [] sourced mention mentioned

-- Lines on which tokens and mistakes in tokens are found.

theorem ofPieces_lines (pieces : List Piece) : ∀ line : Int,
    (∀ token ∈ (Scan.ofPieces line pieces).tokens, line ≤ token.line ∧ token.line ≤ line + newlinesOf pieces) ∧
    ∀ error ∈ (Scan.ofPieces line pieces).errors, line ≤ error.line ∧ error.line ≤ line + newlinesOf pieces := by
  induction pieces with
  | nil =>
      intro line
      simp [Scan.ofPieces, Token.endAt, newlinesOf]
  | cons piece rest ih =>
      intro line
      obtain ⟨tokens, errors⟩ := ih (line + piece.newlines)
      have total : newlinesOf (piece :: rest) = piece.newlines + newlinesOf rest := by
        simp only [newlinesOf, List.map_cons, List.sum_cons]
      have later (found : Int)
          (bounds : line + piece.newlines ≤ found ∧ found ≤ line + piece.newlines + newlinesOf rest) :
          line ≤ found ∧ found ≤ line + newlinesOf (piece :: rest) := by
        rw [total]
        omega
      constructor
      · intro token inside
        rcases List.mem_append.mp inside with here | behind
        · cases piece with
          | token kind literal text =>
              cases List.mem_singleton.mp here
              dsimp only
              omega
          | _ => cases here
        · exact later token.line (tokens token behind)
      · intro error inside
        rcases List.mem_append.mp inside with here | behind
        · cases piece with
          | stray =>
              cases List.mem_singleton.mp here
              dsimp only
              omega
          | unclosed =>
              cases List.mem_singleton.mp here
              dsimp only
              omega
          | _ => cases here
        · exact later error.line (errors error behind)

-- What a program is told, at whichever stage.

inductive Diagnosis where
  | scanning (error : ScanError)
  | reading (error : ParseError)
  | scoping (error : ScopeError)
  | running (fault : Fault)

namespace Diagnosis

def display : Diagnosis → String
  | .scanning error => error.display
  | .reading error => error.display
  | .scoping error => error.display
  | .running fault => fault.display

def line : Diagnosis → Int
  | .scanning error => error.line
  | .reading error => error.token.line
  | .scoping error => error.token.line
  | .running fault => fault.line

-- What cannot be scanned is no token, so there is none to point at.
def PointsInto (known : List Token) : Diagnosis → Prop
  | .scanning _ => True
  | .reading error => error.token ∈ known
  | .scoping error => error.token ∈ known
  | .running fault => fault.PointsInto known

end Diagnosis

def diagnoses (fuel : Nat) (source : String) (machine : Machine) : List Diagnosis :=
  if !(scan source).errors.isEmpty then (scan source).errors.map .scanning
  else if !(readProgram (scan source).tokens).errors.isEmpty then
    (readProgram (scan source).tokens).errors.map .reading
  else if !(misuses (programOf source)).isEmpty then (misuses (programOf source)).map .scoping
  else match Machine.interpret fuel (programOf source) machine with
    | .fault fault _ => [.running fault]
    | _ => []

-- These are the messages that a step adds, on any session.
theorem run_messages (fuel : Nat) (source : String) (session after : Session)
    (ran : session.step fuel .run source = some after) :
    after.messages = session.messages ++ (diagnoses fuel source session.machine).map Diagnosis.display := by
  have complained {α : Type} (errors : List α) (build : α → Diagnosis) (machine : Machine) (mistaken : errors ≠ []) :
      ({ session.reset with machine := machine }.reject (errors.map fun error => (build error).display)).messages =
        session.messages ++ (errors.map build).map Diagnosis.display := by
    rw [Session.reject_complaints _ _ (by simpa using mistaken), List.map_map]
    rfl
  by_cases scanned : (scan source).errors = []
  · rw [Session.step_run fuel session source scanned] at ran
    rw [diagnoses, if_neg (by simp [scanned])]
    by_cases read : (readProgram (scan source).tokens).errors = []
    · rw [if_neg (by simp [read])]
      replace ran := (Session.runTokens_read fuel session.reset _ read).symm.trans ran
      by_cases resolved : misuses (programOf source) = []
      · rw [if_neg (by simp [resolved])]
        replace ran := (Session.execute_resolved fuel session.reset _ resolved).symm.trans ran
        change session.reset.conclude (Machine.interpret fuel (programOf source) session.machine) = some after at ran
        generalize Machine.interpret fuel (programOf source) session.machine = outcome at ran
        cases outcome with
        | done value machine =>
            cases ran
            simp [Session.reset]
        | fault fault machine =>
            cases ran
            rfl
        | outOfFuel => cases ran
      · rw [if_pos (by simpa using resolved)]
        cases (Session.execute_misused fuel session.reset _ resolved).symm.trans ran
        exact complained (misuses (programOf source)) .scoping _ resolved
    · rw [if_pos (by simpa using read)]
      cases (Session.runTokens_unread fuel session.reset _ read).symm.trans ran
      exact complained (readProgram (scan source).tokens).errors .reading session.machine read
  · rw [Session.step_unscanned fuel session source .run scanned] at ran
    cases ran
    rw [diagnoses, if_pos (by simpa using scanned)]
    exact complained (scan source).errors .scanning session.machine scanned

section

variable (source : String)

theorem scan_lines :
    (∀ token ∈ (scan source).tokens, 1 ≤ token.line ∧ token.line ≤ 1 + linesOf source) ∧
    ∀ error ∈ (scan source).errors, 1 ≤ error.line ∧ error.line ≤ 1 + linesOf source := by
  rw [← newlinesOf_pieces]
  exact ofPieces_lines (pieces source.toList) 1

theorem program_sourced : Stmt.SourcedAll (scan source).tokens (programOf source) ∧
    ∀ error ∈ (readProgram (scan source).tokens).errors, error.token ∈ (scan source).tokens := by
  apply Grammar.readProgram_sourced
  rw [scan_tokens]
  exact ⟨Token.endAt (1 + linesOf source), by simp, rfl⟩

-- A program is numbered and analysed before it runs, and stays on the tokens it was read from.
theorem interpret_sourced (fuel : Nat) (machine : Machine)
    (held : machine.heap.Holds (Value.Sourced (scan source).tokens)) :
    (Machine.interpret fuel (programOf source) machine).Carries (Value.Sourced (scan source).tokens)
      (Fault.PointsInto (scan source).tokens) fun _ => True := by
  refine runProgram_sourced (scan source).tokens fuel _ ?_ _ held
  rw [← Stmt.sourcedAll_strip]
  change Stmt.SourcedAll _ (Stmt.stripAll (Stmt.numberedAll machine.labels (programOf source)).1)
  rw [Stmt.stripAll_numbered]
  exact (program_sourced source).1

theorem diagnoses_point (fuel : Nat) (machine : Machine)
    (held : machine.heap.Holds (Value.Sourced (scan source).tokens)) (diagnosis : Diagnosis)
    (told : diagnosis ∈ diagnoses fuel source machine) :
    diagnosis.PointsInto (scan source).tokens ∧ 1 ≤ diagnosis.line ∧ diagnosis.line ≤ 1 + linesOf source := by
  obtain ⟨tokenLines, errorLines⟩ := scan_lines source
  obtain ⟨sourced, readErrors⟩ := program_sourced source
  unfold diagnoses at told
  split at told
  · obtain ⟨error, inside, rfl⟩ := List.mem_map.mp told
    exact ⟨trivial, errorLines error inside⟩
  · split at told
    · obtain ⟨error, inside, rfl⟩ := List.mem_map.mp told
      have known := readErrors error inside
      exact ⟨known, tokenLines error.token known⟩
    · split at told
      · obtain ⟨error, inside, rfl⟩ := List.mem_map.mp told
        have known := misuses_sourced _ _ sourced error inside
        exact ⟨known, tokenLines error.token known⟩
      · have ended := interpret_sourced source fuel machine held
        generalize Machine.interpret fuel (programOf source) machine = outcome at ended told
        cases ended with
        | done value after held fits => cases told
        | fault fault after held points =>
            cases List.mem_singleton.mp told
            obtain ⟨token, known, line, blames⟩ := points
            have lines := tokenLines token known
            rw [line] at lines
            exact ⟨⟨token, known, line, blames⟩, lines⟩
        | outOfFuel => cases told

end

theorem messages_point_into_text (sink : Sink) (clock : Clock) (fuel : Nat) (source : String) (after : Session)
    (ran : (Session.start sink clock).step fuel .run source = some after) :
    after.messages = (diagnoses fuel source (Machine.start defaultLimit sink clock)).map Diagnosis.display ∧
    ∀ diagnosis ∈ diagnoses fuel source (Machine.start defaultLimit sink clock),
      diagnosis.PointsInto (scan source).tokens ∧ 1 ≤ diagnosis.line ∧ diagnosis.line ≤ 1 + linesOf source :=
  ⟨run_messages fuel source (Session.start sink clock) after ran,
    diagnoses_point source fuel _ (holds_start defaultLimit sink clock trivial)⟩

-- Nil is called on three lines, and the fault is on the last one.

def callingNil : String := "print nil\n(\n);"

theorem callingNil_told :
    ∃ after, Session.freshSession.step 9 .run callingNil = some after ∧
      (diagnoses 9 callingNil Session.freshSession.machine).map Diagnosis.line = [3] ∧
      after.messages = (diagnoses 9 callingNil Session.freshSession.machine).map Diagnosis.display ∧
      ∀ diagnosis ∈ diagnoses 9 callingNil Session.freshSession.machine,
        diagnosis.PointsInto (scan callingNil).tokens ∧ 1 ≤ diagnosis.line ∧
          diagnosis.line ≤ 1 + linesOf callingNil := by
  have ended : (Session.freshSession.step 9 .run callingNil).isSome = true := by decide +kernel
  obtain ⟨after, ran⟩ := Option.isSome_iff_exists.mp ended
  exact ⟨after, ran, by decide +kernel,
    messages_point_into_text (Sink.empty none) (Clock.ticking 0) 9 callingNil after ran⟩

end Treewalk
