import Treewalk.Proofs.ReliableSinks
import Treewalk.Proofs.Sessions

/-!
Expressions on their own. Tokens are an expression exactly if they are an expression statement once a semicolon stands
behind them, and without it they are no program. A line with a bare expression does what the program that prints the
expression does.
-/

set_option autoImplicit false

namespace Treewalk

namespace Grammar

-- The kinds that go on with an expression that could end before them.
def goesOn (kind : Kind) : Bool := kind = .comma || carriesOn true kind

theorem not_ahead_weaker (wanted other : Kind → Bool) (tokens : List Token) (missing : ¬ Ahead other tokens)
    (weaker : ∀ kind, wanted kind = true → other kind = true) : ¬ Ahead wanted tokens :=
  fun hit => missing (ahead_weaken tokens wanted other hit weaker)

-- An optional part that was left out stays so behind another ending, which does not start with it.
theorem ends_before (wanted : Kind → Bool) (rest ending other : List Token)
    (missing : ¬ Ahead goesOn other) (weaker : ∀ kind, wanted kind = true → goesOn kind = true)
    (ends : Ends true wanted (rest ++ ending)) : Ends true wanted (rest ++ other) := by
  cases rest with
  | nil => exact fun _ => not_ahead_weaker wanted goesOn other missing weaker
  | cons first later => exact ends

theorem joins_goesOn (commas : Bool) (level : Level) (kind : Kind) (joins : level.joins commas kind = true) :
    goesOn kind = true := by
  revert joins
  cases level <;> cases kind <;> cases commas <;> decide

theorem kind_goesOn (wanted : Kind) (carries : goesOn wanted = true) (kind : Kind)
    (same : decide (kind = wanted) = true) : goesOn kind = true := by
  rw [of_decide_eq_true same]
  exact carries

-- A derivation looks at the tokens behind it only to see whether they go on with it.
theorem derives_before_other (symbol : Symbol) (whole left : List Token) (tree : symbol.Tree)
    (derived : Derives true symbol whole left tree) :
    ∀ rest ending, left = rest ++ ending → ∃ tokens, whole = tokens ++ ending ∧
      ∀ other, ¬ Ahead goesOn other → Derives true symbol (tokens ++ other) (rest ++ other) tree := by
  induction derived with
  | assign commas name equals tokens left value isName isEquals _ ih =>
      intro rest ending same
      obtain ⟨taken, rfl, again⟩ := ih rest ending same
      exact ⟨name :: equals :: taken, rfl, fun other missing =>
        .assign commas name equals _ _ value isName isEquals (again other missing)⟩
  | operators commas tokens left tree _ ends ih =>
      rintro rest ending rfl
      obtain ⟨taken, rfl, again⟩ := ih rest ending rfl
      exact ⟨taken, rfl, fun other missing => .operators commas _ _ tree (again other missing)
        (ends_before _ rest ending other missing (kind_goesOn .equal rfl) ends)⟩
  | level commas level tokens middle left first tree _ _ ihOperand ihOthers =>
      intro rest ending same
      obtain ⟨between, rfl, others⟩ := ihOthers rest ending same
      obtain ⟨taken, rfl, operand⟩ := ihOperand between ending rfl
      exact ⟨taken, rfl, fun other missing =>
        .level commas level _ _ _ first tree (operand other missing) (others other missing)⟩
  | alone commas level head left ends =>
      rintro rest ending rfl
      exact ⟨rest, rfl, fun other missing =>
        .alone commas level head _ (ends_before _ rest ending other missing (joins_goesOn commas level) ends)⟩
  | joined commas level head right tree operator tokens middle left joins _ _ ihOperand ihOthers =>
      intro rest ending same
      obtain ⟨between, rfl, others⟩ := ihOthers rest ending same
      obtain ⟨taken, rfl, operand⟩ := ihOperand between ending rfl
      exact ⟨operator :: taken, rfl, fun other missing =>
        .joined commas level head right tree operator _ _ _ joins (operand other missing) (others other missing)⟩
  | tighter commas level below tokens left tree next _ ih =>
      intro rest ending same
      obtain ⟨taken, rfl, again⟩ := ih rest ending same
      exact ⟨taken, rfl, fun other missing => .tighter commas level below _ _ tree next (again other missing)⟩
  | ofSequence commas tokens left tree _ ih =>
      intro rest ending same
      obtain ⟨taken, rfl, again⟩ := ih rest ending same
      exact ⟨taken, rfl, fun other missing => .ofSequence commas _ _ tree (again other missing)⟩
  | ofFactor commas tokens left tree _ ih =>
      intro rest ending same
      obtain ⟨taken, rfl, again⟩ := ih rest ending same
      exact ⟨taken, rfl, fun other missing => .ofFactor commas _ _ tree (again other missing)⟩
  | unconditional commas tokens left tree _ ends ih =>
      rintro rest ending rfl
      obtain ⟨taken, rfl, again⟩ := ih rest ending rfl
      exact ⟨taken, rfl, fun other missing => .unconditional commas _ _ tree (again other missing)
        (ends_before _ rest ending other missing (kind_goesOn .question rfl) ends)⟩
  | conditional commas question colon tokens afterCondition afterYes left condition yes no _ isQuestion _ isColon _
      ihTest ihYes ihNo =>
      intro rest ending same
      obtain ⟨later, rfl, otherwise⟩ := ihNo rest ending same
      obtain ⟨between, rfl, chosen⟩ := ihYes (colon :: later) ending rfl
      obtain ⟨taken, rfl, test⟩ := ihTest (question :: between) ending rfl
      exact ⟨taken, rfl, fun other missing => .conditional commas question colon _ _ _ _ condition yes no
        (test other missing) isQuestion (chosen other missing) isColon (otherwise other missing)⟩
  | signed operator tokens left operand isSign _ ih =>
      intro rest ending same
      obtain ⟨taken, rfl, again⟩ := ih rest ending same
      exact ⟨operator :: taken, rfl, fun other missing => .signed operator _ _ operand isSign (again other missing)⟩
  | unsigned tokens middle left callee tree _ _ ihCallee ihOthers =>
      intro rest ending same
      obtain ⟨between, rfl, others⟩ := ihOthers rest ending same
      obtain ⟨taken, rfl, called⟩ := ihCallee between ending rfl
      exact ⟨taken, rfl, fun other missing =>
        .unsigned _ _ _ callee tree (called other missing) (others other missing)⟩
  | uncalled callee left ends =>
      rintro rest ending rfl
      exact ⟨rest, rfl, fun other missing =>
        .uncalled callee _ (ends_before _ rest ending other missing (kind_goesOn .leftParen rfl) ends)⟩
  | callNothing callee tree opening close tokens left isOpening isClose _ ih =>
      intro rest ending same
      obtain ⟨taken, rfl, again⟩ := ih rest ending same
      exact ⟨opening :: close :: taken, rfl, fun other missing =>
        .callNothing callee tree opening close _ _ isOpening isClose (again other missing)⟩
  | call callee tree arguments opening close tokens middle left isOpening _ isClose _ ihGiven ihOthers =>
      intro rest ending same
      obtain ⟨between, rfl, others⟩ := ihOthers rest ending same
      obtain ⟨taken, rfl, given⟩ := ihGiven (close :: between) ending rfl
      exact ⟨opening :: taken, rfl, fun other missing =>
        .call callee tree arguments opening close _ _ _ isOpening (given other missing) isClose (others other missing)⟩
  | lastArgument count tokens left last few _ ends ih =>
      rintro rest ending rfl
      obtain ⟨taken, rfl, again⟩ := ih rest ending rfl
      exact ⟨taken, rfl, fun other missing => .lastArgument count _ _ last few (again other missing)
        (ends_before _ rest ending other missing (kind_goesOn .comma rfl) ends)⟩
  | argument count comma tokens middle left first others few _ isComma _ ihGiven ihLater =>
      intro rest ending same
      obtain ⟨between, rfl, later⟩ := ihLater rest ending same
      obtain ⟨taken, rfl, given⟩ := ihGiven (comma :: between) ending rfl
      exact ⟨taken, rfl, fun other missing =>
        .argument count comma _ _ _ first others few (given other missing) isComma (later other missing)⟩
  | truth token left isTrue =>
      rintro rest ending rfl
      exact ⟨token :: rest, rfl, fun other _ => .truth token _ isTrue⟩
  | falsity token left isFalse =>
      rintro rest ending rfl
      exact ⟨token :: rest, rfl, fun other _ => .falsity token _ isFalse⟩
  | nothing token left isNil =>
      rintro rest ending rfl
      exact ⟨token :: rest, rfl, fun other _ => .nothing token _ isNil⟩
  | literal token value left isLiteral decoded =>
      rintro rest ending rfl
      exact ⟨token :: rest, rfl, fun other _ => .literal token value _ isLiteral decoded⟩
  | named token left isName =>
      rintro rest ending rfl
      exact ⟨token :: rest, rfl, fun other _ => .named token _ isName⟩
  | group opening close tokens left inner isOpening _ isClose ih =>
      rintro rest ending rfl
      obtain ⟨taken, rfl, again⟩ := ih (close :: rest) ending rfl
      exact ⟨opening :: taken, rfl, fun other missing =>
        .group opening close _ _ inner isOpening (again other missing) isClose⟩

theorem isWhole_semicolon_iff (tokens : List Token) (semicolon : Token) (isSemicolon : semicolon.kind = .semicolon)
    (tree : Expr Unit) : IsExpr true (tokens ++ [semicolon]) [semicolon] tree ↔ IsWhole true tokens tree := by
  constructor
  · intro derived
    obtain ⟨taken, same, again⟩ := derives_before_other _ _ _ _ derived [] [semicolon] rfl
    have bare := again [] (not_ahead_nil goesOn)
    rwa [← List.append_cancel_right same, List.append_nil] at bare
  · intro derived
    obtain ⟨taken, same, again⟩ := derives_before_other _ _ _ _ derived [] [] rfl
    have stops : ¬ Ahead goesOn [semicolon] := by
      rw [ahead_cons, isSemicolon]
      decide
    rw [List.append_nil] at same
    rw [same]
    exact again [semicolon] stops

theorem counting_not_expr (start : Option (Stmt Unit)) (condition step : Option (Expr Unit)) (body : Stmt Unit)
    (value : Expr Unit) : Stmt.counting start condition step body ≠ .expr value := by
  cases start <;> simp [Stmt.counting]

-- Only an expression and a semicolon are an expression statement.
theorem expr_built (tokens rest : List Token) (tree : Stmt Unit) (value : Expr Unit)
    (built : Builds true .declaration tokens rest tree) (same : tree = .expr value) :
    ∃ semicolon, semicolon.kind = .semicolon ∧ IsExpr true tokens (semicolon :: rest) value := by
  cases built with
  | var _ _ _ _ _ declared => cases declared <;> cases same
  | func => cases same
  | statement _ _ _ whole =>
      cases whole with
      | counting => exact absurd same (counting_not_expr _ _ _ _ _)
      | expr semicolon _ _ _ whole ends =>
          cases same
          exact ⟨semicolon, ends, whole⟩
      | branch | branches | print | ret | loop | block => cases same

theorem isProgram_expr_iff (tokens : List Token) (semicolon : Token) (isSemicolon : semicolon.kind = .semicolon)
    (tree : Expr Unit) : IsProgram true (tokens ++ [semicolon]) [.expr tree] ↔ IsWhole true tokens tree := by
  rw [← isWhole_semicolon_iff tokens semicolon isSemicolon tree]
  constructor
  · intro built
    generalize given : tokens ++ [semicolon] = whole at built ⊢
    cases built with
    | more _ _ _ _ _ declared later =>
        cases later
        obtain ⟨mark, isMark, derived⟩ := expr_built _ _ _ tree declared rfl
        -- The mark behind the expression is the last token.
        obtain ⟨taken, same, -⟩ := derives_before_other _ _ _ _ derived [] [mark] rfl
        cases List.append_inj_right' (given.trans same) rfl
        exact derived
  · intro derived
    exact .more _ [] [] _ _ (.statement _ _ _ (.expr semicolon _ [] tree derived isSemicolon)) (.none [])

theorem isProgram_print (tokens : List Token) (keyword semicolon : Token) (isPrint : keyword.kind = .kwPrint)
    (isSemicolon : semicolon.kind = .semicolon) (tree : Expr Unit) (whole : IsWhole true tokens tree) :
    IsProgram true (keyword :: tokens ++ [semicolon]) [.print keyword tree] := by
  have derived := (isWhole_semicolon_iff tokens semicolon isSemicolon tree).mpr whole
  exact .more _ [] [] _ _ (.statement _ _ _ (.print keyword semicolon _ [] tree isPrint derived isSemicolon)) (.none [])

-- The longest derivations from the same tokens leave the same rest.
theorem isExpr_rest (tokens rest other : List Token) (tree value : Expr Unit) (first : IsExpr true tokens rest tree)
    (second : IsExpr true tokens other value) : rest = other := by
  have room : 24 * tokens.length + 19 ≤ 24 * tokens.length + 19 := Nat.le_refl _
  have early := (readExpr_gives_iff _ (Token.endAt 1) tokens rest true tree room rfl).mpr first
  have late := (readExpr_gives_iff _ (Token.endAt 1) tokens other true value room rfl).mpr second
  exact congrArg Reply.rest (early.symm.trans late)

-- A statement that starts as an expression does is an expression statement.
theorem starts_expr (tokens rest : List Token) (tree : Stmt Unit) (built : Builds true .declaration tokens rest tree)
    (starts : Ahead startsExpr tokens) : ∃ value, tree = .expr value := by
  cases built with
  | var _ _ _ _ isVar => simp [ahead_cons, isVar, startsExpr, startsPrimary] at starts
  | func _ _ _ _ _ _ _ _ isFun => simp [ahead_cons, isFun, startsExpr, startsPrimary] at starts
  | statement _ _ _ whole =>
      cases whole with
      | counting _ _ _ _ _ _ _ _ _ _ _ isFor => simp [ahead_cons, isFor, startsExpr, startsPrimary] at starts
      | branch _ _ _ _ _ _ isIf => simp [ahead_cons, isIf, startsExpr, startsPrimary] at starts
      | branches _ _ _ _ _ _ _ _ _ isIf => simp [ahead_cons, isIf, startsExpr, startsPrimary] at starts
      | print _ _ _ _ _ isPrint => simp [ahead_cons, isPrint, startsExpr, startsPrimary] at starts
      | ret _ _ _ _ isReturn => simp [ahead_cons, isReturn, startsExpr, startsPrimary] at starts
      | loop _ _ _ _ _ _ isWhile => simp [ahead_cons, isWhile, startsExpr, startsPrimary] at starts
      | block _ _ _ _ _ isOpening => simp [ahead_cons, isOpening, startsExpr, startsPrimary] at starts
      | expr _ _ _ value => exact ⟨value, rfl⟩

theorem isWhole_no_program (tokens : List Token) (tree : Expr Unit) (program : List (Stmt Unit))
    (whole : IsWhole true tokens tree) : ¬ IsProgram true tokens program := by
  have starts : Ahead startsExpr tokens := derives_starts true _ _ _ _ whole
  intro built
  cases built with
  | none => exact not_ahead_nil startsExpr starts
  | more _ middle _ _ _ declared later =>
      obtain ⟨value, same⟩ := starts_expr _ _ _ declared starts
      obtain ⟨mark, -, derived⟩ := expr_built _ _ _ value declared same
      cases isExpr_rest tokens [] _ tree value whole derived

end Grammar

-- Outside all scopes no name has a distance and none is misused.
theorem Expr.findings_global {ν : Type} (expr : Expr ν) : expr.findings [] = [] := by
  rw [Expr.findings_uses, List.flatMap_eq_nil_iff]
  intro use _
  obtain ⟨label, name, writes⟩ := use
  cases writes <;> rfl

theorem print_findings {ν : Type} (keyword : Token) (value : Expr ν) :
    Stmt.findingsAll false [] [.print keyword value] = ([], []) := by
  simp only [Stmt.findingsAll, Stmt.findings, Expr.findings_global, List.append_nil]

theorem misuses_print {ν : Type} (keyword : Token) (value : Expr ν) : misuses [.print keyword value] = [] := by
  rw [misuses, print_findings]
  rfl

-- A program that prints an expression is made ready as the expression is.
theorem prepare_print (machine : Machine) (keyword : Token) (tree : Expr Unit) :
    machine.prepare [.print keyword tree] =
      ([.print keyword (machine.loadExpr tree).1], (machine.loadExpr tree).2) := by
  have distances : (machine.prepare [.print keyword tree]).2.distances = machine.distances := by
    change (Stmt.findingsAll false [] [.print keyword (machine.loadExpr tree).1]).2.foldl Distances.record
      machine.distances = machine.distances
    rw [print_findings]
    rfl
  have others : (machine.prepare [.print keyword tree]).2 =
      { (machine.loadExpr tree).2 with distances := (machine.prepare [.print keyword tree]).2.distances } := rfl
  refine Prod.ext rfl ?_
  rw [others, distances]
  rfl

theorem exec_print (fuel : Nat) (keyword : Token) (expr : Expr NodeId) :
    runProgram (fuel + 1) [.print keyword expr] =
      (eval fuel expr >>= fun value => Run.write keyword.line (value.display ++ "\n")) := by
  funext machine
  simp only [runProgram, exec, bind, Run.bind, pure, Run.pure]
  cases eval fuel expr machine with
  | done value after =>
      dsimp only
      cases Run.write keyword.line (value.display ++ "\n") after <;> rfl
  | fault | outOfFuel => rfl

namespace Session

-- An expression is shown as a program prints it, as long as the sink takes what is shown.
theorem evaluate_prints (fuel : Nat) (session : Session) (keyword : Token) (tree : Expr Unit)
    (reliable : session.machine.sink.Reliable) :
    session.evaluate fuel tree =
      session.conclude (Machine.interpret (fuel + 1) [.print keyword tree] session.machine) := by
  have kept := eval_keeps unmoved_policy fuel (session.machine.loadExpr tree).1 (session.machine.loadExpr tree).2
  rw [Machine.interpret, prepare_print, exec_print]
  simp only [evaluate, bind, Run.bind]
  cases evaluated : eval fuel (session.machine.loadExpr tree).1 (session.machine.loadExpr tree).2 with
  | done value after =>
      rw [evaluated] at kept
      have taken := emit_reliable after (value.display ++ "\n")
        (reliable_of_policy session.machine.sink after.sink (kept after rfl) reliable)
      simp only [echo, Run.write]
      generalize after.emit (value.display ++ "\n") = emitted at taken
      obtain ⟨refusal, last⟩ := emitted
      cases taken
      rfl
  | fault | outOfFuel => rfl

theorem execute_print (fuel : Nat) (session : Session) (keyword : Token) (tree : Expr Unit)
    (reliable : session.machine.sink.Reliable) :
    session.execute (fuel + 1) [.print keyword tree] = session.evaluate fuel tree := by
  rw [evaluate_prints fuel session keyword tree reliable]
  exact execute_resolved (fuel + 1) session _ (misuses_print keyword tree)

open Grammar

-- The end of the input may stand behind the tokens or not. A line is tried as an expression exactly where it is one,
-- and then does what the program that prints it does, with one step more.
theorem bare_lines_print (tokens ending : List Token) (semicolon : Token)
    (free : ∀ token ∈ tokens, token.kind ≠ .endOfInput) (ended : ∀ stop ∈ ending.head?, stop.kind = .endOfInput)
    (isSemicolon : semicolon.kind = .semicolon) :
    (∀ tree, (readExpression (tokens ++ ending)).result = some tree ↔
      (readProgram (tokens ++ [semicolon] ++ ending)).errors = [] ∧
        (readProgram (tokens ++ [semicolon] ++ ending)).result = [.expr tree]) ∧
    (∀ tree, (readExpression (tokens ++ ending)).result = some tree → (readProgram (tokens ++ ending)).errors ≠ []) ∧
    (∀ (fuel : Nat) (session : Session), session.runLineTokens fuel (tokens ++ ending) =
      (readExpression (tokens ++ ending)).result.elim (session.runTokens fuel (tokens ++ ending))
        (session.evaluate fuel)) ∧
    ∀ (fuel : Nat) (session : Session) (source : String) (keyword : Token) (tree : Expr Unit),
      session.machine.sink.Reliable → keyword.kind = .kwPrint → (scan source).errors = [] →
      (scan source).tokens = tokens ++ ending → (readExpression (tokens ++ ending)).result = some tree →
      session.step fuel .line source =
        session.reset.runTokens (fuel + 1) (keyword :: tokens ++ [semicolon] ++ ending) := by
  have expressions := readExpression_iff tokens ending free ended
  have unread (tree : Expr Unit) (whole : (readExpression (tokens ++ ending)).result = some tree) :
      (readProgram (tokens ++ ending)).errors ≠ [] := by
    intro clean
    exact isWhole_no_program tokens tree _ ((expressions tree).mp whole)
      ((readProgram_iff tokens ending free ended _).mp ⟨clean, rfl⟩)
  have freeWith (more : List Token) (isFree : ∀ token ∈ more, token.kind ≠ .endOfInput) :
      ∀ token ∈ tokens ++ more, token.kind ≠ .endOfInput := by
    intro token inside
    exact (List.mem_append.mp inside).elim (free token) (isFree token)
  have semicolonFree : ∀ token ∈ [semicolon], token.kind ≠ .endOfInput := by
    simp [isSemicolon]
  refine ⟨fun tree => ?_, unread, fun fuel session => ?_, ?_⟩
  · rw [expressions, readProgram_iff (tokens ++ [semicolon]) ending (freeWith _ semicolonFree) ended,
      isProgram_expr_iff tokens semicolon isSemicolon]
  · by_cases clean : (readProgram (tokens ++ ending)).errors = []
    · have none : (readExpression (tokens ++ ending)).result = none := by
        cases result : (readExpression (tokens ++ ending)).result with
        | none => rfl
        | some tree => exact absurd clean (unread tree result)
      rw [runLineTokens_read fuel session _ clean, none]
      rfl
    · exact runLineTokens_unread fuel session _ clean
  · intro fuel session source keyword tree reliable isPrint scanned given whole
    have built := isProgram_print tokens keyword semicolon isPrint isSemicolon tree ((expressions tree).mp whole)
    have printFree : ∀ token ∈ keyword :: (tokens ++ [semicolon]), token.kind ≠ .endOfInput := by
      rw [List.forall_mem_cons]
      exact ⟨by simp [isPrint], freeWith _ semicolonFree⟩
    have read := (readProgram_iff (keyword :: (tokens ++ [semicolon])) ending printFree ended _).mpr built
    have printed : session.reset.runTokens (fuel + 1) (keyword :: tokens ++ [semicolon] ++ ending) =
        session.reset.evaluate fuel tree := by
      rw [← execute_print fuel session.reset keyword tree reliable, ← read.2]
      exact runTokens_read (fuel + 1) session.reset _ read.1
    rw [printed, step_line fuel session source scanned, given]
    rw [runLineTokens_unread fuel session.reset _ (unread tree whole), whole]
    rfl

-- `(nil, "one") + "two"` on its own.

def joining : String := "(nil, \"one\") + \"two\""

def printWord : Token := ⟨.kwPrint, "print", none, 1⟩

def semicolonMark : Token := ⟨.semicolon, ";", none, 1⟩

def freshSession : Session := Session.start (Sink.empty none) (Clock.ticking 0)

theorem joining_prints :
    (∀ token ∈ wordsOf joining, token.kind ≠ .endOfInput) ∧ semicolonMark.kind = .semicolon ∧
    freshSession.machine.sink.Reliable ∧ printWord.kind = .kwPrint ∧ (scan joining).errors = [] ∧
    (scan joining).tokens = wordsOf joining ++ [Token.endAt 1] ∧
    (∃ tree, (readExpression (wordsOf joining ++ [Token.endAt 1])).result = some tree) ∧
    (freshSession.step 9 .line joining).any (·.machine.sink.written.size == 7) = true ∧
    freshSession.step 9 .line joining =
      freshSession.reset.runTokens 10 (printWord :: wordsOf joining ++ [semicolonMark] ++ [Token.endAt 1]) := by
  have free (token : Token) (inside : token ∈ wordsOf joining) : token.kind ≠ .endOfInput :=
    body_free _ token 1 inside
  have ended : ∀ stop ∈ [Token.endAt 1].head?, stop.kind = .endOfInput := by decide
  have scanned : (scan joining).errors = [] := by decide +kernel
  have lines : linesOf joining = 0 := by decide +kernel
  have tokens : (scan joining).tokens = wordsOf joining ++ [Token.endAt 1] := by
    rw [scan_tokens, lines]
    rfl
  have read : (readExpression (wordsOf joining ++ [Token.endAt 1])).result.isSome = true := by decide +kernel
  obtain ⟨tree, whole⟩ := Option.isSome_iff_exists.mp read
  obtain ⟨-, -, -, lines⟩ := bare_lines_print (wordsOf joining) [Token.endAt 1] semicolonMark free ended rfl
  exact ⟨free, rfl, reliable_empty, rfl, scanned, tokens, ⟨tree, whole⟩, by decide +kernel,
    lines 9 freshSession joining printWord tree reliable_empty rfl scanned tokens whole⟩

end Session

end Treewalk
