import Treewalk.Proofs.ExprParsing
import Treewalk.Proofs.SourcedTrees

/-!
What any reading does, with mistakes or without. A property that trees have if their parts do is a property of whatever
is read. Being built from the tokens that are read is one. Every mistake is reported at one of these tokens, and no
reading fails in silence: where it yields nothing, it has reported a mistake. So a program that is read without a mistake
is read as a whole.
-/

set_option autoImplicit false

namespace Treewalk

-- A reply with known tokens only, whose result is good, or missing with a reason.
structure Reply.Sourced {α : Type} (known : List Token) (good : α → Prop) (reply : Reply α) : Prop where
  result : ∀ value ∈ reply.result, good value
  honest : reply.result = none → reply.errors ≠ []
  rest : reply.rest ⊆ known
  errors : ∀ error ∈ reply.errors, error.token ∈ known

namespace Reading

variable {α β : Type} {known : List Token} {good : α → Prop} {result : β → Prop}

-- From known tokens a reading gives a good result or a reason, leaves known tokens and complains about known ones.
def Sourced (known : List Token) (good : α → Prop) (reading : Reading α) : Prop :=
  ∀ stop tokens, stop ∈ known → tokens ⊆ known → (reading stop tokens).Sourced known good

theorem sourced_pure {value : α} (fits : good value) : Sourced known good (pure value) := by
  intro stop tokens _ within
  exact ⟨fun _ given => Option.some.inj given ▸ fits, by simp [pure, Reading.pure], within,
    by simp [pure, Reading.pure]⟩

theorem sourced_bind {first : Reading α} {next : α → Reading β} (start : first.Sourced known good)
    (goOn : ∀ value, good value → (next value).Sourced known result) : Sourced known result (first >>= next) := by
  intro stop tokens ended within
  have early := start stop tokens ended within
  change (Reading.bind first next stop tokens).Sourced known result
  simp only [Reading.bind]
  cases reply : first stop tokens with
  | mk given rest errors =>
      rw [reply] at early
      cases given with
      | none => exact ⟨by simp, fun _ => early.honest rfl, early.rest, early.errors⟩
      | some value =>
          have late := goOn value (early.result value rfl) stop rest ended early.rest
          refine ⟨late.result, fun missing => ?_, late.rest, fun error inside => ?_⟩
          · simp [late.honest missing]
          · exact (List.mem_append.mp inside).elim (early.errors error) (late.errors error)

theorem sourced_map {reading : Reading α} {f : α → β} (sourced : reading.Sourced known good)
    (fits : ∀ value, good value → result (f value)) : Sourced known result (f <$> reading) :=
  sourced_bind sourced fun value ofValue => sourced_pure (fits value ofValue)

theorem sourced_peek : peek.Sourced known (· ∈ known) := by
  intro stop tokens ended within
  refine ⟨fun token found => ?_, by simp [peek], within, by simp [peek]⟩
  cases tokens with
  | nil => exact Option.some.inj found ▸ ended
  | cons first rest => exact Option.some.inj found ▸ within (by simp)

theorem sourced_report {token : Token} (cause : ParseCause) (inside : token ∈ known) :
    (report token cause).Sourced known fun _ => True := by
  intro stop tokens _ within
  exact ⟨fun _ _ => trivial, by simp [report], within, by simpa [report] using inside⟩

theorem sourced_fail {token : Token} (cause : ParseCause) (inside : token ∈ known) :
    (fail token cause).Sourced known good := by
  intro stop tokens _ within
  exact ⟨by simp [fail], by simp [fail], within, by simpa [fail] using inside⟩

theorem sourced_failHere (cause : ParseCause) : (failHere cause).Sourced known good :=
  sourced_bind sourced_peek fun _ inside => sourced_fail cause inside

theorem sourced_accept (wanted : Kind → Bool) :
    (accept wanted).Sourced known fun taken => ∀ token ∈ taken, token ∈ known ∧ wanted token.kind = true := by
  intro stop tokens _ within
  cases tokens with
  | nil => exact ⟨by simp [accept], by simp [accept], within, by simp [accept]⟩
  | cons first rest =>
      obtain ⟨inside, others⟩ := List.cons_subset.mp within
      simp only [accept]
      by_cases fits : wanted first.kind = true
      · rw [if_pos fits]
        exact ⟨by simp [inside, fits], by simp, others, by simp⟩
      · rw [if_neg fits]
        exact ⟨by simp, by simp, within, by simp⟩

theorem sourced_nextIs (kind : Kind) : (nextIs kind).Sourced known fun _ => True :=
  fun _ _ _ within => ⟨fun _ _ => trivial, by simp [nextIs], within, by simp [nextIs]⟩

theorem sourced_atEnd : atEnd.Sourced known fun _ => True :=
  fun _ _ _ within => ⟨fun _ _ => trivial, by simp [atEnd], within, by simp [atEnd]⟩

theorem sourced_expect (kind : Kind) (cause : ParseCause) : (expect kind cause).Sourced known (·.Among known kind) := by
  refine sourced_bind (sourced_accept _) fun taken ofTaken => ?_
  cases taken with
  | none => exact sourced_failHere cause
  | some token =>
      obtain ⟨inside, fits⟩ := ofTaken token rfl
      exact sourced_pure ⟨inside, by simpa using fits⟩

theorem seekStatement_subset (tokens : List Token) : ∀ behindSemicolon : Bool,
    seekStatement behindSemicolon tokens ⊆ tokens := by
  induction tokens with
  | nil => simp [seekStatement]
  | cons first rest ih =>
      intro behindSemicolon
      rw [seekStatement]
      split
      · exact List.Subset.refl _
      · exact List.subset_cons_of_subset first (ih _)

theorem resume_subset (tokens : List Token) : resume tokens ⊆ tokens := by
  cases tokens with
  | nil => simp [resume]
  | cons first rest => exact List.subset_cons_of_subset first (seekStatement_subset rest _)

theorem sourced_recover {reading : Reading α} (sourced : reading.Sourced known good) :
    reading.recover.Sourced known fun given => ∀ value ∈ given, good value := by
  intro stop tokens ended within
  have early := sourced stop tokens ended within
  simp only [recover]
  cases reply : reading stop tokens with
  | mk given rest errors =>
      rw [reply] at early
      cases given with
      | none => exact ⟨by simp, by simp, fun token left => early.rest (resume_subset rest left), early.errors⟩
      | some value => exact ⟨by simpa using early.result value rfl, by simp, early.rest, early.errors⟩

-- The tokens that are there to read are known ones.
theorem honest_of_sourced {reading : Reading α} {good : List Token → α → Prop}
    (sourced : ∀ known, reading.Sourced known (good known)) : reading.Honest := by
  intro stop tokens failed
  have reply := sourced (stop :: tokens) stop tokens (by simp) (by simp)
  exact reply.honest failed

end Reading

namespace Grammar

open Reading

-- Data that a program with these tokens can write down.
inductive Written (known : List Token) : Datum → Prop where
  | nil : Written known .nil
  | boolean (value : Bool) : Written known (.boolean value)
  | literal (token : Token) (literal : Literal) (inside : token ∈ known) (found : token.literal = some literal) :
      Written known literal.datum

-- Properties that trees have if their parts do, whatever is read from known tokens. A declaration may have one that a
-- statement by itself does not have.
structure Composes (known : List Token) (ofExpr : Expr Unit → Prop) (ofStmt ofDeclaration : Stmt Unit → Prop) :
    Prop where
  literal : ∀ value, Written known value → ofExpr (.literal value)
  group : ∀ inner, ofExpr inner → ofExpr (.group inner)
  unary : ∀ operator operand, operator ∈ known → (operator.kind = .bang || operator.kind = .minus) = true →
    ofExpr operand → ofExpr (.unary operator operand)
  join : ∀ commas (level : Level) left operator right, operator ∈ known → level.joins commas operator.kind = true →
    ofExpr left → ofExpr right → ofExpr (level.join left operator right)
  ternary : ∀ condition yes no, ofExpr condition → ofExpr yes → ofExpr no → ofExpr (.ternary condition yes no)
  var : ∀ name : Token, name.Among known .identifier → ofExpr (.var () name)
  assign : ∀ name value, ofExpr (.var () name) → ofExpr value → ofExpr (.assign () name value)
  call : ∀ callee (close : Token) arguments, ofExpr callee → close.Among known .rightParen →
    (∀ argument ∈ arguments, ofExpr argument) → ofExpr (.call callee close arguments)
  ret : ∀ (keyword : Token) value, keyword.Among known .kwReturn → (∀ expr ∈ value, ofExpr expr) →
    ofStmt (.ret keyword value)
  print : ∀ (keyword : Token) value, keyword.Among known .kwPrint → ofExpr value → ofStmt (.print keyword value)
  expr : ∀ value, ofExpr value → ofStmt (.expr value)
  block : ∀ body, (∀ stmt ∈ body, ofDeclaration stmt) → ofStmt (.block body)
  branch : ∀ condition yes no, ofExpr condition → ofStmt yes → (∀ stmt ∈ no, ofStmt stmt) →
    ofStmt (.branch condition yes no)
  loop : ∀ condition body, ofExpr condition → ofStmt body → ofStmt (.loop condition body)
  defines : ∀ (name : Token) value, name.Among known .identifier → (∀ expr ∈ value, ofExpr expr) →
    ofDeclaration (.var name value)
  func : ∀ (name : Token) (params : List Token) body, name.Among known .identifier →
    (∀ param ∈ params, param.Among known .identifier) → (∀ stmt ∈ body, ofDeclaration stmt) →
    ofDeclaration (.func name params body)
  statement : ∀ stmt, ofStmt stmt → ofDeclaration stmt

variable {known : List Token} {ofExpr : Expr Unit → Prop} {ofStmt ofDeclaration : Stmt Unit → Prop}

-- What a symbol's reading starts from, and what it gives.

def Symbol.Ready (ofExpr : Expr Unit → Prop) : Symbol → Prop
  | .joined _ _ left => ofExpr left
  | .calls callee => ofExpr callee
  | _ => True

def Symbol.Good (ofExpr : Expr Unit → Prop) : (symbol : Symbol) → symbol.Tree → Prop
  | .arguments _, trees => ∀ tree ∈ trees, ofExpr tree
  | .expr _, tree | .level _ _, tree | .joined _ _ _, tree | .operand _ _, tree | .ternary _, tree
  | .unary, tree | .calls _, tree | .primary, tree => ofExpr tree

def AllSourced (known : List Token) (ofExpr : Expr Unit → Prop) (bound : Nat) : Prop :=
  ∀ symbol : Symbol, symbol.Ready ofExpr → (symbol.read bound).Sourced known (symbol.Good ofExpr)

section

variable (parts : Composes known ofExpr ofStmt ofDeclaration)

include parts

theorem expr_sourced (bound : Nat) (commas : Bool) (sourced : AllSourced known ofExpr bound) :
    (readExpr (bound + 1) commas).Sourced known ofExpr := by
  refine sourced_bind (sourced (.level commas .disjunction) trivial) fun target ofTarget => ?_
  refine sourced_bind (sourced_accept _) fun taken ofTaken => ?_
  cases taken with
  | none => exact sourced_pure ofTarget
  | some equals =>
      refine sourced_bind (sourced (.expr commas) trivial) fun value ofValue => ?_
      cases target with
      | var label name => exact sourced_pure (parts.assign name value ofTarget ofValue)
      | _ => exact sourced_bind (sourced_report _ (ofTaken equals rfl).1) fun _ _ => sourced_pure ofValue

theorem joined_sourced (bound : Nat) (commas : Bool) (level : Level) (left : Expr Unit)
    (sourced : AllSourced known ofExpr bound) (ofLeft : ofExpr left) :
    (readJoined (bound + 1) commas level left).Sourced known ofExpr := by
  refine sourced_bind (sourced_accept _) fun taken ofTaken => ?_
  cases taken with
  | none => exact sourced_pure ofLeft
  | some operator =>
      obtain ⟨inside, joins⟩ := ofTaken operator rfl
      refine sourced_bind (sourced (.operand commas level) trivial) fun right ofRight => ?_
      exact sourced (.joined commas level _) (parts.join commas level left operator right inside joins ofLeft ofRight)

theorem sequence_sourced (bound : Nat) (commas : Bool) (sourced : ∀ smaller < bound, AllSourced known ofExpr smaller) :
    (readSequence bound commas).Sourced known ofExpr := by
  cases bound with
  | zero => exact sourced_failHere _
  | succ bound =>
      have below : (readLevel bound commas .sequence).Sourced known ofExpr :=
        sourced bound (Nat.lt_succ_self bound) (.level commas .sequence) trivial
      refine sourced_bind (sourced_accept _) fun taken ofTaken => ?_
      cases taken with
      | none => exact below
      | some operator =>
          refine sourced_bind (sourced_report _ (ofTaken operator rfl).1) fun _ _ => ?_
          exact sourced_bind below fun _ _ => sourced_pure (parts.literal _ .nil)

theorem operand_sourced (bound : Nat) (commas : Bool) (level : Level)
    (sourced : ∀ smaller < bound + 1, AllSourced known ofExpr smaller) :
    (readOperand (bound + 1) commas level).Sourced known ofExpr := by
  have here : AllSourced known ofExpr bound := sourced bound (Nat.lt_succ_self bound)
  cases level with
  | disjunction => exact here (.level commas .conjunction) trivial
  | conjunction => exact sequence_sourced parts bound commas fun smaller less => sourced smaller (Nat.lt_succ_of_lt less)
  | sequence => exact here (.ternary commas) trivial
  | equality => exact here (.level commas .comparison) trivial
  | comparison => exact here (.level commas .term) trivial
  | term => exact here (.level commas .factor) trivial
  | factor => exact here .unary trivial

theorem ternary_sourced (bound : Nat) (commas : Bool) (sourced : AllSourced known ofExpr bound) :
    (readTernary (bound + 1) commas).Sourced known ofExpr := by
  refine sourced_bind (sourced (.level commas .equality) trivial) fun condition ofCondition => ?_
  refine sourced_bind (sourced_accept _) fun taken _ => ?_
  cases taken with
  | none => exact sourced_pure ofCondition
  | some question =>
      refine sourced_bind (sourced (.expr commas) trivial) fun yes ofYes => ?_
      refine sourced_bind (sourced_expect _ _) fun colon _ => ?_
      exact sourced_bind (sourced (.expr commas) trivial) fun no ofNo =>
        sourced_pure (parts.ternary condition yes no ofCondition ofYes ofNo)

theorem calls_sourced (bound : Nat) (callee : Expr Unit) (sourced : AllSourced known ofExpr bound)
    (ofCallee : ofExpr callee) : (readCalls (bound + 1) callee).Sourced known ofExpr := by
  refine sourced_bind (sourced_accept _) fun taken _ => ?_
  cases taken with
  | none => exact sourced_pure ofCallee
  | some opening =>
      have behind : ∀ arguments : List (Expr Unit), (∀ argument ∈ arguments, ofExpr argument) →
          (expect .rightParen .parenAfterArguments >>= fun close =>
            readCalls bound (.call callee close arguments)).Sourced known ofExpr :=
        fun arguments ofArguments => sourced_bind (sourced_expect _ _) fun close ofClose =>
          sourced (.calls _) (parts.call callee close arguments ofCallee ofClose ofArguments)
      refine sourced_bind (sourced_nextIs _) fun closed _ => ?_
      cases closed with
      | true => exact sourced_bind (sourced_pure (by simp)) behind
      | false => exact sourced_bind (sourced (.arguments 0) trivial) behind

omit parts in
theorem arguments_sourced (bound count : Nat) (sourced : AllSourced known ofExpr bound) :
    (readArguments (bound + 1) count).Sourced known fun arguments => ∀ argument ∈ arguments, ofExpr argument := by
  rw [readArguments]
  split
  focus refine sourced_bind sourced_peek fun token inside => sourced_bind (sourced_report _ inside) fun _ _ => ?_
  -- With or without a report, the arguments follow.
  all_goals
    refine sourced_bind (sourced (.expr false) trivial) fun first ofFirst => ?_
    refine sourced_bind (sourced_accept (· = .comma)) fun taken _ => ?_
    cases taken with
    | none => exact sourced_pure (List.forall_mem_singleton.mpr ofFirst)
    | some comma =>
        exact sourced_bind (sourced (.arguments (count + 1)) trivial) fun rest ofRest =>
          sourced_pure (List.forall_mem_cons.mpr ⟨ofFirst, ofRest⟩)

theorem primary_sourced (bound : Nat) (sourced : AllSourced known ofExpr bound) :
    (readPrimary (bound + 1)).Sourced known ofExpr := by
  refine sourced_bind sourced_peek fun token inside => ?_
  split
  case h_4 | h_5 =>
    -- The token may come without its literal.
    refine sourced_bind (sourced_accept _) fun _ _ => ?_
    cases found : token.literal with
    | none => exact sourced_fail _ inside
    | some literal => exact sourced_pure (parts.literal _ (.literal token literal inside found))
  · exact sourced_bind (sourced_accept _) fun _ _ => sourced_pure (parts.literal _ (.boolean false))
  · exact sourced_bind (sourced_accept _) fun _ _ => sourced_pure (parts.literal _ (.boolean true))
  · exact sourced_bind (sourced_accept _) fun _ _ => sourced_pure (parts.literal _ .nil)
  · rename_i isName
    exact sourced_bind (sourced_accept _) fun _ _ => sourced_pure (parts.var token ⟨inside, isName⟩)
  · refine sourced_bind (sourced_accept _) fun _ _ => ?_
    refine sourced_bind (sourced (.expr true) trivial) fun inner ofInner => ?_
    exact sourced_bind (sourced_expect _ _) fun _ _ => sourced_pure (parts.group inner ofInner)
  · exact sourced_fail _ inside

theorem all_sourced (bound : Nat) : AllSourced known ofExpr bound := by
  induction bound using Nat.strongRecOn with
  | ind bound ih =>
      intro symbol ready
      cases bound with
      | zero => cases symbol <;> exact sourced_failHere _
      | succ bound =>
          have sourced : AllSourced known ofExpr bound := ih bound (Nat.lt_succ_self bound)
          cases symbol with
          | expr commas => exact expr_sourced parts bound commas sourced
          | level commas tier =>
              exact sourced_bind (sourced (.operand commas tier) trivial) fun first ofFirst =>
                sourced (.joined commas tier first) ofFirst
          | joined commas tier left => exact joined_sourced parts bound commas tier left sourced ready
          | operand commas tier => exact operand_sourced parts bound commas tier ih
          | ternary commas => exact ternary_sourced parts bound commas sourced
          | unary =>
              refine sourced_bind (sourced_accept _) fun taken ofTaken => ?_
              cases taken with
              | none =>
                  exact sourced_bind (sourced .primary trivial) fun callee ofCallee => sourced (.calls callee) ofCallee
              | some operator =>
                  obtain ⟨inside, fits⟩ := ofTaken operator rfl
                  exact sourced_bind (sourced .unary trivial) fun operand ofOperand =>
                    sourced_pure (parts.unary operator operand inside fits ofOperand)
          | calls callee => exact calls_sourced parts bound callee sourced ready
          | arguments count => exact arguments_sourced bound count sourced
          | primary => exact primary_sourced parts bound sourced

theorem readExpr_sourced (bound : Nat) (commas : Bool) : (readExpr bound commas).Sourced known ofExpr :=
  all_sourced parts bound (.expr commas) trivial

theorem whole_sourced (input : Input) : input.whole.Sourced known ofExpr := by
  refine sourced_bind (readExpr_sourced parts input.bound true) fun value ofValue => ?_
  refine sourced_bind sourced_atEnd fun ended _ => ?_
  split
  · exact sourced_pure ofValue
  · exact sourced_failHere _

-- Readings of the parts of statements.

theorem someExpr_sourced (bound : Nat) :
    (some <$> readExpr bound true).Sourced known fun value => ∀ expr ∈ value, ofExpr expr :=
  sourced_map (readExpr_sourced parts bound true) fun _ ofValue _ found => Option.some.inj found ▸ ofValue

theorem variable_sourced (bound : Nat) : (readVariable bound).Sourced known ofDeclaration := by
  refine sourced_bind (sourced_expect _ _) fun name ofName => ?_
  refine sourced_bind (sourced_accept _) fun taken _ => ?_
  have behind : ∀ value : Option (Expr Unit), (∀ expr ∈ value, ofExpr expr) →
      (expect .semicolon .semicolonAfterVariable >>= fun _ =>
        pure (.var name value) : Reading (Stmt Unit)).Sourced known ofDeclaration := fun value ofValue =>
    sourced_bind (sourced_expect _ _) fun _ _ => sourced_pure (parts.defines name value ofName ofValue)
  cases taken with
  | none => exact sourced_bind (sourced_pure (by simp)) behind
  | some equals => exact sourced_bind (someExpr_sourced parts bound) behind

theorem exprStmt_sourced (bound : Nat) : (readExprStmt bound).Sourced known ofStmt := by
  refine sourced_bind (readExpr_sourced parts bound true) fun value ofValue => ?_
  exact sourced_bind (sourced_expect _ _) fun _ _ => sourced_pure (parts.expr value ofValue)

theorem print_sourced (bound : Nat) (keyword : Token) (ofKeyword : keyword.Among known .kwPrint) :
    (readPrint bound keyword).Sourced known ofStmt := by
  refine sourced_bind (readExpr_sourced parts bound true) fun value ofValue => ?_
  exact sourced_bind (sourced_expect _ _) fun _ _ => sourced_pure (parts.print keyword value ofKeyword ofValue)

theorem optional_sourced {α : Type} {good : α → Prop} (bound : Nat) (missing : Bool)
    (next : Option (Expr Unit) → Reading α)
    (sourced : ∀ value, (∀ expr ∈ value, ofExpr expr) → (next value).Sourced known good) :
    (if missing = true then pure none >>= next else some <$> readExpr bound true >>= next).Sourced known good := by
  cases missing with
  | true => exact sourced_bind (sourced_pure (by simp)) sourced
  | false => exact sourced_bind (someExpr_sourced parts bound) sourced

theorem return_sourced (bound : Nat) (keyword : Token) (ofKeyword : keyword.Among known .kwReturn) :
    (readReturn bound keyword).Sourced known ofStmt := by
  refine sourced_bind (sourced_nextIs _) fun missing _ => optional_sourced parts bound missing _ fun value ofValue => ?_
  exact sourced_bind (sourced_expect _ _) fun _ _ => sourced_pure (parts.ret keyword value ofKeyword ofValue)

theorem clause_sourced (bound : Nat) (ending : Kind) (cause : ParseCause) :
    (readClause bound ending cause).Sourced known fun value => ∀ expr ∈ value, ofExpr expr := by
  refine sourced_bind (sourced_nextIs _) fun missing _ => optional_sourced parts bound missing _ fun value ofValue => ?_
  exact sourced_bind (sourced_expect _ _) fun _ _ => sourced_pure ofValue

theorem condition_sourced (bound : Nat) (before after : ParseCause) :
    (readCondition bound before after).Sourced known ofExpr := by
  refine sourced_bind (sourced_expect _ _) fun _ _ => ?_
  refine sourced_bind (readExpr_sourced parts bound true) fun condition ofCondition => ?_
  exact sourced_bind (sourced_expect _ _) fun _ _ => sourced_pure ofCondition

theorem start_sourced (bound : Nat) :
    (readStart bound).Sourced known fun start => ∀ stmt ∈ start, ofDeclaration stmt := by
  refine sourced_bind (sourced_accept _) fun taken _ => ?_
  cases taken with
  | some semicolon => exact sourced_pure (by simp)
  | none =>
      refine sourced_bind (sourced_accept _) fun taken _ => ?_
      cases taken with
      | some keyword =>
          exact sourced_map (variable_sourced parts bound) fun _ ofStmt _ found => Option.some.inj found ▸ ofStmt
      | none =>
          exact sourced_map (exprStmt_sourced parts bound) fun stmt ofStmt _ found =>
            Option.some.inj found ▸ parts.statement stmt ofStmt

omit parts in
theorem params_sourced (bound : Nat) : ∀ count : Nat,
    (readParams bound count).Sourced known fun params => ∀ param ∈ params, param.Among known .identifier := by
  induction bound with
  | zero => exact fun _ => sourced_failHere _
  | succ bound ih =>
      intro count
      rw [readParams]
      split
      focus refine sourced_bind sourced_peek fun token inside => sourced_bind (sourced_report _ inside) fun _ _ => ?_
      all_goals
        refine sourced_bind (sourced_expect .identifier .parameterName) fun first ofFirst => ?_
        refine sourced_bind (sourced_accept (· = .comma)) fun taken _ => ?_
        cases taken with
        | none => exact sourced_pure (by simpa using ofFirst)
        | some comma =>
            exact sourced_bind (ih (count + 1)) fun rest ofRest =>
              sourced_pure (List.forall_mem_cons.mpr ⟨ofFirst, ofRest⟩)

omit parts in
theorem signature_sourced (bound : Nat) :
    (readSignature bound).Sourced known fun head =>
      head.1.Among known .identifier ∧ ∀ param ∈ head.2, param.Among known .identifier := by
  refine sourced_bind (sourced_expect _ _) fun name ofName => ?_
  refine sourced_bind (sourced_expect _ _) fun _ _ => ?_
  refine sourced_bind (sourced_nextIs _) fun closed _ => ?_
  have behind : ∀ params : List Token, (∀ param ∈ params, param.Among known .identifier) →
      (expect .rightParen .parenAfterParameters >>= fun _ => expect .leftBrace .braceBeforeBody >>= fun _ =>
        pure (name, params) : Reading (Token × List Token)).Sourced known fun head =>
          head.1.Among known .identifier ∧ ∀ param ∈ head.2, param.Among known .identifier := fun params ofParams =>
    sourced_bind (sourced_expect _ _) fun _ _ => sourced_bind (sourced_expect _ _) fun _ _ =>
      sourced_pure ⟨ofName, ofParams⟩
  cases closed with
  | true => exact sourced_bind (sourced_pure (by simp)) behind
  | false => exact sourced_bind (params_sourced bound 0) behind

theorem counting_composed (start : Option (Stmt Unit)) (condition step : Option (Expr Unit)) (body : Stmt Unit)
    (ofStart : ∀ stmt ∈ start, ofDeclaration stmt) (ofCondition : ∀ expr ∈ condition, ofExpr expr)
    (ofStep : ∀ expr ∈ step, ofExpr expr) (ofBody : ofStmt body) :
    ofStmt (Stmt.counting start condition step body) := by
  have tested : ofExpr (condition.getD (.literal (.boolean true))) := by
    cases condition with
    | none => exact parts.literal _ (.boolean true)
    | some condition => exact ofCondition condition rfl
  have round (last : Expr Unit) (found : step = some last) : ofStmt (.block [body, .expr last]) := by
    refine parts.block _ (List.forall_mem_cons.mpr ⟨parts.statement body ofBody, List.forall_mem_singleton.mpr ?_⟩)
    exact parts.statement _ (parts.expr last (ofStep last found))
  have around (repeated : Stmt Unit) (ofRepeated : ofStmt repeated) :
      ∀ first, start = some first → ofStmt (.block [first, repeated]) := by
    intro first found
    refine parts.block _ (List.forall_mem_cons.mpr ⟨ofStart first found, List.forall_mem_singleton.mpr ?_⟩)
    exact parts.statement repeated ofRepeated
  unfold Stmt.counting
  cases step with
  | none =>
      have repeated := parts.loop _ body tested ofBody
      cases start with
      | none => exact repeated
      | some first => exact around _ repeated first rfl
  | some last =>
      have repeated := parts.loop _ _ tested (round last rfl)
      cases start with
      | none => exact repeated
      | some first => exact around _ repeated first rfl

-- Readings of statements, which nest.

theorem stmt_sourced (bound : Nat) (stmts : (readStmt bound).Sourced known ofStmt)
    (blocks : (readBlock bound).Sourced known fun body => ∀ stmt ∈ body, ofDeclaration stmt) :
    (readStmt (bound + 1)).Sourced known ofStmt := by
  refine sourced_bind sourced_peek fun token inside => ?_
  split
  · refine sourced_bind (sourced_accept _) fun _ _ => ?_
    refine sourced_bind (sourced_expect _ _) fun _ _ => ?_
    refine sourced_bind (start_sourced parts bound) fun start ofStart => ?_
    refine sourced_bind (clause_sourced parts bound _ _) fun condition ofCondition => ?_
    refine sourced_bind (clause_sourced parts bound _ _) fun step ofStep => ?_
    exact sourced_bind stmts fun body ofBody =>
      sourced_pure (counting_composed parts start condition step body ofStart ofCondition ofStep ofBody)
  · refine sourced_bind (sourced_accept _) fun _ _ => ?_
    refine sourced_bind (condition_sourced parts bound _ _) fun condition ofCondition => ?_
    refine sourced_bind stmts fun yes ofYes => ?_
    refine sourced_bind (sourced_accept _) fun taken _ => ?_
    cases taken with
    | none => exact sourced_pure (parts.branch condition yes none ofCondition ofYes (by simp))
    | some keyword =>
        exact sourced_bind stmts fun no ofNo =>
          sourced_pure (parts.branch condition yes (some no) ofCondition ofYes (by simpa using ofNo))
  · rename_i isPrint
    exact sourced_bind (sourced_accept _) fun _ _ => print_sourced parts bound token ⟨inside, isPrint⟩
  · rename_i isReturn
    exact sourced_bind (sourced_accept _) fun _ _ => return_sourced parts bound token ⟨inside, isReturn⟩
  · refine sourced_bind (sourced_accept _) fun _ _ => ?_
    refine sourced_bind (condition_sourced parts bound _ _) fun condition ofCondition => ?_
    exact sourced_bind stmts fun body ofBody => sourced_pure (parts.loop condition body ofCondition ofBody)
  · refine sourced_bind (sourced_accept _) fun _ _ => ?_
    exact sourced_bind blocks fun body ofBody => sourced_pure (parts.block body ofBody)
  · exact exprStmt_sourced parts bound

theorem declaration_sourced (bound : Nat) (stmts : (readStmt bound).Sourced known ofStmt)
    (blocks : (readBlock bound).Sourced known fun body => ∀ stmt ∈ body, ofDeclaration stmt) :
    (readDeclaration (bound + 1)).Sourced known ofDeclaration := by
  refine sourced_bind sourced_peek fun token _ => ?_
  split
  · exact sourced_bind (sourced_accept _) fun _ _ => variable_sourced parts bound
  · refine sourced_bind (sourced_accept _) fun _ _ => ?_
    refine sourced_bind (signature_sourced bound) fun head ofHead => ?_
    exact sourced_bind blocks fun body ofBody =>
      sourced_pure (parts.func head.1 head.2 body ofHead.1 ofHead.2 ofBody)
  · intro stop tokens ended within
    have read := stmts stop tokens ended within
    exact ⟨fun stmt found => parts.statement stmt (read.result stmt found), read.honest, read.rest, read.errors⟩

end

-- Statements, blocks and declarations lie inside each other.
structure StmtsSourced (known : List Token) (ofStmt ofDeclaration : Stmt Unit → Prop) (bound : Nat) : Prop where
  stmt : (readStmt bound).Sourced known ofStmt
  block : (readBlock bound).Sourced known fun body => ∀ stmt ∈ body, ofDeclaration stmt
  declarations : ∀ inBlock, (readDeclarations bound inBlock).Sourced known fun body => ∀ stmt ∈ body, ofDeclaration stmt
  declaration : (readDeclaration bound).Sourced known ofDeclaration

theorem declarations_sourced (bound : Nat) (inBlock : Bool) (ih : StmtsSourced known ofStmt ofDeclaration bound) :
    (readDeclarations (bound + 1) inBlock).Sourced known fun body => ∀ stmt ∈ body, ofDeclaration stmt := by
  have others : ((readDeclaration bound).recover >>= fun first => readDeclarations bound inBlock >>=
      fun rest => pure (first.toList ++ rest)).Sourced known fun body => ∀ stmt ∈ body, ofDeclaration stmt := by
    refine sourced_bind (sourced_recover ih.declaration) fun first ofFirst => ?_
    refine sourced_bind (ih.declarations inBlock) fun rest ofRest => ?_
    cases first with
    | none => exact sourced_pure ofRest
    | some stmt => exact sourced_pure (List.forall_mem_cons.mpr ⟨ofFirst stmt rfl, ofRest⟩)
  refine sourced_bind sourced_atEnd fun atEnd _ => ?_
  split
  · exact sourced_pure (by simp)
  · refine sourced_bind (sourced_nextIs _) fun closed _ => ?_
    split
    · exact sourced_pure (by simp)
    · exact others

theorem stmts_sourced (parts : Composes known ofExpr ofStmt ofDeclaration) (bound : Nat) :
    StmtsSourced known ofStmt ofDeclaration bound := by
  induction bound with
  | zero => exact ⟨sourced_failHere _, sourced_failHere _, fun _ => sourced_failHere _, sourced_failHere _⟩
  | succ bound ih =>
      refine ⟨stmt_sourced parts bound ih.stmt ih.block, ?_, fun inBlock => declarations_sourced bound inBlock ih,
        declaration_sourced parts bound ih.stmt ih.block⟩
      refine sourced_bind (ih.declarations true) fun body ofBody => ?_
      exact sourced_bind (sourced_expect _ _) fun _ _ => sourced_pure ofBody

-- Being built from the known tokens is such a property.
theorem sourced_composes (known : List Token) :
    Composes known (Expr.Sourced known) (Stmt.Sourced known) (Stmt.Sourced known) where
  literal _ _ := trivial
  group _ ofInner := ofInner
  unary _ _ inside _ ofOperand := ⟨inside, ofOperand⟩
  join _ level _ _ _ inside _ ofLeft ofRight := by
    cases level with
    | sequence => exact ⟨ofLeft, ofRight⟩
    | _ => exact ⟨ofLeft, inside, ofRight⟩
  ternary _ _ _ ofCondition ofYes ofNo := ⟨ofCondition, ofYes, ofNo⟩
  var _ ofName := ofName
  assign _ _ ofName ofValue := ⟨ofName, ofValue⟩
  call _ _ arguments ofCallee ofClose ofArguments :=
    ⟨ofCallee, ofClose, (Expr.sourcedAll_iff known arguments).mpr ofArguments⟩
  ret _ _ ofKeyword ofValue := ⟨ofKeyword.1, ofValue⟩
  print _ _ ofKeyword ofValue := ⟨ofKeyword, ofValue⟩
  expr _ ofValue := ofValue
  block body ofBody := (Stmt.sourcedAll_iff known body).mpr ofBody
  branch _ _ no ofCondition ofYes ofNo := by
    cases no with
    | none => exact ⟨ofCondition, ofYes⟩
    | some no => exact ⟨ofCondition, ofYes, ofNo no rfl⟩
  loop _ _ ofCondition ofBody := ⟨ofCondition, ofBody⟩
  defines _ _ ofName ofValue := ⟨ofName, ofValue⟩
  func _ _ body ofName ofParams ofBody := ⟨ofName, ofParams, (Stmt.sourcedAll_iff known body).mpr ofBody⟩
  statement _ ofStmt := ofStmt

theorem declarations_honest (bound : Nat) (inBlock : Bool) : (readDeclarations bound inBlock).Honest :=
  honest_of_sourced fun known => (stmts_sourced (sourced_composes known) bound).declarations inBlock

theorem declaration_honest (bound : Nat) : (readDeclaration bound).Honest :=
  honest_of_sourced fun known => (stmts_sourced (sourced_composes known) bound).declaration

theorem whole_honest (input : Input) : input.whole.Honest :=
  honest_of_sourced fun known => whole_sourced (sourced_composes known) input

-- What is read from all the tokens there are.
theorem program_composed (input : Input) (known : List Token) (ended : input.stop ∈ known)
    (within : input.tokens ⊆ known) (parts : Composes known ofExpr ofStmt ofDeclaration) :
    (∀ stmt ∈ input.program.result, ofDeclaration stmt) ∧ ∀ error ∈ input.program.errors, error.token ∈ known := by
  have read := (stmts_sourced parts input.bound).declarations false input.stop input.tokens ended within
  refine ⟨?_, read.errors⟩
  cases result : (readDeclarations input.bound false input.stop input.tokens).result with
  | none => simp [Input.program, result]
  | some program =>
      simp only [Input.program, result]
      exact read.result program result

theorem expression_composed (input : Input) (known : List Token) (ended : input.stop ∈ known)
    (within : input.tokens ⊆ known) (parts : Composes known ofExpr ofStmt ofDeclaration) (tree : Expr Unit)
    (given : input.expression.result = some tree) : ofExpr tree := by
  have read := whole_sourced parts input input.stop input.tokens ended within
  simp only [Input.expression] at given
  split at given
  · exact read.result tree given
  · cases given

-- Where the end of the input is a token too, mistakes noticed there are reported at it.

theorem readProgram_composed (tokens : List Token) (ended : ∃ stop ∈ tokens, stop.kind = .endOfInput)
    (parts : Composes tokens ofExpr ofStmt ofDeclaration) :
    (∀ stmt ∈ (readProgram tokens).result, ofDeclaration stmt) ∧
      ∀ error ∈ (readProgram tokens).errors, error.token ∈ tokens := by
  obtain ⟨stop, found⟩ : ∃ stop, tokens.find? (·.kind = .endOfInput) = some stop := by
    rw [← Option.isSome_iff_exists, List.find?_isSome]
    simpa using ended
  have stopInside : (Input.ofTokens tokens).stop ∈ tokens := by
    simpa [Input.ofTokens, found] using List.mem_of_find?_eq_some found
  have within : (Input.ofTokens tokens).tokens ⊆ tokens := List.takeWhile_subset fun token : Token => token.kind ≠ .endOfInput
  exact program_composed (Input.ofTokens tokens) tokens stopInside within parts

theorem readProgram_sourced (tokens : List Token) (ended : ∃ stop ∈ tokens, stop.kind = .endOfInput) :
    Stmt.SourcedAll tokens (readProgram tokens).result ∧
      ∀ error ∈ (readProgram tokens).errors, error.token ∈ tokens := by
  rw [Stmt.sourcedAll_iff]
  exact readProgram_composed tokens ended (sourced_composes tokens)

end Grammar

end Treewalk
