import Treewalk.Proofs.StmtParsing

/-!
An expression of the plain grammar also has a longest derivation. Where the plain grammar leaves a choice, the
longest derivation moves the boundary: operators behind a conditional go into its last branch.
-/

set_option autoImplicit false

namespace Treewalk.Grammar

theorem ends_plain (more : Kind → Bool) (rest : List Token) : Ends false more rest := by
  intro longest
  cases longest

-- A longest derivation is a plain one.

theorem derives_weaken (longest : Bool) (symbol : Symbol) (tokens rest : List Token) (tree : symbol.Tree)
    (derived : Derives longest symbol tokens rest tree) : Derives false symbol tokens rest tree := by
  induction derived with
  | assign _ _ _ _ _ _ isName isEquals _ ih => exact .assign _ _ _ _ _ _ isName isEquals ih
  | operators _ _ _ _ _ _ ih => exact .operators _ _ _ _ ih (ends_plain _ _)
  | level _ _ _ _ _ _ _ _ _ ihOperand ihOthers => exact .level _ _ _ _ _ _ _ ihOperand ihOthers
  | alone => exact .alone _ _ _ _ (ends_plain _ _)
  | joined _ _ _ _ _ _ _ _ _ joins _ _ ihOperand ihOthers => exact .joined _ _ _ _ _ _ _ _ _ joins ihOperand ihOthers
  | tighter _ _ _ _ _ _ next _ ih => exact .tighter _ _ _ _ _ _ next ih
  | ofSequence _ _ _ _ _ ih => exact .ofSequence _ _ _ _ ih
  | ofFactor _ _ _ _ _ ih => exact .ofFactor _ _ _ _ ih
  | unconditional _ _ _ _ _ _ ih => exact .unconditional _ _ _ _ ih (ends_plain _ _)
  | conditional _ _ _ _ _ _ _ _ _ _ _ isQuestion _ isColon _ ihTest ihYes ihNo =>
      exact .conditional _ _ _ _ _ _ _ _ _ _ ihTest isQuestion ihYes isColon ihNo
  | signed _ _ _ _ isSign _ ih => exact .signed _ _ _ _ isSign ih
  | unsigned _ _ _ _ _ _ _ ihCallee ihOthers => exact .unsigned _ _ _ _ _ ihCallee ihOthers
  | uncalled => exact .uncalled _ _ (ends_plain _ _)
  | callNothing _ _ _ _ _ _ isOpening isClose _ ih => exact .callNothing _ _ _ _ _ _ isOpening isClose ih
  | call _ _ _ _ _ _ _ _ isOpening _ isClose _ ihGiven ihOthers =>
      exact .call _ _ _ _ _ _ _ _ isOpening ihGiven isClose ihOthers
  | lastArgument _ _ _ _ few _ _ ih => exact .lastArgument _ _ _ _ few ih (ends_plain _ _)
  | argument _ _ _ _ _ _ _ few _ isComma _ ihGiven ihLater => exact .argument _ _ _ _ _ _ _ few ihGiven isComma ihLater
  | truth _ _ kind => exact .truth _ _ kind
  | falsity _ _ kind => exact .falsity _ _ kind
  | nothing _ _ kind => exact .nothing _ _ kind
  | literal _ _ _ kind decoded => exact .literal _ _ _ kind decoded
  | named _ _ kind => exact .named _ _ kind
  | group _ _ _ _ _ isOpening _ isClose ih => exact .group _ _ _ _ _ isOpening ih isClose

-- Operators that stand between conditionals, and kinds that can carry an expression on.

def separates (commas : Bool) (kind : Kind) : Bool := kind = .kwOr || kind = .kwAnd || commas && kind = .comma

-- What a tight level's operand cannot be followed by without taking it in.
def extendsOperand : Level → Kind → Bool
  | .factor, kind => kind = .leftParen
  | .term, kind => kind = .leftParen || Level.joins false .factor kind
  | .comparison, kind => kind = .leftParen || Level.joins false .factor kind || Level.joins false .term kind
  | .equality, kind =>
      kind = .leftParen || Level.joins false .factor kind || Level.joins false .term kind ||
        Level.joins false .comparison kind
  | _, _ => false

def extendsLevel (level : Level) (kind : Kind) : Bool := level.joins false kind || extendsOperand level kind

def carriesOn (commas : Bool) (kind : Kind) : Bool :=
  separates commas kind || kind = .equal || kind = .question || extendsLevel .equality kind

-- Operands without a condition, with separators between them, up to a last one that may have a condition.
inductive Chain (commas : Bool) : List Token → List Token → Prop where
  | last (tokens rest : List Token) (tree : Expr Unit) (whole : Derives true (.ternary commas) tokens rest tree) :
      Chain commas tokens rest
  | more (tokens middle rest : List Token) (operator : Token) (tree : Expr Unit)
      (first : Derives true (.level commas .equality) tokens (operator :: middle) tree)
      (separator : separates commas operator.kind = true) (others : Chain commas middle rest) :
      Chain commas tokens rest

-- What may still follow an operand: nothing, or a separator and a chain.
def Tail (commas : Bool) (tokens rest : List Token) : Prop :=
  tokens = rest ∨ ∃ operator later, tokens = operator :: later ∧ separates commas operator.kind = true ∧
    Chain commas later rest

-- A chain falls into the levels of `or`, `and` and the comma: each separator ends the lists of the tighter
-- levels before it and goes on with the list of its own.
def Grouped (commas : Bool) (tokens rest : List Token) : Prop :=
  ∃ (first : Expr Unit) (afterFirst afterCommas afterAnds : List Token),
    Derives true (.ternary commas) tokens afterFirst first ∧
    (∀ left, ∃ tree, Derives true (.joined commas .sequence left) afterFirst afterCommas tree) ∧
    (∀ left, ∃ tree, Derives true (.joined commas .conjunction left) afterCommas afterAnds tree) ∧
    (∀ left, ∃ tree, Derives true (.joined commas .disjunction left) afterAnds rest tree)

theorem unjoined (commas : Bool) (level : Level) (rest : List Token) (ends : ¬ Ahead (level.joins commas) rest)
    (left : Expr Unit) : ∃ tree, Derives true (.joined commas level left) rest rest tree :=
  ⟨left, .alone commas level left rest (fun _ => ends)⟩

theorem not_ahead_joins (commas : Bool) (level : Level) (rest : List Token) (ends : ¬ Ahead (carriesOn commas) rest) :
    ¬ Ahead (level.joins commas) rest := by
  intro hit
  refine ends (ahead_weaken rest _ _ hit (fun kind joins => ?_))
  cases level <;> cases kind <;> simp_all [Level.joins, carriesOn, separates, extendsLevel, extendsOperand]

theorem chain_grouped (commas : Bool) (tokens rest : List Token) (chain : Chain commas tokens rest)
    (ends : ¬ Ahead (carriesOn commas) rest) : Grouped commas tokens rest := by
  induction chain with
  | last tokens rest tree whole =>
      exact ⟨tree, rest, rest, rest, whole, unjoined commas .sequence rest (not_ahead_joins commas _ rest ends),
        unjoined commas .conjunction rest (not_ahead_joins commas _ rest ends),
        unjoined commas .disjunction rest (not_ahead_joins commas _ rest ends)⟩
  | more tokens middle rest operator tree first separator others ih =>
      obtain ⟨second, afterSecond, afterCommas, afterAnds, whole, byCommas, byAnds, byOrs⟩ := ih ends
      have lone : Derives true (.ternary commas) tokens (operator :: middle) tree := by
        refine .unconditional commas tokens _ tree first (fun _ => ?_)
        revert separator
        rw [ahead_cons]
        cases operator.kind <;> simp [separates]
      have operand : Derives true (.operand commas .sequence) middle afterSecond second :=
        .ofSequence commas middle afterSecond second whole
      obtain ⟨sequence, commaList⟩ : ∃ tree, Derives true (.level commas .sequence) middle afterCommas tree := by
        obtain ⟨tree, joined⟩ := byCommas second
        exact ⟨tree, .level commas .sequence middle afterSecond afterCommas second tree operand joined⟩
      obtain ⟨conjunction, andList⟩ : ∃ tree, Derives true (.level commas .conjunction) middle afterAnds tree := by
        obtain ⟨tree, joined⟩ := byAnds sequence
        exact ⟨tree, .level commas .conjunction middle afterCommas afterAnds sequence tree
          (.tighter _ _ _ _ _ _ rfl commaList) joined⟩
      simp only [separates, Bool.or_eq_true, Bool.and_eq_true, decide_eq_true_eq] at separator
      rcases separator with (isOr | isAnd) | ⟨allowed, isComma⟩
      · refine ⟨tree, operator :: middle, operator :: middle, operator :: middle, lone, ?_, ?_, fun left => ?_⟩
        · exact unjoined commas .sequence _ (by simp [ahead_cons, Level.joins, isOr])
        · exact unjoined commas .conjunction _ (by simp [ahead_cons, Level.joins, isOr])
        · obtain ⟨whole, joined⟩ := byOrs (Level.join left operator conjunction .disjunction)
          exact ⟨whole, .joined commas .disjunction left conjunction whole operator middle afterAnds rest
            (by simp [Level.joins, isOr]) (.tighter _ _ _ _ _ _ rfl andList) joined⟩
      · refine ⟨tree, operator :: middle, operator :: middle, afterAnds, lone, ?_, fun left => ?_, byOrs⟩
        · exact unjoined commas .sequence _ (by simp [ahead_cons, Level.joins, isAnd])
        · obtain ⟨whole, joined⟩ := byAnds (Level.join left operator sequence .conjunction)
          exact ⟨whole, .joined commas .conjunction left sequence whole operator middle afterCommas afterAnds
            (by simp [Level.joins, isAnd]) (.tighter _ _ _ _ _ _ rfl commaList) joined⟩
      · refine ⟨tree, operator :: middle, afterCommas, afterAnds, lone, fun left => ?_, byAnds, byOrs⟩
        obtain ⟨whole, joined⟩ := byCommas (Level.join left operator second .sequence)
        exact ⟨whole, .joined commas .sequence left second whole operator middle afterSecond afterCommas
          (by simp [Level.joins, allowed, isComma]) operand joined⟩

theorem grouped_derives (commas : Bool) (tokens rest : List Token) (grouped : Grouped commas tokens rest) :
    ∃ tree, Derives true (.level commas .disjunction) tokens rest tree := by
  obtain ⟨first, afterFirst, afterCommas, afterAnds, whole, byCommas, byAnds, byOrs⟩ := grouped
  obtain ⟨sequence, joined⟩ := byCommas first
  have commaList := Derives.level commas .sequence tokens afterFirst afterCommas first sequence
    (.ofSequence commas tokens afterFirst first whole) joined
  obtain ⟨conjunction, joined⟩ := byAnds sequence
  have andList := Derives.level commas .conjunction tokens afterCommas afterAnds sequence conjunction
    (.tighter _ _ _ _ _ _ rfl commaList) joined
  obtain ⟨disjunction, joined⟩ := byOrs conjunction
  exact ⟨disjunction, .level commas .disjunction tokens afterAnds rest conjunction disjunction
    (.tighter _ _ _ _ _ _ rfl andList) joined⟩

-- Where operands may have a condition of their own.
def loose : Level → Bool
  | .disjunction | .conjunction | .sequence => true
  | _ => false

theorem joins_separates (commas : Bool) (level : Level) (kind : Kind) (isLoose : loose level = true)
    (joins : level.joins commas kind = true) : separates commas kind = true := by
  cases level <;> simp_all [loose, Level.joins, separates]

theorem joins_extends (commas : Bool) (level : Level) (kind : Kind) (isTight : loose level = false)
    (joins : level.joins commas kind = true) :
    extendsLevel level kind = true ∧ ¬ extendsOperand level kind = true := by
  cases level <;> cases kind <;> simp_all [loose, Level.joins, extendsLevel, extendsOperand]

theorem separates_not_extends (commas : Bool) (kind : Kind) (separator : separates commas kind = true) :
    ¬ extendsLevel .equality kind = true := by
  cases kind <;> simp_all [separates, Level.joins, extendsLevel, extendsOperand]

theorem extends_below (level below : Level) (kind : Kind) (isTight : loose level = false)
    (next : tighter? level = some below) (more : extendsLevel below kind = true) :
    extendsOperand level kind = true := by
  cases level <;> cases next <;> grind [loose, extendsLevel, extendsOperand]

theorem joined_front (longest commas : Bool) (level : Level) (left tree : Expr Unit) (tokens rest : List Token)
    (derived : Derives longest (.joined commas level left) tokens rest tree) :
    tokens = rest ∨ Ahead (level.joins commas) tokens := by
  cases derived with
  | alone => exact .inl rfl
  | joined _ _ _ _ _ _ _ _ _ joins => exact .inr ((ahead_cons ..).mpr joins)

-- The operand before a list of further ones is not extended by what comes next.
theorem operand_ends (longest commas : Bool) (level : Level) (left tree : Expr Unit) (tokens rest : List Token)
    (isTight : loose level = false) (ends : ¬ Ahead (extendsLevel level) rest)
    (derived : Derives longest (.joined commas level left) tokens rest tree) :
    ¬ Ahead (extendsOperand level) tokens := by
  rcases joined_front longest commas level left tree tokens rest derived with rfl | joins
  · intro hit
    exact ends (ahead_weaken tokens _ _ hit (fun kind more => by simp [extendsLevel, more]))
  · exact ahead_excludes _ _ tokens joins (fun kind joins => (joins_extends commas level kind isTight joins).2)

-- What a plain derivation becomes when more may follow it. Loose parts take in the tail behind them, up to
-- where nothing carries the expression on; tight parts stay where they end.
def Symbol.Extends (tokens rest : List Token) : Symbol → Prop
  | .expr commas => ∀ final, Tail commas rest final → ¬ Ahead (carriesOn commas) final →
      ∃ tree, Derives true (.expr commas) tokens final tree
  | .level commas order =>
      (loose order = true → ∀ final, Tail commas rest final → ¬ Ahead (carriesOn commas) final →
        Chain commas tokens final) ∧
      (loose order = false → ¬ Ahead (extendsLevel order) rest →
        ∃ tree, Derives true (.level commas order) tokens rest tree)
  | .operand commas order =>
      (loose order = true → ∀ final, Tail commas rest final → ¬ Ahead (carriesOn commas) final →
        Chain commas tokens final) ∧
      (loose order = false → ¬ Ahead (extendsOperand order) rest →
        ∃ tree, Derives true (.operand commas order) tokens rest tree)
  | .joined commas order _ =>
      (loose order = true → ∀ final, Tail commas rest final → ¬ Ahead (carriesOn commas) final →
        Tail commas tokens final) ∧
      (loose order = false → ¬ Ahead (extendsLevel order) rest →
        ∀ left, ∃ tree, Derives true (.joined commas order left) tokens rest tree)
  | .ternary commas => ∀ final, Tail commas rest final → ¬ Ahead (carriesOn commas) final → Chain commas tokens final
  | .unary => ¬ Ahead (· = .leftParen) rest → ∃ tree, Derives true .unary tokens rest tree
  | .calls _ => ¬ Ahead (· = .leftParen) rest → ∀ callee, ∃ tree, Derives true (.calls callee) tokens rest tree
  | .arguments count => ¬ Ahead (· = .comma) rest → ¬ Ahead (carriesOn false) rest →
      ∃ trees, Derives true (.arguments count) tokens rest trees
  | .primary => ∃ tree, Derives true .primary tokens rest tree

theorem level_extends (commas : Bool) (level : Level) (tokens middle rest : List Token) (first tree : Expr Unit)
    (others : Derives false (.joined commas level first) middle rest tree)
    (ihOperand : (Symbol.operand commas level).Extends tokens middle)
    (ihOthers : (Symbol.joined commas level first).Extends middle rest) :
    (Symbol.level commas level).Extends tokens rest := by
  constructor
  · intro isLoose final tail ends
    exact ihOperand.1 isLoose final (ihOthers.1 isLoose final tail ends) ends
  · intro isTight ends
    obtain ⟨operand, found⟩ := ihOperand.2 isTight
      (operand_ends false commas level first tree middle rest isTight ends others)
    obtain ⟨whole, joined⟩ := ihOthers.2 isTight ends operand
    exact ⟨whole, .level commas level tokens middle rest operand whole found joined⟩

theorem joined_extends (commas : Bool) (level : Level) (left right tree : Expr Unit) (operator : Token)
    (tokens middle rest : List Token) (joins : level.joins commas operator.kind = true)
    (others : Derives false (.joined commas level (level.join left operator right)) middle rest tree)
    (ihOperand : (Symbol.operand commas level).Extends tokens middle)
    (ihOthers : (Symbol.joined commas level (level.join left operator right)).Extends middle rest) :
    (Symbol.joined commas level left).Extends (operator :: tokens) rest := by
  constructor
  · intro isLoose final tail ends
    have chain := ihOperand.1 isLoose final (ihOthers.1 isLoose final tail ends) ends
    exact .inr ⟨operator, tokens, rfl, joins_separates commas level _ isLoose joins, chain⟩
  · intro isTight ends before
    obtain ⟨operand, found⟩ := ihOperand.2 isTight
      (operand_ends false commas level _ tree middle rest isTight ends others)
    obtain ⟨whole, joined⟩ := ihOthers.2 isTight ends (level.join before operator operand)
    exact ⟨whole, .joined commas level before operand whole operator tokens middle rest joins found joined⟩

theorem unconditional_extends (commas : Bool) (tokens rest : List Token)
    (ih : (Symbol.level commas .equality).Extends tokens rest) : (Symbol.ternary commas).Extends tokens rest := by
  intro final tail ends
  rcases tail with rfl | ⟨operator, later, rfl, separator, chain⟩
  · have stops : ¬ Ahead (extendsLevel .equality) rest := fun hit =>
      ends (ahead_weaken rest _ _ hit (fun kind more => by simp [carriesOn, more]))
    obtain ⟨tree, found⟩ := ih.2 rfl stops
    refine .last tokens rest tree (.unconditional commas tokens rest tree found (fun _ hit => ?_))
    exact ends (ahead_weaken rest _ _ hit (fun kind more => by simp [carriesOn, of_decide_eq_true more]))
  · have stops : ¬ Ahead (extendsLevel .equality) (operator :: later) := by
      rw [ahead_cons]
      exact separates_not_extends commas _ separator
    obtain ⟨tree, found⟩ := ih.2 rfl stops
    exact .more tokens later final operator tree found separator chain

theorem conditional_extends (commas : Bool) (question colon : Token)
    (tokens afterCondition afterYes rest : List Token) (isQuestion : question.kind = .question)
    (isColon : colon.kind = .colon)
    (ihTest : (Symbol.level commas .equality).Extends tokens (question :: afterCondition))
    (ihYes : (Symbol.expr commas).Extends afterCondition (colon :: afterYes))
    (ihNo : (Symbol.expr commas).Extends afterYes rest) : (Symbol.ternary commas).Extends tokens rest := by
  intro final tail ends
  obtain ⟨condition, test⟩ := ihTest.2 rfl
    (by simp [ahead_cons, extendsLevel, extendsOperand, Level.joins, isQuestion])
  obtain ⟨yes, chosen⟩ := ihYes (colon :: afterYes) (.inl rfl)
    (by simp [ahead_cons, carriesOn, separates, extendsLevel, extendsOperand, Level.joins, isColon])
  obtain ⟨no, otherwise⟩ := ihNo final tail ends
  exact .last tokens final _ (.conditional commas question colon tokens afterCondition afterYes final condition yes no
    test isQuestion chosen isColon otherwise)

theorem operators_extends (commas : Bool) (tokens rest : List Token)
    (ih : (Symbol.level commas .disjunction).Extends tokens rest) : (Symbol.expr commas).Extends tokens rest := by
  intro final tail ends
  have chain := ih.1 rfl final tail ends
  obtain ⟨tree, whole⟩ := grouped_derives commas tokens final (chain_grouped commas tokens final chain ends)
  refine ⟨tree, .operators commas tokens final tree whole (fun _ hit => ?_)⟩
  exact ends (ahead_weaken final _ _ hit (fun kind more => by simp [carriesOn, of_decide_eq_true more]))

theorem tighter_extends (commas : Bool) (level below : Level) (tokens rest : List Token)
    (next : tighter? level = some below) (ih : (Symbol.level commas below).Extends tokens rest) :
    (Symbol.operand commas level).Extends tokens rest := by
  constructor
  · intro isLoose
    exact ih.1 (by cases level <;> cases next <;> simp_all [loose])
  · intro isTight ends
    have stops : ¬ Ahead (extendsLevel below) rest := fun hit =>
      ends (ahead_weaken rest _ _ hit (fun kind more => extends_below level below kind isTight next more))
    obtain ⟨tree, whole⟩ := ih.2 (by cases level <;> cases next <;> simp_all [loose]) stops
    exact ⟨tree, .tighter commas level below tokens rest tree next whole⟩

-- An expression is complete before any token that cannot carry it on.
theorem expr_completes (commas : Bool) (tokens rest : List Token) (ih : (Symbol.expr commas).Extends tokens rest)
    (ends : ¬ Ahead (carriesOn commas) rest) : ∃ tree, Derives true (.expr commas) tokens rest tree :=
  ih rest (.inl rfl) ends

theorem derives_extends (symbol : Symbol) (tokens rest : List Token) (tree : symbol.Tree)
    (derived : Derives false symbol tokens rest tree) : symbol.Extends tokens rest := by
  induction derived with
  | assign commas name equals tokens rest value isName isEquals _ ih =>
      intro final tail ends
      obtain ⟨tree, assigned⟩ := ih final tail ends
      exact ⟨_, .assign commas name equals tokens final tree isName isEquals assigned⟩
  | operators commas tokens rest _ _ _ ih => exact operators_extends commas tokens rest ih
  | level commas level tokens middle rest first tree _ others ihOperand ihOthers =>
      exact level_extends commas level tokens middle rest first tree others ihOperand ihOthers
  | alone commas level left rest _ =>
      refine ⟨fun _ final tail _ => tail, fun isTight ends before => ?_⟩
      exact unjoined commas level rest (fun hit => ends (ahead_weaken rest _ _ hit
        (fun kind joins => (joins_extends commas level kind isTight joins).1))) before
  | joined commas level left right tree operator tokens middle rest joins _ others ihOperand ihOthers =>
      exact joined_extends commas level left right tree operator tokens middle rest joins others ihOperand ihOthers
  | tighter commas level below tokens rest _ next _ ih =>
      exact tighter_extends commas level below tokens rest next ih
  | ofSequence commas tokens rest _ _ ih => exact ⟨fun _ => ih, fun isTight => nomatch isTight⟩
  | ofFactor commas tokens rest _ _ ih =>
      refine ⟨fun isLoose => (nomatch isLoose), fun _ ends => ?_⟩
      obtain ⟨tree, whole⟩ := ih ends
      exact ⟨tree, .ofFactor commas tokens rest tree whole⟩
  | unconditional commas tokens rest _ _ _ ih => exact unconditional_extends commas tokens rest ih
  | conditional commas question colon tokens afterCondition afterYes rest _ _ _ _ isQuestion _ isColon _ ihTest ihYes
      ihNo =>
      exact conditional_extends commas question colon tokens afterCondition afterYes rest isQuestion isColon ihTest
        ihYes ihNo
  | signed operator tokens rest _ isSign _ ih =>
      intro ends
      obtain ⟨tree, whole⟩ := ih ends
      exact ⟨_, .signed operator tokens rest tree isSign whole⟩
  | unsigned tokens middle rest _ _ _ _ ihCallee ihOthers =>
      intro ends
      obtain ⟨callee, called⟩ := ihCallee
      obtain ⟨tree, others⟩ := ihOthers ends callee
      exact ⟨tree, .unsigned tokens middle rest callee tree called others⟩
  | uncalled _ rest _ => exact fun ends callee => ⟨callee, .uncalled callee rest (fun _ => ends)⟩
  | callNothing _ _ opening close tokens rest isOpening isClose _ ih =>
      intro ends callee
      obtain ⟨tree, others⟩ := ih ends (.call callee close [])
      exact ⟨tree, .callNothing callee tree opening close tokens rest isOpening isClose others⟩
  | call _ _ _ opening close tokens middle rest isOpening _ isClose _ ihGiven ihOthers =>
      intro ends callee
      obtain ⟨arguments, given⟩ := ihGiven (by simp [ahead_cons, isClose])
        (by simp [ahead_cons, carriesOn, separates, extendsLevel, extendsOperand, Level.joins, isClose])
      obtain ⟨tree, others⟩ := ihOthers ends (.call callee close arguments)
      exact ⟨tree, .call callee tree arguments opening close tokens middle rest isOpening given isClose others⟩
  | lastArgument count tokens rest _ few _ _ ih =>
      intro noComma ends
      obtain ⟨last, given⟩ := expr_completes false tokens rest ih ends
      exact ⟨[last], .lastArgument count tokens rest last few given (fun _ => noComma)⟩
  | argument count comma tokens middle rest _ _ few _ isComma _ ihGiven ihLater =>
      intro noComma ends
      obtain ⟨first, given⟩ := expr_completes false tokens (comma :: middle) ihGiven
        (by simp [ahead_cons, carriesOn, separates, extendsLevel, extendsOperand, Level.joins, isComma])
      obtain ⟨others, later⟩ := ihLater noComma ends
      exact ⟨first :: others, .argument count comma tokens middle rest first others few given isComma later⟩
  | truth token rest isTrue => exact ⟨_, .truth token rest isTrue⟩
  | falsity token rest isFalse => exact ⟨_, .falsity token rest isFalse⟩
  | nothing token rest isNil => exact ⟨_, .nothing token rest isNil⟩
  | literal token value rest isLiteral decoded => exact ⟨_, .literal token value rest isLiteral decoded⟩
  | named token rest isName => exact ⟨_, .named token rest isName⟩
  | group opening close tokens rest _ isOpening _ isClose ih =>
      obtain ⟨inner, whole⟩ := expr_completes true tokens (close :: rest) ih
        (by simp [ahead_cons, carriesOn, separates, extendsLevel, extendsOperand, Level.joins, isClose])
      exact ⟨_, .group opening close tokens rest inner isOpening whole isClose⟩

end Treewalk.Grammar
