import Treewalk.Proofs.Grammar

/-!
Reading follows the grammar. A reading that reports no mistake has found the longest derivation, and every
longest derivation is found once the bound on nesting leaves room for it.
-/

set_option autoImplicit false

namespace Treewalk.Grammar

open Reading

-- The reading that belongs to a symbol.
def Symbol.read : (symbol : Symbol) → Nat → Reading symbol.Tree
  | .expr commas, bound => readExpr bound commas
  | .level commas tier, bound => readLevel bound commas tier
  | .joined commas tier left, bound => readJoined bound commas tier left
  | .operand commas tier, bound => readOperand bound commas tier
  | .ternary commas, bound => readTernary bound commas
  | .unary, bound => readUnary bound
  | .calls callee, bound => readCalls bound callee
  | .arguments count, bound => readArguments bound count
  | .primary, bound => readPrimary bound

-- Whatever a symbol's reading gives within a bound is derived.
def Sound (bound : Nat) : Prop :=
  ∀ (symbol : Symbol) (stop : Token) (tokens rest : List Token) (tree : symbol.Tree),
    stop.kind = .endOfInput → (symbol.read bound).Gives stop tokens tree rest →
    Derives true symbol tokens rest tree

-- A derivation of a variable has used up its name and nothing else.

def Symbol.IsVariable (name : Token) : (symbol : Symbol) → symbol.Tree → Prop
  | .arguments _, _ => False
  | .expr _, tree | .level _ _, tree | .joined _ _ _, tree | .operand _ _, tree | .ternary _, tree
  | .unary, tree | .calls _, tree | .primary, tree => tree = .var () name

def Symbol.IsAlone (name : Token) (tokens rest : List Token) : Symbol → Prop
  | .joined _ _ left => left = .var () name ∧ tokens = rest
  | .calls callee => callee = .var () name ∧ tokens = rest
  | _ => tokens = name :: rest ∧ name.kind = .identifier

theorem join_not_variable (level : Level) (left right : Expr Unit) (operator name : Token) :
    level.join left operator right ≠ .var () name := by
  cases level <;> simp [Level.join]

theorem derives_variable (longest : Bool) (symbol : Symbol) (name : Token) (tokens rest : List Token)
    (tree : symbol.Tree) (derived : Derives longest symbol tokens rest tree)
    (found : symbol.IsVariable name tree) : symbol.IsAlone name tokens rest := by
  induction derived with
  | assign | conditional | signed | truth | falsity | nothing | literal | group => cases found
  | lastArgument | argument => exact found.elim
  | operators _ _ _ _ _ _ ih | tighter _ _ _ _ _ _ _ _ ih | ofSequence _ _ _ _ _ ih | ofFactor _ _ _ _ _ ih
  | unconditional _ _ _ _ _ _ ih => exact ih found
  | level _ _ _ _ _ _ _ _ _ ihOperand ihOthers | unsigned _ _ _ _ _ _ _ ihOperand ihOthers =>
      obtain ⟨first, rfl⟩ := ihOthers found
      exact ihOperand first
  | alone | uncalled => exact ⟨found, rfl⟩
  | joined _ level left right _ operator _ _ _ _ _ _ _ ihOthers =>
      exact absurd (ihOthers found).1 (join_not_variable level left right operator name)
  | callNothing _ _ _ _ _ _ _ _ _ ihOthers | call _ _ _ _ _ _ _ _ _ _ _ _ _ ihOthers =>
      cases (ihOthers found).1
  | named token rest isName =>
      cases found
      exact ⟨rfl, isName⟩

-- Soundness, one reading at a time: each uses only readings within a smaller bound.

variable (bound : Nat) (stop : Token) (tokens rest : List Token)

theorem expr_sound (commas : Bool) (tree : Expr Unit) (sound : Sound bound) (atEnd : stop.kind = .endOfInput)
    (given : (readExpr (bound + 1) commas).Gives stop tokens tree rest) :
    Derives true (.expr commas) tokens rest tree := by
  rw [readExpr, gives_bind] at given
  obtain ⟨target, middle, read, given⟩ := given
  have whole : Derives true (.level commas .disjunction) tokens middle target :=
    sound (.level commas .disjunction) stop tokens middle target atEnd read
  rw [gives_accept_bind] at given
  rcases given with ⟨missing, given⟩ | ⟨equals, later, rfl, isEquals, given⟩
  · obtain ⟨rfl, rfl⟩ := (gives_pure ..).mp given
    exact .operators commas tokens middle target whole (fun _ => missing)
  · rw [gives_bind] at given
    obtain ⟨value, left, read, given⟩ := given
    have assigned : Derives true (.expr commas) later left value :=
      sound (.expr commas) stop later left value atEnd read
    cases target with
    | var label name =>
        obtain ⟨rfl, rfl⟩ := (gives_pure ..).mp given
        obtain ⟨rfl, isName⟩ := derives_variable true _ name _ _ _ whole rfl
        exact .assign commas name equals later left value isName (of_decide_eq_true isEquals) assigned
    | _ => exact absurd given (not_gives_report_bind _ _ _ _ _ _ _)

theorem level_sound (commas : Bool) (level : Level) (tree : Expr Unit) (sound : Sound bound)
    (atEnd : stop.kind = .endOfInput)
    (given : (readLevel (bound + 1) commas level).Gives stop tokens tree rest) :
    Derives true (.level commas level) tokens rest tree := by
  rw [readLevel, gives_bind] at given
  obtain ⟨first, middle, read, given⟩ := given
  exact .level commas level tokens middle rest first tree
    (sound (.operand commas level) stop tokens middle first atEnd read)
    (sound (.joined commas level first) stop middle rest tree atEnd given)

theorem joined_sound (commas : Bool) (level : Level) (left tree : Expr Unit) (sound : Sound bound)
    (atEnd : stop.kind = .endOfInput)
    (given : (readJoined (bound + 1) commas level left).Gives stop tokens tree rest) :
    Derives true (.joined commas level left) tokens rest tree := by
  rw [readJoined, gives_accept_bind] at given
  rcases given with ⟨missing, given⟩ | ⟨operator, later, rfl, joins, given⟩
  · obtain ⟨rfl, rfl⟩ := (gives_pure ..).mp given
    exact .alone commas level left tokens (fun _ => missing)
  · rw [gives_bind] at given
    obtain ⟨right, middle, read, given⟩ := given
    exact .joined commas level left right tree operator later middle rest joins
      (sound (.operand commas level) stop later middle right atEnd read)
      (sound (.joined commas level _) stop middle rest tree atEnd given)

-- An operand of a conjunction is read one step deeper than the others, past the check for an operator.
theorem sequence_sound (commas : Bool) (tree : Expr Unit) (sound : ∀ smaller < bound, Sound smaller)
    (atEnd : stop.kind = .endOfInput) (given : (readSequence bound commas).Gives stop tokens tree rest) :
    Derives true (.level commas .sequence) tokens rest tree := by
  cases bound with
  | zero => exact absurd given (not_gives_failHere _ _ _ _ _)
  | succ bound =>
      rw [readSequence, gives_accept_bind] at given
      rcases given with ⟨-, given⟩ | ⟨operator, later, rfl, -, given⟩
      · exact sound bound (Nat.lt_succ_self bound) (.level commas .sequence) stop tokens rest tree atEnd given
      · exact absurd given (not_gives_report_bind _ _ _ _ _ _ _)

theorem operand_sound (commas : Bool) (level : Level) (tree : Expr Unit)
    (sound : ∀ smaller < bound + 1, Sound smaller) (atEnd : stop.kind = .endOfInput)
    (given : (readOperand (bound + 1) commas level).Gives stop tokens tree rest) :
    Derives true (.operand commas level) tokens rest tree := by
  have here : Sound bound := sound bound (Nat.lt_succ_self bound)
  cases level with
  | disjunction =>
      rw [readOperand] at given
      exact .tighter _ _ _ _ _ _ rfl (here (.level commas .conjunction) stop tokens rest tree atEnd given)
  | conjunction =>
      rw [readOperand] at given
      exact .tighter _ _ _ _ _ _ rfl
        (sequence_sound bound stop tokens rest commas tree
          (fun smaller less => sound smaller (Nat.lt_succ_of_lt less)) atEnd given)
  | sequence =>
      rw [readOperand] at given
      exact .ofSequence _ _ _ _ (here (.ternary commas) stop tokens rest tree atEnd given)
  | equality =>
      rw [readOperand] at given
      exact .tighter _ _ _ _ _ _ rfl (here (.level commas .comparison) stop tokens rest tree atEnd given)
  | comparison =>
      rw [readOperand] at given
      exact .tighter _ _ _ _ _ _ rfl (here (.level commas .term) stop tokens rest tree atEnd given)
  | term =>
      rw [readOperand] at given
      exact .tighter _ _ _ _ _ _ rfl (here (.level commas .factor) stop tokens rest tree atEnd given)
  | factor =>
      rw [readOperand] at given
      exact .ofFactor _ _ _ _ (here .unary stop tokens rest tree atEnd given)

theorem ternary_sound (commas : Bool) (tree : Expr Unit) (sound : Sound bound) (atEnd : stop.kind = .endOfInput)
    (given : (readTernary (bound + 1) commas).Gives stop tokens tree rest) :
    Derives true (.ternary commas) tokens rest tree := by
  rw [readTernary, gives_bind] at given
  obtain ⟨condition, middle, read, given⟩ := given
  have test := sound (.level commas .equality) stop tokens middle condition atEnd read
  rw [gives_accept_bind] at given
  rcases given with ⟨missing, given⟩ | ⟨question, afterCondition, rfl, isQuestion, given⟩
  · obtain ⟨rfl, rfl⟩ := (gives_pure ..).mp given
    exact .unconditional commas tokens middle condition test (fun _ => missing)
  · rw [gives_bind] at given
    obtain ⟨yes, between, readYes, given⟩ := given
    rw [gives_expect_bind] at given
    obtain ⟨colon, afterYes, rfl, isColon, given⟩ := given
    rw [gives_bind] at given
    obtain ⟨no, left, readNo, given⟩ := given
    obtain ⟨rfl, rfl⟩ := (gives_pure ..).mp given
    exact .conditional commas question colon tokens afterCondition afterYes left condition yes no test
      (of_decide_eq_true isQuestion) (sound (.expr commas) stop _ _ yes atEnd readYes) isColon
      (sound (.expr commas) stop _ _ no atEnd readNo)

theorem unary_sound (tree : Expr Unit) (sound : Sound bound) (atEnd : stop.kind = .endOfInput)
    (given : (readUnary (bound + 1)).Gives stop tokens tree rest) : Derives true .unary tokens rest tree := by
  rw [readUnary, gives_accept_bind] at given
  rcases given with ⟨-, given⟩ | ⟨operator, later, rfl, isSign, given⟩
  · rw [gives_bind] at given
    obtain ⟨callee, middle, read, given⟩ := given
    exact .unsigned tokens middle rest callee tree (sound .primary stop tokens middle callee atEnd read)
      (sound (.calls callee) stop middle rest tree atEnd given)
  · rw [gives_bind] at given
    obtain ⟨operand, left, read, given⟩ := given
    obtain ⟨rfl, rfl⟩ := (gives_pure ..).mp given
    exact .signed operator later left operand (by simpa using isSign)
      (sound .unary stop later left operand atEnd read)

theorem calls_sound (callee tree : Expr Unit) (sound : Sound bound) (atEnd : stop.kind = .endOfInput)
    (given : (readCalls (bound + 1) callee).Gives stop tokens tree rest) :
    Derives true (.calls callee) tokens rest tree := by
  rw [readCalls, gives_accept_bind] at given
  rcases given with ⟨missing, given⟩ | ⟨opening, later, rfl, isOpening, given⟩
  · obtain ⟨rfl, rfl⟩ := (gives_pure ..).mp given
    exact .uncalled callee tokens (fun _ => missing)
  · rw [gives_nextIs_bind] at given
    by_cases closed : Ahead (· = .rightParen) later
    · simp only [closed, decide_true, if_true] at given
      rw [gives_known_bind (pure []) _ stop later later rest [] tree rfl, gives_expect_bind] at given
      obtain ⟨close, left, rfl, isClose, given⟩ := given
      exact .callNothing callee tree opening close left rest (of_decide_eq_true isOpening) isClose
        (sound (.calls _) stop left rest tree atEnd given)
    · simp only [closed, decide_false, Bool.false_eq_true, if_false] at given
      rw [gives_bind] at given
      obtain ⟨arguments, between, read, given⟩ := given
      rw [gives_expect_bind] at given
      obtain ⟨close, left, rfl, isClose, given⟩ := given
      exact .call callee tree arguments opening close later left rest (of_decide_eq_true isOpening)
        (sound (.arguments 0) stop later _ arguments atEnd read) isClose
        (sound (.calls _) stop left rest tree atEnd given)

theorem arguments_sound (count : Nat) (trees : List (Expr Unit)) (sound : Sound bound)
    (atEnd : stop.kind = .endOfInput)
    (given : (readArguments (bound + 1) count).Gives stop tokens trees rest) :
    Derives true (.arguments count) tokens rest trees := by
  rw [readArguments] at given
  by_cases many : argumentLimit ≤ count
  · rw [if_pos many, gives_peek_bind] at given
    exact absurd given (not_gives_report_bind _ _ _ _ _ _ _)
  · rw [if_neg many, gives_bind] at given
    obtain ⟨first, between, read, given⟩ := given
    have derived := sound (.expr false) stop tokens between first atEnd read
    rw [gives_accept_bind] at given
    rcases given with ⟨missing, given⟩ | ⟨comma, later, rfl, isComma, given⟩
    · obtain ⟨rfl, rfl⟩ := (gives_pure ..).mp given
      exact .lastArgument count tokens between first (Nat.lt_of_not_le many) derived (fun _ => missing)
    · rw [gives_bind] at given
      obtain ⟨others, left, readOthers, given⟩ := given
      obtain ⟨rfl, rfl⟩ := (gives_pure ..).mp given
      exact .argument count comma tokens later left first others (Nat.lt_of_not_le many) derived
        (of_decide_eq_true isComma) (sound (.arguments (count + 1)) stop later left others atEnd readOthers)

-- A token that the reading has looked at is then taken.
theorem gives_taken {α : Type} (wanted : Kind → Bool) (next : Reading α) (token : Token) (later : List Token)
    (value : α) (fits : wanted token.kind = true)
    (given : (accept wanted >>= fun _ => next).Gives stop (token :: later) value rest) :
    next.Gives stop later value rest :=
  (gives_accepted_bind wanted (fun _ => next) stop token later rest value fits).mp given

theorem primary_sound (tree : Expr Unit) (sound : Sound bound) (atEnd : stop.kind = .endOfInput)
    (given : (readPrimary (bound + 1)).Gives stop tokens tree rest) : Derives true .primary tokens rest tree := by
  rw [readPrimary, gives_peek_bind] at given
  cases tokens with
  | nil =>
      simp only [List.head?_nil, Option.getD_none, atEnd] at given
      exact absurd given (not_gives_fail _ _ _ _ _ _)
  | cons token later =>
      simp only [List.head?_cons, Option.getD_some] at given
      split at given
      · rename_i kind
        obtain ⟨rfl, rfl⟩ := (gives_pure ..).mp (gives_taken stop rest _ _ token later tree (by simp [kind]) given)
        exact .falsity token later kind
      · rename_i kind
        obtain ⟨rfl, rfl⟩ := (gives_pure ..).mp (gives_taken stop rest _ _ token later tree (by simp [kind]) given)
        exact .truth token later kind
      · rename_i kind
        obtain ⟨rfl, rfl⟩ := (gives_pure ..).mp (gives_taken stop rest _ _ token later tree (by simp [kind]) given)
        exact .nothing token later kind
      · rename_i kind
        have given := gives_taken stop rest _ _ token later tree (by simp [kind]) given
        cases decoded : token.literal with
        | none =>
            rw [decoded] at given
            exact absurd given (not_gives_fail _ _ _ _ _ _)
        | some literal =>
            rw [decoded] at given
            obtain ⟨rfl, rfl⟩ := (gives_pure ..).mp given
            exact .literal token literal later (.inl kind) decoded
      · rename_i kind
        have given := gives_taken stop rest _ _ token later tree (by simp [kind]) given
        cases decoded : token.literal with
        | none =>
            rw [decoded] at given
            exact absurd given (not_gives_fail _ _ _ _ _ _)
        | some literal =>
            rw [decoded] at given
            obtain ⟨rfl, rfl⟩ := (gives_pure ..).mp given
            exact .literal token literal later (.inr kind) decoded
      · rename_i kind
        obtain ⟨rfl, rfl⟩ := (gives_pure ..).mp (gives_taken stop rest _ _ token later tree (by simp [kind]) given)
        exact .named token later kind
      · rename_i kind
        have given := gives_taken stop rest _ _ token later tree (by simp [kind]) given
        rw [gives_bind] at given
        obtain ⟨inner, between, read, given⟩ := given
        rw [gives_expect_bind] at given
        obtain ⟨close, left, rfl, isClose, given⟩ := given
        obtain ⟨rfl, rfl⟩ := (gives_pure ..).mp given
        exact .group token close later left inner kind (sound (.expr true) stop later _ inner atEnd read) isClose
      · exact absurd given (not_gives_fail _ _ _ _ _ _)

theorem sound_within (bound : Nat) : Sound bound := by
  induction bound using Nat.strongRecOn with
  | ind bound ih =>
      intro symbol stop tokens rest tree atEnd given
      cases bound with
      | zero => cases symbol <;> exact absurd given (not_gives_failHere _ _ _ _ _)
      | succ bound =>
          have sound : Sound bound := ih bound (Nat.lt_succ_self bound)
          cases symbol with
          | expr commas => exact expr_sound bound stop tokens rest commas tree sound atEnd given
          | level commas tier => exact level_sound bound stop tokens rest commas tier tree sound atEnd given
          | joined commas tier left =>
              exact joined_sound bound stop tokens rest commas tier left tree sound atEnd given
          | operand commas tier => exact operand_sound bound stop tokens rest commas tier tree ih atEnd given
          | ternary commas => exact ternary_sound bound stop tokens rest commas tree sound atEnd given
          | unary => exact unary_sound bound stop tokens rest tree sound atEnd given
          | calls callee => exact calls_sound bound stop tokens rest callee tree sound atEnd given
          | arguments count => exact arguments_sound bound stop tokens rest count tree sound atEnd given
          | primary => exact primary_sound bound stop tokens rest tree sound atEnd given

-- How derivations start, and that they never leave more than they were given.

def startsPrimary (kind : Kind) : Bool :=
  kind = .kwTrue || kind = .kwFalse || kind = .kwNil || kind = .number || kind = .stringLiteral ||
    kind = .identifier || kind = .leftParen

def startsExpr (kind : Kind) : Bool := kind = .bang || kind = .minus || startsPrimary kind

def Symbol.Starts (tokens : List Token) : Symbol → Prop
  | .joined _ _ _ | .calls _ => True
  | .primary => Ahead startsPrimary tokens
  | _ => Ahead startsExpr tokens

theorem derives_starts (longest : Bool) (symbol : Symbol) (tokens rest : List Token) (tree : symbol.Tree)
    (derived : Derives longest symbol tokens rest tree) : symbol.Starts tokens := by
  induction derived with
  | assign _ _ _ _ _ _ isName => simp [Symbol.Starts, ahead_cons, startsExpr, startsPrimary, isName]
  | operators _ _ _ _ _ _ ih | tighter _ _ _ _ _ _ _ _ ih | ofSequence _ _ _ _ _ ih | ofFactor _ _ _ _ _ ih
  | unconditional _ _ _ _ _ _ ih | lastArgument _ _ _ _ _ _ _ ih => exact ih
  | level _ _ _ _ _ _ _ _ _ ih _ => exact ih
  | conditional _ _ _ _ _ _ _ _ _ _ _ _ _ _ _ ih _ _ => exact ih
  | argument _ _ _ _ _ _ _ _ _ _ _ ih _ => exact ih
  | signed _ _ _ _ isSign => rcases isSign with isSign | isSign <;> simp [Symbol.Starts, ahead_cons, startsExpr, isSign]
  | unsigned tokens _ _ _ _ called _ ih _ =>
      cases tokens with
      | nil => exact absurd ih (not_ahead_nil _)
      | cons token later =>
          have starts := (ahead_cons _ _ _).mp ih
          simp [Symbol.Starts, ahead_cons, startsExpr, starts]
  | alone | joined | uncalled | callNothing | call => trivial
  | truth _ _ kind | falsity _ _ kind | nothing _ _ kind | named _ _ kind | group _ _ _ _ _ kind =>
      simp [Symbol.Starts, ahead_cons, startsPrimary, kind]
  | literal _ _ _ isLiteral => rcases isLiteral with kind | kind <;> simp [Symbol.Starts, ahead_cons, startsPrimary, kind]

theorem derives_shorter (longest : Bool) (symbol : Symbol) (tokens rest : List Token) (tree : symbol.Tree)
    (derived : Derives longest symbol tokens rest tree) : rest.length ≤ tokens.length := by
  induction derived with
  | alone | uncalled => exact Nat.le_refl _
  | operators _ _ _ _ _ _ ih | tighter _ _ _ _ _ _ _ _ ih | ofSequence _ _ _ _ _ ih | ofFactor _ _ _ _ _ ih
  | unconditional _ _ _ _ _ _ ih | lastArgument _ _ _ _ _ _ _ ih => exact ih
  | level _ _ _ _ _ _ _ _ _ ihFirst ihOthers | unsigned _ _ _ _ _ _ _ ihFirst ihOthers =>
      exact Nat.le_trans ihOthers ihFirst
  | truth | falsity | nothing | literal | named => simp
  | _ =>
      simp only [List.length_cons] at *
      omega

-- Completeness: how much room a reading needs, and that it then finds every longest derivation.

-- The number of readings that may nest before one takes a token.
def Symbol.rank : Symbol → Nat
  | .primary | .calls _ | .joined _ _ _ => 1
  | .unary => 2
  | .operand _ .factor => 3
  | .level _ .factor => 4
  | .operand _ .term => 5
  | .level _ .term => 6
  | .operand _ .comparison => 7
  | .level _ .comparison => 8
  | .operand _ .equality => 9
  | .level _ .equality => 10
  | .ternary _ => 11
  | .operand _ .sequence => 12
  | .level _ .sequence => 13
  | .operand _ .conjunction => 15
  | .level _ .conjunction => 16
  | .operand _ .disjunction => 17
  | .level _ .disjunction => 18
  | .expr _ => 19
  | .arguments _ => 20

theorem rank_positive (symbol : Symbol) : 0 < symbol.rank := by
  cases symbol with
  | level commas tier => cases tier <;> simp [Symbol.rank]
  | operand commas tier => cases tier <;> simp [Symbol.rank]
  | _ => simp [Symbol.rank]

theorem rank_level (commas : Bool) (level : Level) :
    (Symbol.operand commas level).rank < (Symbol.level commas level).rank ∧
      (Symbol.operand commas level).rank < 18 := by
  cases level <;> simp [Symbol.rank]

-- Each token leaves room for all readings that may nest before the next one.
def Symbol.Fits (tokens : List Token) (bound : Nat) (symbol : Symbol) : Prop :=
  24 * tokens.length + symbol.rank ≤ bound

def Complete (bound : Nat) : Prop :=
  ∀ (symbol : Symbol) (stop : Token) (tokens rest : List Token) (tree : symbol.Tree),
    symbol.Fits tokens bound → Derives true symbol tokens rest tree →
    (symbol.read bound).Gives stop tokens tree rest

theorem operand_alone (commas : Bool) (level : Level) (tree : Expr Unit)
    (operand : Derives true (.operand commas level) tokens rest tree)
    (last : ¬ Ahead (level.joins commas) rest) : Derives true (.level commas level) tokens rest tree :=
  .level commas level tokens rest rest tree tree operand (.alone commas level tree rest (fun _ => last))

theorem equals_joins_nothing (commas : Bool) (level : Level) (equals : Token) (isEquals : equals.kind = .equal) :
    ¬ Ahead (level.joins commas) (equals :: rest) := by
  cases level <;> simp [ahead_cons, Level.joins, isEquals]

-- The target of an assignment is read like any other operand.
theorem target_derives (commas : Bool) (name equals : Token) (isName : name.kind = .identifier)
    (isEquals : equals.kind = .equal) :
    Derives true (.level commas .disjunction) (name :: equals :: rest) (equals :: rest) (.var () name) := by
  have ends : ∀ level : Level, ¬ Ahead (level.joins commas) (equals :: rest) := fun level =>
    equals_joins_nothing rest commas level equals isEquals
  have unary : Derives true .unary (name :: equals :: rest) (equals :: rest) (.var () name) :=
    .unsigned _ _ _ _ _ (.named name _ isName) (.uncalled _ _ (by simp [Ends, ahead_cons, isEquals]))
  have factor := operand_alone _ _ commas .factor _ (.ofFactor commas _ _ _ unary) (ends .factor)
  have term := operand_alone _ _ commas .term _ (.tighter _ _ _ _ _ _ rfl factor) (ends .term)
  have comparison := operand_alone _ _ commas .comparison _ (.tighter _ _ _ _ _ _ rfl term) (ends .comparison)
  have equality := operand_alone _ _ commas .equality _ (.tighter _ _ _ _ _ _ rfl comparison) (ends .equality)
  have ternary : Derives true (.ternary commas) (name :: equals :: rest) (equals :: rest) (.var () name) :=
    .unconditional commas _ _ _ equality (by simp [Ends, ahead_cons, isEquals])
  have sequence := operand_alone _ _ commas .sequence _ (.ofSequence commas _ _ _ ternary) (ends .sequence)
  have conjunction := operand_alone _ _ commas .conjunction _ (.tighter _ _ _ _ _ _ rfl sequence) (ends .conjunction)
  exact operand_alone _ _ commas .disjunction _ (.tighter _ _ _ _ _ _ rfl conjunction) (ends .disjunction)

theorem expr_complete (commas : Bool) (tree : Expr Unit) (complete : Complete bound)
    (fits : (Symbol.expr commas).Fits tokens (bound + 1)) (derived : Derives true (.expr commas) tokens rest tree) :
    (readExpr (bound + 1) commas).Gives stop tokens tree rest := by
  rw [readExpr, gives_bind]
  cases derived with
  | assign _ name equals later _ value isName isEquals assigned =>
      refine ⟨.var () name, equals :: later, complete (.level commas .disjunction) stop _ _ _ ?_
        (target_derives later commas name equals isName isEquals), ?_⟩
      · simp only [Symbol.Fits, Symbol.rank] at fits ⊢
        omega
      · rw [gives_accepted_bind _ _ _ _ _ _ _ (decide_eq_true isEquals), gives_bind]
        refine ⟨value, rest, complete (.expr commas) stop later rest value ?_ assigned,
          (gives_pure ..).mpr ⟨rfl, rfl⟩⟩
        simp only [Symbol.Fits, Symbol.rank, List.length_cons] at fits ⊢
        omega
  | operators _ _ _ _ whole ends =>
      refine ⟨tree, rest, complete (.level commas .disjunction) stop _ _ _ ?_ whole, ?_⟩
      · simp only [Symbol.Fits, Symbol.rank] at fits ⊢
        omega
      · rw [gives_unaccepted_bind _ _ _ _ _ _ (ends rfl)]
        exact (gives_pure ..).mpr ⟨rfl, rfl⟩

theorem level_complete (commas : Bool) (level : Level) (tree : Expr Unit) (complete : Complete bound)
    (fits : (Symbol.level commas level).Fits tokens (bound + 1))
    (derived : Derives true (.level commas level) tokens rest tree) :
    (readLevel (bound + 1) commas level).Gives stop tokens tree rest := by
  rw [readLevel, gives_bind]
  cases derived with
  | level _ _ _ middle _ first _ operand others =>
      have ranks := rank_level commas level
      have shorter := derives_shorter true _ _ _ _ operand
      refine ⟨first, middle, complete (.operand commas level) stop tokens middle first ?_ operand,
        complete (.joined commas level first) stop middle rest tree ?_ others⟩
      · simp only [Symbol.Fits] at fits ⊢
        omega
      · have positive := rank_positive (.operand commas level)
        simp only [Symbol.Fits] at fits
        change 24 * middle.length + 1 ≤ bound
        omega

theorem joined_complete (commas : Bool) (level : Level) (left tree : Expr Unit) (complete : Complete bound)
    (fits : (Symbol.joined commas level left).Fits tokens (bound + 1))
    (derived : Derives true (.joined commas level left) tokens rest tree) :
    (readJoined (bound + 1) commas level left).Gives stop tokens tree rest := by
  rw [readJoined]
  cases derived with
  | alone _ _ _ _ ends =>
      rw [gives_unaccepted_bind _ _ _ _ _ _ (ends rfl)]
      exact (gives_pure ..).mpr ⟨rfl, rfl⟩
  | joined _ _ _ right _ operator later middle _ joins operand others =>
      have ranks := rank_level commas level
      have shorter := derives_shorter true _ _ _ _ operand
      simp only [Symbol.Fits, Symbol.rank, List.length_cons] at fits
      rw [gives_accepted_bind _ _ _ _ _ _ _ joins, gives_bind]
      refine ⟨right, middle, complete (.operand commas level) stop later middle right ?_ operand,
        complete (.joined commas level _) stop middle rest tree ?_ others⟩
      · simp only [Symbol.Fits]
        omega
      · simp only [Symbol.Fits, Symbol.rank]
        omega

theorem sequence_complete (commas : Bool) (tree : Expr Unit) (complete : ∀ smaller < bound, Complete smaller)
    (fits : 24 * tokens.length + 14 ≤ bound) (derived : Derives true (.level commas .sequence) tokens rest tree) :
    (readSequence bound commas).Gives stop tokens tree rest := by
  have starts : Ahead startsExpr tokens := derives_starts true _ _ _ _ derived
  have operand : ¬ Ahead Kind.needsLeftOperand tokens :=
    ahead_excludes startsExpr _ tokens starts (fun kind => by cases kind <;> decide)
  cases bound with
  | zero => omega
  | succ bound =>
      rw [readSequence, gives_unaccepted_bind _ _ _ _ _ _ operand]
      refine complete bound (Nat.lt_succ_self bound) (.level commas .sequence) stop tokens rest tree ?_ derived
      change 24 * tokens.length + 13 ≤ bound
      omega

theorem operand_complete (commas : Bool) (level : Level) (tree : Expr Unit)
    (complete : ∀ smaller < bound + 1, Complete smaller)
    (fits : (Symbol.operand commas level).Fits tokens (bound + 1))
    (derived : Derives true (.operand commas level) tokens rest tree) :
    (readOperand (bound + 1) commas level).Gives stop tokens tree rest := by
  have here : Complete bound := complete bound (Nat.lt_succ_self bound)
  cases derived with
  | tighter _ _ below _ _ _ next whole =>
      cases level with
      | sequence | factor => cases next
      | conjunction =>
          cases next
          rw [readOperand]
          refine sequence_complete bound stop tokens rest commas tree
            (fun smaller less => complete smaller (Nat.lt_succ_of_lt less)) ?_ whole
          simp only [Symbol.Fits, Symbol.rank] at fits
          omega
      | disjunction | equality | comparison | term =>
          cases next
          rw [readOperand]
          refine here (.level commas _) stop tokens rest tree ?_ whole
          simp only [Symbol.Fits, Symbol.rank] at fits ⊢
          omega
  | ofSequence _ _ _ _ whole =>
      rw [readOperand]
      refine here (.ternary commas) stop tokens rest tree ?_ whole
      simp only [Symbol.Fits, Symbol.rank] at fits ⊢
      omega
  | ofFactor _ _ _ _ whole =>
      rw [readOperand]
      refine here .unary stop tokens rest tree ?_ whole
      simp only [Symbol.Fits, Symbol.rank] at fits ⊢
      omega

theorem ternary_complete (commas : Bool) (tree : Expr Unit) (complete : Complete bound)
    (fits : (Symbol.ternary commas).Fits tokens (bound + 1))
    (derived : Derives true (.ternary commas) tokens rest tree) :
    (readTernary (bound + 1) commas).Gives stop tokens tree rest := by
  rw [readTernary, gives_bind]
  simp only [Symbol.Fits, Symbol.rank] at fits
  cases derived with
  | unconditional _ _ _ _ whole ends =>
      refine ⟨tree, rest, complete (.level commas .equality) stop tokens rest tree ?_ whole, ?_⟩
      · simp only [Symbol.Fits, Symbol.rank]
        omega
      · rw [gives_unaccepted_bind _ _ _ _ _ _ (ends rfl)]
        exact (gives_pure ..).mpr ⟨rfl, rfl⟩
  | conditional _ question colon _ afterCondition afterYes _ condition yes no test isQuestion chosen isColon otherwise =>
      have shorter := derives_shorter true _ _ _ _ test
      have shorterYes := derives_shorter true _ _ _ _ chosen
      simp only [List.length_cons] at shorter shorterYes
      refine ⟨condition, question :: afterCondition,
        complete (.level commas .equality) stop tokens _ condition ?_ test, ?_⟩
      · simp only [Symbol.Fits, Symbol.rank]
        omega
      rw [gives_accepted_bind _ _ _ _ _ _ _ (decide_eq_true isQuestion), gives_bind]
      refine ⟨yes, colon :: afterYes, complete (.expr commas) stop afterCondition _ yes ?_ chosen, ?_⟩
      · simp only [Symbol.Fits, Symbol.rank]
        omega
      rw [gives_expect_bind]
      refine ⟨colon, afterYes, rfl, isColon, ?_⟩
      rw [gives_bind]
      refine ⟨no, rest, complete (.expr commas) stop afterYes rest no ?_ otherwise,
        (gives_pure ..).mpr ⟨rfl, rfl⟩⟩
      simp only [Symbol.Fits, Symbol.rank]
      omega

theorem unary_complete (tree : Expr Unit) (complete : Complete bound)
    (fits : Symbol.unary.Fits tokens (bound + 1)) (derived : Derives true .unary tokens rest tree) :
    (readUnary (bound + 1)).Gives stop tokens tree rest := by
  rw [readUnary]
  simp only [Symbol.Fits, Symbol.rank] at fits
  cases derived with
  | signed operator later _ operand isSign whole =>
      simp only [List.length_cons] at fits
      rw [gives_accepted_bind _ _ _ _ _ _ _ (by simpa using isSign), gives_bind]
      refine ⟨operand, rest, complete .unary stop later rest operand ?_ whole, (gives_pure ..).mpr ⟨rfl, rfl⟩⟩
      simp only [Symbol.Fits, Symbol.rank]
      omega
  | unsigned _ middle _ callee _ called others =>
      have shorter := derives_shorter true _ _ _ _ called
      have starts : Ahead startsPrimary tokens := derives_starts true _ _ _ _ called
      have noSign : ¬ Ahead (fun kind => kind = .bang || kind = .minus) tokens :=
        ahead_excludes startsPrimary _ tokens starts (fun kind => by cases kind <;> decide)
      rw [gives_unaccepted_bind _ _ _ _ _ _ noSign, gives_bind]
      refine ⟨callee, middle, complete .primary stop tokens middle callee ?_ called,
        complete (.calls callee) stop middle rest tree ?_ others⟩
      · simp only [Symbol.Fits, Symbol.rank]
        omega
      · simp only [Symbol.Fits, Symbol.rank]
        omega

theorem calls_complete (callee tree : Expr Unit) (complete : Complete bound)
    (fits : (Symbol.calls callee).Fits tokens (bound + 1)) (derived : Derives true (.calls callee) tokens rest tree) :
    (readCalls (bound + 1) callee).Gives stop tokens tree rest := by
  rw [readCalls]
  simp only [Symbol.Fits, Symbol.rank] at fits
  cases derived with
  | uncalled _ _ ends =>
      rw [gives_unaccepted_bind _ _ _ _ _ _ (ends rfl)]
      exact (gives_pure ..).mpr ⟨rfl, rfl⟩
  | callNothing _ _ opening close later _ isOpening isClose others =>
      simp only [List.length_cons] at fits
      have closed : Ahead (· = .rightParen) (close :: later) := by simp [ahead_cons, isClose]
      rw [gives_accepted_bind _ _ _ _ _ _ _ (decide_eq_true isOpening), gives_nextIs_bind]
      simp only [closed, decide_true, if_true]
      rw [gives_known_bind (pure []) _ stop _ _ rest [] tree rfl, gives_expect_bind]
      refine ⟨close, later, rfl, isClose, complete (.calls _) stop later rest tree ?_ others⟩
      simp only [Symbol.Fits, Symbol.rank]
      omega
  | call _ _ arguments opening close later middle _ isOpening given isClose others =>
      have shorter := derives_shorter true _ _ _ _ given
      simp only [List.length_cons] at fits shorter
      have starts : Ahead startsExpr later := derives_starts true _ _ _ _ given
      have notClosed : ¬ Ahead (· = .rightParen) later :=
        ahead_excludes startsExpr _ later starts (fun kind => by cases kind <;> decide)
      rw [gives_accepted_bind _ _ _ _ _ _ _ (decide_eq_true isOpening), gives_nextIs_bind]
      simp only [notClosed, decide_false, Bool.false_eq_true, if_false]
      rw [gives_bind]
      refine ⟨arguments, close :: middle, complete (.arguments 0) stop later _ arguments ?_ given, ?_⟩
      · simp only [Symbol.Fits, Symbol.rank]
        omega
      rw [gives_expect_bind]
      refine ⟨close, middle, rfl, isClose, complete (.calls _) stop middle rest tree ?_ others⟩
      simp only [Symbol.Fits, Symbol.rank]
      omega

theorem arguments_complete (count : Nat) (trees : List (Expr Unit)) (complete : Complete bound)
    (fits : (Symbol.arguments count).Fits tokens (bound + 1))
    (derived : Derives true (.arguments count) tokens rest trees) :
    (readArguments (bound + 1) count).Gives stop tokens trees rest := by
  rw [readArguments]
  simp only [Symbol.Fits, Symbol.rank] at fits
  cases derived with
  | lastArgument _ _ _ last few given ends =>
      rw [if_neg (Nat.not_le_of_lt few), gives_bind]
      refine ⟨last, rest, complete (.expr false) stop tokens rest last ?_ given, ?_⟩
      · simp only [Symbol.Fits, Symbol.rank]
        omega
      · rw [gives_unaccepted_bind _ _ _ _ _ _ (ends rfl)]
        exact (gives_pure ..).mpr ⟨rfl, rfl⟩
  | argument _ comma _ middle _ first others few given isComma later =>
      have shorter := derives_shorter true _ _ _ _ given
      simp only [List.length_cons] at shorter
      rw [if_neg (Nat.not_le_of_lt few), gives_bind]
      refine ⟨first, comma :: middle, complete (.expr false) stop tokens _ first ?_ given, ?_⟩
      · simp only [Symbol.Fits, Symbol.rank]
        omega
      rw [gives_accepted_bind _ _ _ _ _ _ _ (decide_eq_true isComma), gives_bind]
      refine ⟨others, rest, complete (.arguments (count + 1)) stop middle rest others ?_ later,
        (gives_pure ..).mpr ⟨rfl, rfl⟩⟩
      simp only [Symbol.Fits, Symbol.rank]
      omega

theorem primary_complete (tree : Expr Unit) (complete : Complete bound)
    (fits : Symbol.primary.Fits tokens (bound + 1)) (derived : Derives true .primary tokens rest tree) :
    (readPrimary (bound + 1)).Gives stop tokens tree rest := by
  rw [readPrimary, gives_peek_bind]
  cases derived with
  | truth token _ kind | falsity token _ kind | nothing token _ kind | named token _ kind =>
      simp only [List.head?_cons, Option.getD_some, kind]
      rw [gives_accepted_bind _ _ _ _ _ _ _ (by simp [kind])]
      exact (gives_pure ..).mpr ⟨rfl, rfl⟩
  | literal token value _ isLiteral decoded =>
      rcases isLiteral with kind | kind
      all_goals
        simp only [List.head?_cons, Option.getD_some, kind, decoded]
        rw [gives_accepted_bind _ _ _ _ _ _ _ (by simp [kind])]
        exact (gives_pure ..).mpr ⟨rfl, rfl⟩
  | group opening close later _ inner isOpening whole isClose =>
      simp only [List.head?_cons, Option.getD_some, isOpening]
      rw [gives_accepted_bind _ _ _ _ _ _ _ (by simp [isOpening]), gives_bind]
      refine ⟨inner, close :: rest, complete (.expr true) stop later _ inner ?_ whole, ?_⟩
      · simp only [Symbol.Fits, Symbol.rank, List.length_cons] at fits ⊢
        omega
      rw [gives_expect_bind]
      exact ⟨close, rest, rfl, isClose, (gives_pure ..).mpr ⟨rfl, rfl⟩⟩

theorem complete_within (bound : Nat) : Complete bound := by
  induction bound using Nat.strongRecOn with
  | ind bound ih =>
      intro symbol stop tokens rest tree fits derived
      cases bound with
      | zero =>
          have positive := rank_positive symbol
          simp only [Symbol.Fits] at fits
          omega
      | succ bound =>
          have complete : Complete bound := ih bound (Nat.lt_succ_self bound)
          cases symbol with
          | expr commas => exact expr_complete bound stop tokens rest commas tree complete fits derived
          | level commas tier => exact level_complete bound stop tokens rest commas tier tree complete fits derived
          | joined commas tier left =>
              exact joined_complete bound stop tokens rest commas tier left tree complete fits derived
          | operand commas tier => exact operand_complete bound stop tokens rest commas tier tree ih fits derived
          | ternary commas => exact ternary_complete bound stop tokens rest commas tree complete fits derived
          | unary => exact unary_complete bound stop tokens rest tree complete fits derived
          | calls callee => exact calls_complete bound stop tokens rest callee tree complete fits derived
          | arguments count => exact arguments_complete bound stop tokens rest count tree complete fits derived
          | primary => exact primary_complete bound stop tokens rest tree complete fits derived

-- With room to nest, reading an expression and deriving it in the longest way are the same.
theorem readExpr_gives_iff (commas : Bool) (tree : Expr Unit) (room : 24 * tokens.length + 19 ≤ bound)
    (atEnd : stop.kind = .endOfInput) :
    (readExpr bound commas).Gives stop tokens tree rest ↔ Derives true (.expr commas) tokens rest tree :=
  ⟨fun given => sound_within bound (.expr commas) stop tokens rest tree atEnd given,
    fun derived => complete_within bound (.expr commas) stop tokens rest tree room derived⟩

end Treewalk.Grammar
