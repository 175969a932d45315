import Treewalk.Proofs.SourcedReadings

/-!
Reading statements and programs follows the grammar: without a mistake, what is read is the longest
derivation, and a program that has one is read as such.
-/

set_option autoImplicit false

namespace Treewalk.Grammar

open Reading

variable (bound : Nat) (stop : Token) (tokens rest : List Token)

-- The parts of statements that hold no statements, first from readings to derivations.

theorem expression_sound (tree : Expr Unit) (atEnd : stop.kind = .endOfInput)
    (given : (readExpr bound true).Gives stop tokens tree rest) : IsExpr true tokens rest tree :=
  sound_within bound (.expr true) stop tokens rest tree atEnd given

-- An expression that may be missing: the mark behind it tells.
theorem optional_sound {α : Type} (ending : Kind) (next : Option (Expr Unit) → Reading α) (value : α)
    (atEnd : stop.kind = .endOfInput)
    (given : (nextIs ending >>= fun missing =>
      if missing = true then pure none >>= next else some <$> readExpr bound true >>= next).Gives stop tokens
        value rest) :
    (Ahead (· = ending) tokens ∧ (next none).Gives stop tokens value rest) ∨
      ∃ tree middle, IsExpr true tokens middle tree ∧ (next (some tree)).Gives stop middle value rest := by
  rw [gives_nextIs_bind] at given
  by_cases missing : Ahead (· = ending) tokens
  · simp only [missing, decide_true, if_true] at given
    rw [gives_known_bind (pure none) next stop tokens tokens rest none value rfl] at given
    exact .inl ⟨missing, given⟩
  · simp only [missing, decide_false, Bool.false_eq_true, if_false] at given
    rw [gives_bind] at given
    obtain ⟨optional, middle, read, given⟩ := given
    obtain ⟨tree, found, rfl⟩ := (gives_map ..).mp read
    exact .inr ⟨tree, middle, expression_sound bound stop tokens middle tree atEnd found, given⟩

theorem clause_sound (ending : Kind) (cause : ParseCause) (clause : Option (Expr Unit))
    (atEnd : stop.kind = .endOfInput)
    (given : (readClause bound ending cause).Gives stop tokens clause rest) :
    IsClause true ending tokens rest clause := by
  rcases optional_sound bound stop tokens rest ending _ clause atEnd given with
    ⟨-, given⟩ | ⟨tree, middle, whole, given⟩
  · rw [gives_expect_bind] at given
    obtain ⟨mark, later, rfl, ends, given⟩ := given
    obtain ⟨rfl, rfl⟩ := (gives_pure ..).mp given
    exact .missing mark later ends
  · rw [gives_expect_bind] at given
    obtain ⟨mark, later, rfl, ends, given⟩ := given
    obtain ⟨rfl, rfl⟩ := (gives_pure ..).mp given
    exact .present mark tokens later tree whole ends

theorem return_sound (keyword : Token) (tree : Stmt Unit) (atEnd : stop.kind = .endOfInput)
    (given : (readReturn bound keyword).Gives stop tokens tree rest) :
    ∃ value, tree = .ret keyword value ∧ IsClause true .semicolon tokens rest value := by
  rcases optional_sound bound stop tokens rest .semicolon _ tree atEnd given with
    ⟨-, given⟩ | ⟨value, middle, whole, given⟩
  · rw [gives_expect_bind] at given
    obtain ⟨mark, later, rfl, ends, given⟩ := given
    obtain ⟨rfl, rfl⟩ := (gives_pure ..).mp given
    exact ⟨none, rfl, .missing mark later ends⟩
  · rw [gives_expect_bind] at given
    obtain ⟨mark, later, rfl, ends, given⟩ := given
    obtain ⟨rfl, rfl⟩ := (gives_pure ..).mp given
    exact ⟨some value, rfl, .present mark tokens later value whole ends⟩

theorem condition_sound (before after : ParseCause) (tree : Expr Unit) (atEnd : stop.kind = .endOfInput)
    (given : (readCondition bound before after).Gives stop tokens tree rest) :
    IsCondition true tokens rest tree := by
  rw [readCondition, gives_expect_bind] at given
  obtain ⟨opening, later, rfl, isOpening, given⟩ := given
  rw [gives_bind] at given
  obtain ⟨condition, middle, read, given⟩ := given
  rw [gives_expect_bind] at given
  obtain ⟨close, left, rfl, isClose, given⟩ := given
  obtain ⟨rfl, rfl⟩ := (gives_pure ..).mp given
  exact .mk opening close later left condition isOpening
    (expression_sound bound stop later _ condition atEnd read) isClose

theorem variable_sound (tree : Stmt Unit) (atEnd : stop.kind = .endOfInput)
    (given : (readVariable bound).Gives stop tokens tree rest) : IsVariable true tokens rest tree := by
  rw [readVariable, gives_expect_bind] at given
  obtain ⟨name, later, rfl, isName, given⟩ := given
  rw [gives_accept_bind] at given
  rcases given with ⟨-, given⟩ | ⟨equals, others, rfl, isEquals, given⟩
  · rw [gives_known_bind (pure none) _ stop later later rest none tree rfl, gives_expect_bind] at given
    obtain ⟨semicolon, left, rfl, ends, given⟩ := given
    obtain ⟨rfl, rfl⟩ := (gives_pure ..).mp given
    exact .bare name semicolon left isName ends
  · rw [gives_bind] at given
    obtain ⟨optional, middle, read, given⟩ := given
    obtain ⟨value, found, rfl⟩ := (gives_map ..).mp read
    rw [gives_expect_bind] at given
    obtain ⟨semicolon, left, rfl, ends, given⟩ := given
    obtain ⟨rfl, rfl⟩ := (gives_pure ..).mp given
    exact .assigned name equals semicolon others left value isName (of_decide_eq_true isEquals)
      (expression_sound bound stop others _ value atEnd found) ends

-- An expression with the semicolon behind it, as a statement of its own or printed.
theorem ended_sound (cause : ParseCause) (build : Expr Unit → Stmt Unit) (tree : Stmt Unit)
    (atEnd : stop.kind = .endOfInput)
    (given : (readExpr bound true >>= fun value => expect .semicolon cause >>= fun _ =>
      pure (build value)).Gives stop tokens tree rest) :
    ∃ value semicolon, tree = build value ∧ IsExpr true tokens (semicolon :: rest) value ∧
      semicolon.kind = .semicolon := by
  rw [gives_bind] at given
  obtain ⟨value, middle, read, given⟩ := given
  rw [gives_expect_bind] at given
  obtain ⟨semicolon, left, rfl, ends, given⟩ := given
  obtain ⟨rfl, rfl⟩ := (gives_pure ..).mp given
  exact ⟨value, semicolon, rfl, expression_sound bound stop tokens _ value atEnd read, ends⟩

theorem start_sound (start : Option (Stmt Unit)) (atEnd : stop.kind = .endOfInput)
    (given : (readStart bound).Gives stop tokens start rest) : IsStart true tokens rest start := by
  rw [readStart, gives_accept_bind] at given
  rcases given with ⟨-, given⟩ | ⟨semicolon, later, rfl, ends, given⟩
  · rw [gives_accept_bind] at given
    rcases given with ⟨-, given⟩ | ⟨keyword, later, rfl, isVar, given⟩
    · obtain ⟨tree, read, rfl⟩ := (gives_map ..).mp given
      obtain ⟨value, semicolon, rfl, whole, ends⟩ := ended_sound bound stop tokens rest _ _ tree atEnd read
      exact .value semicolon tokens rest value whole ends
    · obtain ⟨tree, read, rfl⟩ := (gives_map ..).mp given
      exact .declared keyword later rest tree (of_decide_eq_true isVar)
        (variable_sound bound stop later rest tree atEnd read)
  · obtain ⟨rfl, rfl⟩ := (gives_pure ..).mp given
    exact .nothing semicolon later (of_decide_eq_true ends)

theorem params_sound (bound : Nat) : ∀ (count : Nat) (tokens rest params : List Token),
    (readParams bound count).Gives stop tokens params rest → IsParams count tokens rest params := by
  induction bound with
  | zero => exact fun _ _ _ _ given => absurd given (not_gives_failHere _ _ _ _ _)
  | succ bound ih =>
      intro count tokens rest params given
      rw [readParams] at given
      by_cases many : argumentLimit ≤ count
      · rw [if_pos many, gives_peek_bind] at given
        exact absurd given (not_gives_report_bind _ _ _ _ _ _ _)
      · have few : count < argumentLimit := Nat.lt_of_not_le many
        rw [if_neg many, gives_expect_bind] at given
        obtain ⟨name, later, rfl, isName, given⟩ := given
        rw [gives_accept_bind] at given
        rcases given with ⟨-, given⟩ | ⟨comma, others, rfl, isComma, given⟩
        · obtain ⟨rfl, rfl⟩ := (gives_pure ..).mp given
          exact .last count name later few isName
        · rw [gives_bind] at given
          obtain ⟨names, left, read, given⟩ := given
          obtain ⟨rfl, rfl⟩ := (gives_pure ..).mp given
          exact .more count name comma others left names few isName (of_decide_eq_true isComma)
            (ih (count + 1) others left names read)

theorem signature_sound (name : Token) (params : List Token)
    (given : (readSignature bound).Gives stop tokens (name, params) rest) :
    IsSignature tokens rest name params := by
  rw [readSignature, gives_expect_bind] at given
  obtain ⟨found, later, rfl, isName, given⟩ := given
  rw [gives_expect_bind] at given
  obtain ⟨opening, inner, rfl, isOpening, given⟩ := given
  rw [gives_nextIs_bind] at given
  by_cases closed : Ahead (· = .rightParen) inner
  · simp only [closed, decide_true, if_true] at given
    rw [gives_known_bind (pure []) _ stop inner inner rest [] _ rfl, gives_expect_bind] at given
    obtain ⟨close, behind, rfl, isClose, given⟩ := given
    rw [gives_expect_bind] at given
    obtain ⟨brace, left, rfl, isBrace, given⟩ := given
    obtain ⟨same, rfl⟩ := (gives_pure ..).mp given
    cases same
    exact .none _ opening close brace left isName isOpening isClose isBrace
  · simp only [closed, decide_false, Bool.false_eq_true, if_false] at given
    rw [gives_bind] at given
    obtain ⟨names, middle, read, given⟩ := given
    rw [gives_expect_bind] at given
    obtain ⟨close, behind, rfl, isClose, given⟩ := given
    rw [gives_expect_bind] at given
    obtain ⟨brace, left, rfl, isBrace, given⟩ := given
    obtain ⟨same, rfl⟩ := (gives_pure ..).mp given
    cases same
    exact .some _ opening close brace inner left _ isName isOpening
      (params_sound stop bound 0 inner _ _ read) isClose isBrace

-- Statements and declarations.

structure StmtSound (bound : Nat) : Prop where
  statement : ∀ (stop : Token) (tokens rest : List Token) (tree : Stmt Unit), stop.kind = .endOfInput →
    (readStmt bound).Gives stop tokens tree rest → Builds true .statement tokens rest tree
  block : ∀ (stop : Token) (tokens rest : List Token) (body : List (Stmt Unit)), stop.kind = .endOfInput →
    (readBlock bound).Gives stop tokens body rest →
    ∃ close : Token, close.kind = .rightBrace ∧ Builds true .declarations tokens (close :: rest) body
  declaration : ∀ (stop : Token) (tokens rest : List Token) (tree : Stmt Unit), stop.kind = .endOfInput →
    (readDeclaration bound).Gives stop tokens tree rest → Builds true .declaration tokens rest tree
  declarations : ∀ (inBlock : Bool) (stop : Token) (tokens rest : List Token) (trees : List (Stmt Unit)),
    stop.kind = .endOfInput → (readDeclarations bound inBlock).Gives stop tokens trees rest →
    Builds true .declarations tokens rest trees ∧ (inBlock = false → rest = [])

theorem stmt_sound (tree : Stmt Unit) (sound : StmtSound bound) (atEnd : stop.kind = .endOfInput)
    (given : (readStmt (bound + 1)).Gives stop tokens tree rest) : Builds true .statement tokens rest tree := by
  rw [readStmt, gives_peek_bind] at given
  cases tokens with
  | nil =>
      simp only [List.head?_nil, Option.getD_none, atEnd] at given
      obtain ⟨value, semicolon, rfl, whole, ends⟩ := ended_sound bound stop [] rest _ _ tree atEnd given
      exact .expr semicolon [] rest value whole ends
  | cons token later =>
      simp only [List.head?_cons, Option.getD_some] at given
      split at given
      · rename_i isFor
        have given := gives_taken stop rest _ _ token later tree (by simp [isFor]) given
        rw [gives_expect_bind] at given
        obtain ⟨opening, others, rfl, isOpening, given⟩ := given
        rw [gives_bind] at given
        obtain ⟨start, afterStart, readStart, given⟩ := given
        rw [gives_bind] at given
        obtain ⟨condition, afterCondition, readTest, given⟩ := given
        rw [gives_bind] at given
        obtain ⟨step, afterStep, readStep, given⟩ := given
        rw [gives_bind] at given
        obtain ⟨body, left, readBody, given⟩ := given
        obtain ⟨rfl, rfl⟩ := (gives_pure ..).mp given
        exact .counting token opening others afterStart afterCondition afterStep left start condition step body
          isFor isOpening (start_sound bound stop others afterStart start atEnd readStart)
          (clause_sound bound stop afterStart afterCondition .semicolon _ condition atEnd readTest)
          (clause_sound bound stop afterCondition afterStep .rightParen _ step atEnd readStep)
          (sound.statement stop afterStep left body atEnd readBody)
      · rename_i isIf
        have given := gives_taken stop rest _ _ token later tree (by simp [isIf]) given
        rw [gives_bind] at given
        obtain ⟨condition, afterCondition, readTest, given⟩ := given
        rw [gives_bind] at given
        obtain ⟨yes, middle, readYes, given⟩ := given
        have tests := condition_sound bound stop later afterCondition _ _ condition atEnd readTest
        have chosen := sound.statement stop afterCondition middle yes atEnd readYes
        rw [gives_accept_bind] at given
        rcases given with ⟨missing, given⟩ | ⟨otherwise, afterYes, rfl, isElse, given⟩
        · obtain ⟨rfl, rfl⟩ := (gives_pure ..).mp given
          exact .branch token later afterCondition middle condition yes isIf tests chosen (fun _ => missing)
        · rw [gives_bind] at given
          obtain ⟨no, left, readNo, given⟩ := given
          obtain ⟨rfl, rfl⟩ := (gives_pure ..).mp given
          exact .branches token otherwise later afterCondition afterYes left condition yes no isIf tests chosen
            (of_decide_eq_true isElse) (sound.statement stop afterYes left no atEnd readNo)
      · rename_i isPrint
        have given := gives_taken stop rest _ _ token later tree (by simp [isPrint]) given
        obtain ⟨value, semicolon, rfl, whole, ends⟩ := ended_sound bound stop later rest _ _ tree atEnd given
        exact .print token semicolon later rest value isPrint whole ends
      · rename_i isReturn
        have given := gives_taken stop rest _ _ token later tree (by simp [isReturn]) given
        obtain ⟨value, rfl, whole⟩ := return_sound bound stop later rest token tree atEnd given
        exact .ret token later rest value isReturn whole
      · rename_i isWhile
        have given := gives_taken stop rest _ _ token later tree (by simp [isWhile]) given
        rw [gives_bind] at given
        obtain ⟨condition, afterCondition, readTest, given⟩ := given
        rw [gives_bind] at given
        obtain ⟨body, left, readBody, given⟩ := given
        obtain ⟨rfl, rfl⟩ := (gives_pure ..).mp given
        exact .loop token later afterCondition left condition body isWhile
          (condition_sound bound stop later afterCondition _ _ condition atEnd readTest)
          (sound.statement stop afterCondition left body atEnd readBody)
      · rename_i isOpening
        have given := gives_taken stop rest _ _ token later tree (by simp [isOpening]) given
        rw [gives_bind] at given
        obtain ⟨body, left, readBody, given⟩ := given
        obtain ⟨rfl, rfl⟩ := (gives_pure ..).mp given
        obtain ⟨close, isClose, inner⟩ := sound.block stop later left body atEnd readBody
        exact .block token close later left body isOpening inner isClose
      · obtain ⟨value, semicolon, rfl, whole, ends⟩ :=
          ended_sound bound stop (token :: later) rest _ _ tree atEnd given
        exact .expr semicolon (token :: later) rest value whole ends

theorem block_sound (body : List (Stmt Unit)) (sound : StmtSound bound) (atEnd : stop.kind = .endOfInput)
    (given : (readBlock (bound + 1)).Gives stop tokens body rest) :
    ∃ close : Token, close.kind = .rightBrace ∧ Builds true .declarations tokens (close :: rest) body := by
  rw [readBlock, gives_bind] at given
  obtain ⟨trees, middle, read, given⟩ := given
  rw [gives_expect_bind] at given
  obtain ⟨close, left, rfl, isClose, given⟩ := given
  obtain ⟨rfl, rfl⟩ := (gives_pure ..).mp given
  exact ⟨close, isClose, (sound.declarations true stop tokens _ trees atEnd read).1⟩

theorem declaration_sound (tree : Stmt Unit) (sound : StmtSound bound) (atEnd : stop.kind = .endOfInput)
    (given : (readDeclaration (bound + 1)).Gives stop tokens tree rest) :
    Builds true .declaration tokens rest tree := by
  rw [readDeclaration, gives_peek_bind] at given
  cases tokens with
  | nil =>
      simp only [List.head?_nil, Option.getD_none, atEnd] at given
      exact .statement [] rest tree (sound.statement stop [] rest tree atEnd given)
  | cons token later =>
      simp only [List.head?_cons, Option.getD_some] at given
      split at given
      · rename_i isVar
        have given := gives_taken stop rest _ _ token later tree (by simp [isVar]) given
        exact .var token later rest tree isVar (variable_sound bound stop later rest tree atEnd given)
      · rename_i isFun
        have given := gives_taken stop rest _ _ token later tree (by simp [isFun]) given
        rw [gives_bind] at given
        obtain ⟨⟨name, params⟩, afterHead, readHead, given⟩ := given
        rw [gives_bind] at given
        obtain ⟨body, left, readBody, given⟩ := given
        obtain ⟨rfl, rfl⟩ := (gives_pure ..).mp given
        obtain ⟨close, isClose, inner⟩ := sound.block stop afterHead left body atEnd readBody
        exact .func token name close later afterHead left params body isFun
          (signature_sound bound stop later afterHead name params readHead) inner isClose
      · exact .statement _ rest tree (sound.statement stop _ rest tree atEnd given)

theorem declarations_sound (inBlock : Bool) (trees : List (Stmt Unit)) (sound : StmtSound bound)
    (atEnd : stop.kind = .endOfInput)
    (given : (readDeclarations (bound + 1) inBlock).Gives stop tokens trees rest) :
    Builds true .declarations tokens rest trees ∧ (inBlock = false → rest = []) := by
  rw [readDeclarations, gives_atEnd_bind] at given
  split at given
  · rename_i empty
    obtain ⟨rfl, rfl⟩ := (gives_pure ..).mp given
    exact ⟨.none tokens, fun _ => List.isEmpty_iff.mp empty⟩
  · rw [gives_nextIs_bind] at given
    split at given
    · rename_i closed
      obtain ⟨rfl, rfl⟩ := (gives_pure ..).mp given
      exact ⟨.none tokens, fun outside => by simp [outside] at closed⟩
    · rw [gives_bind] at given
      obtain ⟨recovered, middle, read, given⟩ := given
      obtain ⟨first, rfl, found⟩ := (gives_recover _ (declaration_honest bound) ..).mp read
      rw [gives_bind] at given
      obtain ⟨others, left, readOthers, given⟩ := given
      obtain ⟨rfl, rfl⟩ := (gives_pure ..).mp given
      obtain ⟨later, ends⟩ := sound.declarations inBlock stop middle left others atEnd readOthers
      exact ⟨.more tokens middle left first others (sound.declaration stop tokens middle first atEnd found) later,
        ends⟩

theorem stmt_sound_within (bound : Nat) : StmtSound bound := by
  induction bound with
  | zero =>
      exact ⟨fun _ _ _ _ _ given => absurd given (not_gives_failHere _ _ _ _ _),
        fun _ _ _ _ _ given => absurd given (not_gives_failHere _ _ _ _ _),
        fun _ _ _ _ _ given => absurd given (not_gives_failHere _ _ _ _ _),
        fun _ _ _ _ _ _ given => absurd given (not_gives_failHere _ _ _ _ _)⟩
  | succ bound sound =>
      exact ⟨fun stop tokens rest tree => stmt_sound bound stop tokens rest tree sound,
        fun stop tokens rest body => block_sound bound stop tokens rest body sound,
        fun stop tokens rest tree => declaration_sound bound stop tokens rest tree sound,
        fun inBlock stop tokens rest trees => declarations_sound bound stop tokens rest inBlock trees sound⟩

-- From derivations to readings: what is taken off the front of the tokens.

theorem clause_shorter (longest : Bool) (ending : Kind) (clause : Option (Expr Unit))
    (derived : IsClause longest ending tokens rest clause) : rest.length < tokens.length := by
  cases derived with
  | missing mark _ ends => simp
  | present mark _ _ tree whole ends => exact derives_shorter _ _ _ _ _ whole

theorem condition_shorter (longest : Bool) (tree : Expr Unit) (derived : IsCondition longest tokens rest tree) :
    rest.length < tokens.length := by
  cases derived with
  | mk opening close later _ _ isOpening whole isClose =>
      have shorter := derives_shorter _ _ _ _ _ whole
      simp only [List.length_cons] at shorter ⊢
      omega

theorem variable_shorter (longest : Bool) (tree : Stmt Unit) (derived : IsVariable longest tokens rest tree) :
    rest.length < tokens.length := by
  cases derived with
  | bare name semicolon _ isName ends =>
      simp only [List.length_cons]
      omega
  | assigned name equals semicolon later _ value isName isEquals whole ends =>
      have shorter := derives_shorter _ _ _ _ _ whole
      simp only [List.length_cons] at shorter ⊢
      omega

theorem start_shorter (longest : Bool) (start : Option (Stmt Unit)) (derived : IsStart longest tokens rest start) :
    rest.length < tokens.length := by
  cases derived with
  | nothing semicolon _ ends => simp
  | declared keyword later _ start isVar whole =>
      have shorter := variable_shorter later rest longest start whole
      simp only [List.length_cons]
      omega
  | value semicolon _ _ tree whole ends => exact derives_shorter _ _ _ _ _ whole

theorem params_shorter (count : Nat) (tokens rest params : List Token)
    (derived : IsParams count tokens rest params) : rest.length < tokens.length := by
  induction derived with
  | last => simp
  | more _ _ _ _ _ _ _ _ _ _ ih =>
      simp only [List.length_cons]
      omega

theorem signature_shorter (name : Token) (params : List Token) (derived : IsSignature tokens rest name params) :
    rest.length < tokens.length := by
  cases derived with
  | none =>
      simp only [List.length_cons]
      omega
  | some _ _ _ _ inner _ _ _ _ given _ _ =>
      have shorter := params_shorter _ _ _ _ given
      simp only [List.length_cons] at shorter ⊢
      omega

def Part.Shortens (tokens rest : List Token) : Part → Prop
  | .declarations => rest.length ≤ tokens.length
  | _ => rest.length < tokens.length

theorem builds_shorter (longest : Bool) (part : Part) (tokens rest : List Token) (tree : part.Tree)
    (derived : Builds longest part tokens rest tree) : part.Shortens tokens rest := by
  induction derived with
  | counting _ _ tokens afterStart afterCondition afterStep _ _ _ _ _ _ _ starts tests steps _ ih =>
      have first := start_shorter tokens afterStart longest _ starts
      have second := clause_shorter afterStart afterCondition longest _ _ tests
      have third := clause_shorter afterCondition afterStep longest _ _ steps
      simp only [Part.Shortens, List.length_cons] at ih ⊢
      omega
  | branch _ tokens afterCondition _ _ _ _ tests _ _ ih | loop _ tokens afterCondition _ _ _ _ tests _ ih =>
      have first := condition_shorter tokens afterCondition longest _ tests
      simp only [Part.Shortens, List.length_cons] at ih ⊢
      omega
  | branches _ _ tokens afterCondition _ _ _ _ _ _ tests _ _ _ ihYes ihNo =>
      have first := condition_shorter tokens afterCondition longest _ tests
      simp only [Part.Shortens, List.length_cons] at ihYes ihNo ⊢
      omega
  | print _ _ tokens _ _ _ whole _ =>
      have first := derives_shorter _ _ _ _ _ whole
      simp only [Part.Shortens, List.length_cons] at first ⊢
      omega
  | ret _ tokens rest _ _ whole =>
      have first := clause_shorter tokens rest longest _ _ whole
      simp only [Part.Shortens, List.length_cons]
      omega
  | block _ _ tokens _ _ _ _ _ ih =>
      simp only [Part.Shortens, List.length_cons] at ih ⊢
      omega
  | expr _ tokens _ _ whole _ => exact derives_shorter _ _ _ _ _ whole
  | var _ tokens rest _ _ declared =>
      have first := variable_shorter tokens rest longest _ declared
      simp only [Part.Shortens, List.length_cons]
      omega
  | func _ _ _ tokens afterHead _ _ _ _ head _ _ ih =>
      have first := signature_shorter tokens afterHead _ _ head
      simp only [Part.Shortens, List.length_cons] at ih ⊢
      omega
  | statement _ _ _ _ ih => exact ih
  | none => exact Nat.le_refl _
  | more _ _ _ _ _ _ _ ihFirst ihOthers =>
      simp only [Part.Shortens] at ihFirst ihOthers ⊢
      omega

-- The kinds with which statements and declarations start.

def startsStmt (kind : Kind) : Bool :=
  kind = .kwFor || kind = .kwIf || kind = .kwPrint || kind = .kwReturn || kind = .kwWhile || kind = .leftBrace ||
    startsExpr kind

def startsDeclaration (kind : Kind) : Bool := kind = .kwVar || kind = .kwFun || startsStmt kind

def Part.Starts (tokens : List Token) : Part → Prop
  | .statement => Ahead startsStmt tokens
  | .declaration => Ahead startsDeclaration tokens
  | .declarations => True

theorem ahead_weaken (fewer more : Kind → Bool) (hit : Ahead fewer tokens)
    (included : ∀ kind, fewer kind = true → more kind = true) : Ahead more tokens := by
  cases tokens with
  | nil => exact absurd hit (not_ahead_nil fewer)
  | cons token later =>
      rw [ahead_cons] at hit ⊢
      exact included token.kind hit

theorem builds_starts (longest : Bool) (part : Part) (tokens rest : List Token) (tree : part.Tree)
    (derived : Builds longest part tokens rest tree) : part.Starts tokens := by
  induction derived with
  | counting _ _ _ _ _ _ _ _ _ _ _ kind | branch _ _ _ _ _ _ kind | branches _ _ _ _ _ _ _ _ _ kind
  | print _ _ _ _ _ kind | ret _ _ _ _ kind | loop _ _ _ _ _ _ kind | block _ _ _ _ _ kind =>
      simp [Part.Starts, ahead_cons, startsStmt, kind]
  | expr _ tokens _ _ whole _ =>
      exact ahead_weaken tokens startsExpr _ (derives_starts _ _ _ _ _ whole) (fun kind => by cases kind <;> decide)
  | var _ _ _ _ kind | func _ _ _ _ _ _ _ _ kind => simp [Part.Starts, ahead_cons, startsDeclaration, kind]
  | statement tokens _ _ _ ih => exact ahead_weaken tokens startsStmt _ ih (fun kind => by cases kind <;> decide)
  | none | more => trivial

-- Completeness, with room for the readings that nest.

theorem expression_complete (tree : Expr Unit) (room : 24 * tokens.length + 19 ≤ bound)
    (derived : IsExpr true tokens rest tree) : (readExpr bound true).Gives stop tokens tree rest :=
  complete_within bound (.expr true) stop tokens rest tree room derived

theorem optional_complete {α : Type} (ending : Kind) (next : Option (Expr Unit) → Reading α) (value : α)
    (clause : Option (Expr Unit)) (room : 24 * tokens.length + 19 ≤ bound) (mark : ¬ startsExpr ending = true)
    (derived : IsClause true ending tokens rest clause)
    (later : ∀ token, token.kind = ending → (next clause).Gives stop (token :: rest) value rest) :
    (nextIs ending >>= fun missing =>
      if missing = true then pure none >>= next else some <$> readExpr bound true >>= next).Gives stop tokens
        value rest := by
  rw [gives_nextIs_bind]
  cases derived with
  | missing token _ ends =>
      have missing : Ahead (· = ending) (token :: rest) := by simp [ahead_cons, ends]
      simp only [missing, decide_true, if_true]
      rw [gives_known_bind (pure none) next stop _ _ rest none value rfl]
      exact later token ends
  | present token _ _ tree whole ends =>
      have present : ¬ Ahead (· = ending) tokens := by
        refine ahead_excludes startsExpr _ tokens (derives_starts _ _ _ _ _ whole) ?_
        intro kind starts same
        rw [of_decide_eq_true same] at starts
        exact mark starts
      simp only [present, decide_false, Bool.false_eq_true, if_false]
      rw [gives_bind]
      refine ⟨some tree, token :: rest, (gives_map ..).mpr ⟨tree, ?_, rfl⟩, later token ends⟩
      exact expression_complete bound stop tokens _ tree room whole

theorem clause_complete (ending : Kind) (cause : ParseCause) (clause : Option (Expr Unit))
    (room : 24 * tokens.length + 19 ≤ bound) (mark : ¬ startsExpr ending = true)
    (derived : IsClause true ending tokens rest clause) :
    (readClause bound ending cause).Gives stop tokens clause rest := by
  refine optional_complete bound stop tokens rest ending _ clause clause room mark derived (fun token ends => ?_)
  rw [gives_expect_bind]
  exact ⟨token, rest, rfl, ends, (gives_pure ..).mpr ⟨rfl, rfl⟩⟩

theorem return_complete (keyword : Token) (value : Option (Expr Unit)) (room : 24 * tokens.length + 19 ≤ bound)
    (derived : IsClause true .semicolon tokens rest value) :
    (readReturn bound keyword).Gives stop tokens (.ret keyword value) rest := by
  refine optional_complete bound stop tokens rest .semicolon _ _ value room (by decide) derived
    (fun token ends => ?_)
  rw [gives_expect_bind]
  exact ⟨token, rest, rfl, ends, (gives_pure ..).mpr ⟨rfl, rfl⟩⟩

theorem condition_complete (before after : ParseCause) (tree : Expr Unit) (room : 24 * tokens.length ≤ bound)
    (derived : IsCondition true tokens rest tree) :
    (readCondition bound before after).Gives stop tokens tree rest := by
  cases derived with
  | mk opening close later _ _ isOpening whole isClose =>
      simp only [List.length_cons] at room
      rw [readCondition, gives_expect_bind]
      refine ⟨opening, later, rfl, isOpening, ?_⟩
      rw [gives_bind]
      refine ⟨tree, close :: rest, expression_complete bound stop later _ tree (by omega) whole, ?_⟩
      rw [gives_expect_bind]
      exact ⟨close, rest, rfl, isClose, (gives_pure ..).mpr ⟨rfl, rfl⟩⟩

theorem variable_complete (tree : Stmt Unit) (room : 24 * tokens.length ≤ bound)
    (derived : IsVariable true tokens rest tree) : (readVariable bound).Gives stop tokens tree rest := by
  rw [readVariable, gives_expect_bind]
  cases derived with
  | bare name semicolon _ isName ends =>
      refine ⟨name, semicolon :: rest, rfl, isName, ?_⟩
      have bare : ¬ Ahead (· = .equal) (semicolon :: rest) := by simp [ahead_cons, ends]
      rw [gives_unaccepted_bind _ _ _ _ _ _ bare, gives_known_bind (pure none) _ stop _ _ rest none _ rfl,
        gives_expect_bind]
      exact ⟨semicolon, rest, rfl, ends, (gives_pure ..).mpr ⟨rfl, rfl⟩⟩
  | assigned name equals semicolon later _ value isName isEquals whole ends =>
      simp only [List.length_cons] at room
      refine ⟨name, equals :: later, rfl, isName, ?_⟩
      rw [gives_accepted_bind _ _ _ _ _ _ _ (decide_eq_true isEquals), gives_bind]
      refine ⟨some value, semicolon :: rest, (gives_map ..).mpr ⟨value, ?_, rfl⟩, ?_⟩
      · exact expression_complete bound stop later _ value (by omega) whole
      · rw [gives_expect_bind]
        exact ⟨semicolon, rest, rfl, ends, (gives_pure ..).mpr ⟨rfl, rfl⟩⟩

theorem ended_complete (cause : ParseCause) (build : Expr Unit → Stmt Unit) (value : Expr Unit) (semicolon : Token)
    (room : 24 * tokens.length + 19 ≤ bound) (whole : IsExpr true tokens (semicolon :: rest) value)
    (ends : semicolon.kind = .semicolon) :
    (readExpr bound true >>= fun value => expect .semicolon cause >>= fun _ =>
      pure (build value)).Gives stop tokens (build value) rest := by
  rw [gives_bind]
  refine ⟨value, semicolon :: rest, expression_complete bound stop tokens _ value room whole, ?_⟩
  rw [gives_expect_bind]
  exact ⟨semicolon, rest, rfl, ends, (gives_pure ..).mpr ⟨rfl, rfl⟩⟩

theorem start_complete (start : Option (Stmt Unit)) (room : 24 * tokens.length + 19 ≤ bound)
    (derived : IsStart true tokens rest start) : (readStart bound).Gives stop tokens start rest := by
  rw [readStart]
  cases derived with
  | nothing semicolon _ ends =>
      rw [gives_accepted_bind _ _ _ _ _ _ _ (decide_eq_true ends)]
      exact (gives_pure ..).mpr ⟨rfl, rfl⟩
  | declared keyword later _ start isVar whole =>
      simp only [List.length_cons] at room
      rw [gives_unaccepted_bind _ _ _ _ _ _ (by simp [ahead_cons, isVar]),
        gives_accepted_bind _ _ _ _ _ _ _ (decide_eq_true isVar)]
      exact (gives_map ..).mpr ⟨start, variable_complete bound stop later rest start (by omega) whole, rfl⟩
  | value semicolon _ _ tree whole ends =>
      have starts : Ahead startsExpr tokens := derives_starts _ _ _ _ _ whole
      rw [gives_unaccepted_bind _ _ _ _ _ _
          (ahead_excludes startsExpr _ tokens starts (fun kind => by cases kind <;> decide)),
        gives_unaccepted_bind _ _ _ _ _ _
          (ahead_excludes startsExpr _ tokens starts (fun kind => by cases kind <;> decide))]
      exact (gives_map ..).mpr ⟨.expr tree, ended_complete bound stop tokens rest _ .expr tree semicolon room whole ends, rfl⟩

theorem params_complete (count : Nat) (tokens rest params : List Token) (derived : IsParams count tokens rest params) :
    ∀ bound : Nat, tokens.length ≤ bound → ¬ Ahead (· = .comma) rest →
      (readParams bound count).Gives stop tokens params rest := by
  induction derived with
  | last count name rest few isName =>
      intro bound room ends
      cases bound with
      | zero => simp at room
      | succ bound =>
          rw [readParams, if_neg (Nat.not_le_of_lt few), gives_expect_bind]
          refine ⟨name, rest, rfl, isName, ?_⟩
          rw [gives_unaccepted_bind _ _ _ _ _ _ ends]
          exact (gives_pure ..).mpr ⟨rfl, rfl⟩
  | more count name comma tokens rest others few isName isComma later ih =>
      intro bound room ends
      cases bound with
      | zero => simp at room
      | succ bound =>
          simp only [List.length_cons] at room
          rw [readParams, if_neg (Nat.not_le_of_lt few), gives_expect_bind]
          refine ⟨name, comma :: tokens, rfl, isName, ?_⟩
          rw [gives_accepted_bind _ _ _ _ _ _ _ (decide_eq_true isComma), gives_bind]
          exact ⟨others, rest, ih bound (by omega) ends, (gives_pure ..).mpr ⟨rfl, rfl⟩⟩

theorem params_start (count : Nat) (params : List Token) (derived : IsParams count tokens rest params) :
    Ahead (· = .identifier) tokens := by
  cases derived with
  | last _ name _ few isName | more _ name _ _ _ _ few isName => simp [ahead_cons, isName]

theorem signature_complete (name : Token) (params : List Token) (room : 24 * tokens.length ≤ bound)
    (derived : IsSignature tokens rest name params) :
    (readSignature bound).Gives stop tokens (name, params) rest := by
  rw [readSignature, gives_expect_bind]
  cases derived with
  | none _ opening close brace _ isName isOpening isClose isBrace =>
      refine ⟨name, _, rfl, isName, ?_⟩
      rw [gives_expect_bind]
      refine ⟨opening, _, rfl, isOpening, ?_⟩
      have closed : Ahead (· = .rightParen) (close :: brace :: rest) := by simp [ahead_cons, isClose]
      rw [gives_nextIs_bind]
      simp only [closed, decide_true, if_true]
      rw [gives_known_bind (pure []) _ stop _ _ rest [] _ rfl, gives_expect_bind]
      refine ⟨close, _, rfl, isClose, ?_⟩
      rw [gives_expect_bind]
      exact ⟨brace, rest, rfl, isBrace, (gives_pure ..).mpr ⟨rfl, rfl⟩⟩
  | some _ opening close brace inner _ _ isName isOpening given isClose isBrace =>
      simp only [List.length_cons] at room
      refine ⟨name, _, rfl, isName, ?_⟩
      rw [gives_expect_bind]
      refine ⟨opening, inner, rfl, isOpening, ?_⟩
      have notClosed : ¬ Ahead (· = .rightParen) inner :=
        ahead_excludes _ _ inner (params_start inner _ 0 params given) (fun kind => by cases kind <;> decide)
      rw [gives_nextIs_bind]
      simp only [notClosed, decide_false, Bool.false_eq_true, if_false]
      rw [gives_bind]
      refine ⟨params, close :: brace :: rest, ?_, ?_⟩
      · exact params_complete stop 0 inner _ params given bound (by omega) (by simp [ahead_cons, isClose])
      · rw [gives_expect_bind]
        refine ⟨close, _, rfl, isClose, ?_⟩
        rw [gives_expect_bind]
        exact ⟨brace, rest, rfl, isBrace, (gives_pure ..).mpr ⟨rfl, rfl⟩⟩

structure StmtComplete (bound : Nat) : Prop where
  statement : ∀ (stop : Token) (tokens rest : List Token) (tree : Stmt Unit), 24 * tokens.length + 20 ≤ bound →
    Builds true .statement tokens rest tree → (readStmt bound).Gives stop tokens tree rest
  block : ∀ (stop close : Token) (tokens rest : List Token) (body : List (Stmt Unit)),
    24 * tokens.length + 23 ≤ bound → close.kind = .rightBrace →
    Builds true .declarations tokens (close :: rest) body → (readBlock bound).Gives stop tokens body rest
  declaration : ∀ (stop : Token) (tokens rest : List Token) (tree : Stmt Unit), 24 * tokens.length + 21 ≤ bound →
    Builds true .declaration tokens rest tree → (readDeclaration bound).Gives stop tokens tree rest
  declarations : ∀ (inBlock : Bool) (stop : Token) (tokens rest : List Token) (trees : List (Stmt Unit)),
    24 * tokens.length + 22 ≤ bound → (rest = [] ∨ inBlock = true ∧ Ahead (· = .rightBrace) rest) →
    Builds true .declarations tokens rest trees → (readDeclarations bound inBlock).Gives stop tokens trees rest

theorem stmt_complete (tree : Stmt Unit) (complete : StmtComplete bound)
    (room : 24 * tokens.length + 20 ≤ bound + 1) (derived : Builds true .statement tokens rest tree) :
    (readStmt (bound + 1)).Gives stop tokens tree rest := by
  rw [readStmt, gives_peek_bind]
  cases derived with
  | counting keyword opening later afterStart afterCondition afterStep _ start condition step body isFor isOpening
      starts tests steps repeated =>
      have first := start_shorter later afterStart true start starts
      have second := clause_shorter afterStart afterCondition true _ condition tests
      have third := clause_shorter afterCondition afterStep true _ step steps
      simp only [List.length_cons] at room
      simp only [List.head?_cons, Option.getD_some, isFor]
      rw [gives_accepted_bind _ _ _ _ _ _ _ (by simp [isFor]), gives_expect_bind]
      refine ⟨opening, later, rfl, isOpening, ?_⟩
      rw [gives_bind]
      refine ⟨start, afterStart, start_complete bound stop later afterStart start (by omega) starts, ?_⟩
      rw [gives_bind]
      refine ⟨condition, afterCondition, ?_, ?_⟩
      · exact clause_complete bound stop afterStart afterCondition .semicolon _ condition (by omega) (by decide) tests
      rw [gives_bind]
      refine ⟨step, afterStep, ?_, ?_⟩
      · exact clause_complete bound stop afterCondition afterStep .rightParen _ step (by omega) (by decide) steps
      rw [gives_bind]
      exact ⟨body, rest, complete.statement stop afterStep rest body (by omega) repeated,
        (gives_pure ..).mpr ⟨rfl, rfl⟩⟩
  | branch keyword later afterCondition _ condition yes isIf tests chosen ends =>
      have first := condition_shorter later afterCondition true condition tests
      simp only [List.length_cons] at room
      simp only [List.head?_cons, Option.getD_some, isIf]
      rw [gives_accepted_bind _ _ _ _ _ _ _ (by simp [isIf]), gives_bind]
      refine ⟨condition, afterCondition, ?_, ?_⟩
      · exact condition_complete bound stop later afterCondition _ _ condition (by omega) tests
      rw [gives_bind]
      refine ⟨yes, rest, complete.statement stop afterCondition rest yes (by omega) chosen, ?_⟩
      rw [gives_unaccepted_bind _ _ _ _ _ _ (ends rfl)]
      exact (gives_pure ..).mpr ⟨rfl, rfl⟩
  | branches keyword otherwise later afterCondition afterYes _ condition yes no isIf tests chosen isElse unchosen =>
      have first := condition_shorter later afterCondition true condition tests
      have second := builds_shorter true .statement _ _ _ chosen
      simp only [Part.Shortens, List.length_cons] at room second
      simp only [List.head?_cons, Option.getD_some, isIf]
      rw [gives_accepted_bind _ _ _ _ _ _ _ (by simp [isIf]), gives_bind]
      refine ⟨condition, afterCondition, ?_, ?_⟩
      · exact condition_complete bound stop later afterCondition _ _ condition (by omega) tests
      rw [gives_bind]
      refine ⟨yes, otherwise :: afterYes, complete.statement stop afterCondition _ yes (by omega) chosen, ?_⟩
      rw [gives_accepted_bind _ _ _ _ _ _ _ (decide_eq_true isElse), gives_bind]
      exact ⟨no, rest, complete.statement stop afterYes rest no (by omega) unchosen,
        (gives_pure ..).mpr ⟨rfl, rfl⟩⟩
  | print keyword semicolon later _ value isPrint whole ends =>
      simp only [List.length_cons] at room
      simp only [List.head?_cons, Option.getD_some, isPrint]
      rw [gives_accepted_bind _ _ _ _ _ _ _ (by simp [isPrint])]
      exact ended_complete bound stop later rest _ (.print keyword) value semicolon (by omega) whole ends
  | ret keyword later _ value isReturn whole =>
      simp only [List.length_cons] at room
      simp only [List.head?_cons, Option.getD_some, isReturn]
      rw [gives_accepted_bind _ _ _ _ _ _ _ (by simp [isReturn])]
      exact return_complete bound stop later rest keyword value (by omega) whole
  | loop keyword later afterCondition _ condition body isWhile tests repeated =>
      have first := condition_shorter later afterCondition true condition tests
      simp only [List.length_cons] at room
      simp only [List.head?_cons, Option.getD_some, isWhile]
      rw [gives_accepted_bind _ _ _ _ _ _ _ (by simp [isWhile]), gives_bind]
      refine ⟨condition, afterCondition, ?_, ?_⟩
      · exact condition_complete bound stop later afterCondition _ _ condition (by omega) tests
      rw [gives_bind]
      exact ⟨body, rest, complete.statement stop afterCondition rest body (by omega) repeated,
        (gives_pure ..).mpr ⟨rfl, rfl⟩⟩
  | block opening close later _ body isOpening inner isClose =>
      simp only [List.length_cons] at room
      simp only [List.head?_cons, Option.getD_some, isOpening]
      rw [gives_accepted_bind _ _ _ _ _ _ _ (by simp [isOpening]), gives_bind]
      exact ⟨body, rest, complete.block stop close later rest body (by omega) isClose inner,
        (gives_pure ..).mpr ⟨rfl, rfl⟩⟩
  | expr semicolon _ _ value whole ends =>
      have starts : Ahead startsExpr tokens := derives_starts _ _ _ _ _ whole
      have given := ended_complete bound stop tokens rest .semicolonAfterExpression .expr value semicolon (by omega)
        whole ends
      cases tokens with
      | nil => exact absurd starts (not_ahead_nil _)
      | cons token later =>
          rw [ahead_cons] at starts
          simp only [List.head?_cons, Option.getD_some]
          split
          all_goals first | exact given | (rename_i kind; simp [startsExpr, startsPrimary, kind] at starts)

theorem declaration_complete (tree : Stmt Unit) (complete : StmtComplete bound)
    (room : 24 * tokens.length + 21 ≤ bound + 1) (derived : Builds true .declaration tokens rest tree) :
    (readDeclaration (bound + 1)).Gives stop tokens tree rest := by
  rw [readDeclaration, gives_peek_bind]
  cases derived with
  | var keyword later _ _ isVar declared =>
      simp only [List.length_cons] at room
      simp only [List.head?_cons, Option.getD_some, isVar]
      rw [gives_accepted_bind _ _ _ _ _ _ _ (by simp [isVar])]
      exact variable_complete bound stop later rest tree (by omega) declared
  | func keyword name close later afterHead _ params body isFun head inner isClose =>
      have first := signature_shorter later afterHead name params head
      simp only [List.length_cons] at room
      simp only [List.head?_cons, Option.getD_some, isFun]
      rw [gives_accepted_bind _ _ _ _ _ _ _ (by simp [isFun]), gives_bind]
      refine ⟨(name, params), afterHead, signature_complete bound stop later afterHead name params (by omega) head, ?_⟩
      rw [gives_bind]
      exact ⟨body, rest, complete.block stop close afterHead rest body (by omega) isClose inner,
        (gives_pure ..).mpr ⟨rfl, rfl⟩⟩
  | statement _ _ _ whole =>
      have starts : Ahead startsStmt tokens := builds_starts true .statement tokens rest tree whole
      have given := complete.statement stop tokens rest tree (by omega) whole
      cases tokens with
      | nil => exact absurd starts (not_ahead_nil _)
      | cons token later =>
          rw [ahead_cons] at starts
          simp only [List.head?_cons, Option.getD_some]
          split
          all_goals first | exact given | (rename_i kind; simp [startsStmt, startsExpr, startsPrimary, kind] at starts)

theorem declarations_complete (inBlock : Bool) (trees : List (Stmt Unit)) (complete : StmtComplete bound)
    (room : 24 * tokens.length + 22 ≤ bound + 1) (ends : rest = [] ∨ inBlock = true ∧ Ahead (· = .rightBrace) rest)
    (derived : Builds true .declarations tokens rest trees) :
    (readDeclarations (bound + 1) inBlock).Gives stop tokens trees rest := by
  rw [readDeclarations, gives_atEnd_bind]
  cases derived with
  | none =>
      rcases ends with rfl | ⟨inside, closed⟩
      · exact (gives_pure ..).mpr ⟨rfl, rfl⟩
      · split
        · exact (gives_pure ..).mpr ⟨rfl, rfl⟩
        · rw [gives_nextIs_bind]
          simp only [inside, closed, decide_true, Bool.and_self, if_true]
          exact (gives_pure ..).mpr ⟨rfl, rfl⟩
  | more _ middle _ first others declared later =>
      have starts : Ahead startsDeclaration tokens := builds_starts true .declaration tokens middle first declared
      have shorter := builds_shorter true .declaration tokens middle first declared
      simp only [Part.Shortens] at shorter
      have unclosed : ¬ Ahead (· = .rightBrace) tokens :=
        ahead_excludes startsDeclaration _ tokens starts (fun kind => by cases kind <;> decide)
      have filled : ¬ tokens.isEmpty = true := by
        intro empty
        rw [List.isEmpty_iff] at empty
        exact not_ahead_nil _ (empty ▸ starts)
      rw [if_neg filled, gives_nextIs_bind]
      simp only [unclosed, decide_false, Bool.and_false, Bool.false_eq_true, if_false]
      rw [gives_bind]
      refine ⟨some first, middle, (gives_recover _ (declaration_honest bound) ..).mpr ⟨first, rfl, ?_⟩, ?_⟩
      · exact complete.declaration stop tokens middle first (by omega) declared
      rw [gives_bind]
      exact ⟨others, rest, complete.declarations inBlock stop middle rest others (by omega) ends later,
        (gives_pure ..).mpr ⟨rfl, rfl⟩⟩

theorem block_complete (close : Token) (body : List (Stmt Unit)) (complete : StmtComplete bound)
    (room : 24 * tokens.length + 23 ≤ bound + 1) (isClose : close.kind = .rightBrace)
    (derived : Builds true .declarations tokens (close :: rest) body) :
    (readBlock (bound + 1)).Gives stop tokens body rest := by
  rw [readBlock, gives_bind]
  refine ⟨body, close :: rest, complete.declarations true stop tokens _ body (by omega) ?_ derived, ?_⟩
  · exact .inr ⟨rfl, by simp [ahead_cons, isClose]⟩
  · rw [gives_expect_bind]
    exact ⟨close, rest, rfl, isClose, (gives_pure ..).mpr ⟨rfl, rfl⟩⟩

theorem stmt_complete_within (bound : Nat) : StmtComplete bound := by
  induction bound with
  | zero =>
      exact ⟨fun _ _ _ _ room => absurd room (by omega), fun _ _ _ _ _ room => absurd room (by omega),
        fun _ _ _ _ room => absurd room (by omega), fun _ _ _ _ _ room => absurd room (by omega)⟩
  | succ bound complete =>
      exact ⟨fun stop tokens rest tree => stmt_complete bound stop tokens rest tree complete,
        fun stop close tokens rest body => block_complete bound stop tokens rest close body complete,
        fun stop tokens rest tree => declaration_complete bound stop tokens rest tree complete,
        fun inBlock stop tokens rest trees => declarations_complete bound stop tokens rest inBlock trees complete⟩

end Treewalk.Grammar
