import Treewalk.Proofs.Ambiguity

/-!
A program of the plain grammar also has a longest derivation. The plain grammar leaves open which of several
`if`s an `else` belongs to; in the longest derivation it goes to the nearest one that has none.
-/

set_option autoImplicit false

namespace Treewalk.Grammar

-- What holds no statement of its own, from longest to plain and back.

theorem clause_weaken (longest : Bool) (ending : Kind) (tokens rest : List Token) (clause : Option (Expr Unit))
    (derived : IsClause longest ending tokens rest clause) : IsClause false ending tokens rest clause := by
  cases derived with
  | missing mark _ ends => exact .missing mark rest ends
  | present mark _ _ tree whole ends => exact .present mark tokens rest tree (derives_weaken _ _ _ _ _ whole) ends

theorem condition_weaken (longest : Bool) (tokens rest : List Token) (tree : Expr Unit)
    (derived : IsCondition longest tokens rest tree) : IsCondition false tokens rest tree := by
  cases derived with
  | mk opening close inner _ _ isOpening whole isClose =>
      exact .mk opening close inner rest tree isOpening (derives_weaken _ _ _ _ _ whole) isClose

theorem variable_weaken (longest : Bool) (tokens rest : List Token) (tree : Stmt Unit)
    (derived : IsVariable longest tokens rest tree) : IsVariable false tokens rest tree := by
  cases derived with
  | bare name semicolon _ isName ends => exact .bare name semicolon rest isName ends
  | assigned name equals semicolon inner _ value isName isEquals whole ends =>
      exact .assigned name equals semicolon inner rest value isName isEquals (derives_weaken _ _ _ _ _ whole) ends

theorem start_weaken (longest : Bool) (tokens rest : List Token) (start : Option (Stmt Unit))
    (derived : IsStart longest tokens rest start) : IsStart false tokens rest start := by
  cases derived with
  | nothing semicolon _ ends => exact .nothing semicolon rest ends
  | declared keyword inner _ tree isVar whole =>
      exact .declared keyword inner rest tree isVar (variable_weaken _ _ _ _ whole)
  | value semicolon _ _ tree whole ends =>
      exact .value semicolon tokens rest tree (derives_weaken _ _ _ _ _ whole) ends

theorem builds_weaken (longest : Bool) (part : Part) (tokens rest : List Token) (tree : part.Tree)
    (built : Builds longest part tokens rest tree) : Builds false part tokens rest tree := by
  induction built with
  | counting _ _ _ _ _ _ _ _ _ _ _ isFor isOpening starts tests steps _ ih =>
      exact .counting _ _ _ _ _ _ _ _ _ _ _ isFor isOpening (start_weaken _ _ _ _ starts)
        (clause_weaken _ _ _ _ _ tests) (clause_weaken _ _ _ _ _ steps) ih
  | branch _ _ _ _ _ _ isIf tests _ _ ih =>
      exact .branch _ _ _ _ _ _ isIf (condition_weaken _ _ _ _ tests) ih (ends_plain _ _)
  | branches _ _ _ _ _ _ _ _ _ isIf tests _ isElse _ ihYes ihNo =>
      exact .branches _ _ _ _ _ _ _ _ _ isIf (condition_weaken _ _ _ _ tests) ihYes isElse ihNo
  | print _ _ _ _ _ isPrint whole ends => exact .print _ _ _ _ _ isPrint (derives_weaken _ _ _ _ _ whole) ends
  | ret _ _ _ _ isReturn whole => exact .ret _ _ _ _ isReturn (clause_weaken _ _ _ _ _ whole)
  | loop _ _ _ _ _ _ isWhile tests _ ih => exact .loop _ _ _ _ _ _ isWhile (condition_weaken _ _ _ _ tests) ih
  | block _ _ _ _ _ isOpening _ isClose ih => exact .block _ _ _ _ _ isOpening ih isClose
  | expr _ _ _ _ whole ends => exact .expr _ _ _ _ (derives_weaken _ _ _ _ _ whole) ends
  | var _ _ _ _ isVar declared => exact .var _ _ _ _ isVar (variable_weaken _ _ _ _ declared)
  | func _ _ _ _ _ _ _ _ isFun head _ isClose ih => exact .func _ _ _ _ _ _ _ _ isFun head ih isClose
  | statement _ _ _ _ ih => exact .statement _ _ _ ih
  | none rest => exact .none rest
  | more _ _ _ _ _ _ _ ihFirst ihLater => exact .more _ _ _ _ _ ihFirst ihLater

-- Only these kinds stand behind an expression in a statement, and none carries it on.
theorem derives_before (mark : Token) (tokens rest : List Token) (tree : Expr Unit)
    (derived : IsExpr false tokens (mark :: rest) tree)
    (ends : mark.kind = .semicolon ∨ mark.kind = .rightParen) : ∃ tree, IsExpr true tokens (mark :: rest) tree := by
  refine expr_completes true tokens (mark :: rest) (derives_extends _ _ _ _ derived) ?_
  rcases ends with isMark | isMark <;>
    simp [ahead_cons, carriesOn, separates, extendsLevel, extendsOperand, Level.joins, isMark]

theorem clause_longest (ending : Kind) (tokens rest : List Token) (clause : Option (Expr Unit))
    (isEnding : ending = .semicolon ∨ ending = .rightParen) (derived : IsClause false ending tokens rest clause) :
    ∃ clause, IsClause true ending tokens rest clause := by
  cases derived with
  | missing mark _ ends => exact ⟨none, .missing mark rest ends⟩
  | present mark _ _ _ whole ends =>
      obtain ⟨tree, whole⟩ := derives_before mark tokens rest _ whole (ends ▸ isEnding)
      exact ⟨some tree, .present mark tokens rest tree whole ends⟩

theorem condition_longest (tokens rest : List Token) (tree : Expr Unit)
    (derived : IsCondition false tokens rest tree) : ∃ tree, IsCondition true tokens rest tree := by
  cases derived with
  | mk opening close inner _ _ isOpening whole isClose =>
      obtain ⟨tree, whole⟩ := derives_before close inner rest _ whole (.inr isClose)
      exact ⟨tree, .mk opening close inner rest tree isOpening whole isClose⟩

theorem variable_longest (tokens rest : List Token) (tree : Stmt Unit)
    (derived : IsVariable false tokens rest tree) : ∃ tree, IsVariable true tokens rest tree := by
  cases derived with
  | bare name semicolon _ isName ends => exact ⟨_, .bare name semicolon rest isName ends⟩
  | assigned name equals semicolon inner _ _ isName isEquals whole ends =>
      obtain ⟨value, whole⟩ := derives_before semicolon inner rest _ whole (.inl ends)
      exact ⟨_, .assigned name equals semicolon inner rest value isName isEquals whole ends⟩

theorem start_longest (tokens rest : List Token) (start : Option (Stmt Unit))
    (derived : IsStart false tokens rest start) : ∃ start, IsStart true tokens rest start := by
  cases derived with
  | nothing semicolon _ ends => exact ⟨none, .nothing semicolon rest ends⟩
  | declared keyword inner _ _ isVar whole =>
      obtain ⟨tree, whole⟩ := variable_longest inner rest _ whole
      exact ⟨some tree, .declared keyword inner rest tree isVar whole⟩
  | value semicolon _ _ _ whole ends =>
      obtain ⟨tree, whole⟩ := derives_before semicolon tokens rest _ whole (.inl ends)
      exact ⟨_, .value semicolon tokens rest tree whole ends⟩

-- A statement whose right edge has `openIfs` branches without an `else`, everything else being longest.
inductive Spine : Nat → List Token → List Token → Prop where
  | whole (tokens rest : List Token) (tree : Stmt Unit) (built : Builds true .statement tokens rest tree) :
      Spine 0 tokens rest
  | branch (openIfs : Nat) (keyword : Token) (tokens afterCondition rest : List Token) (condition : Expr Unit)
      (isIf : keyword.kind = .kwIf) (tests : IsCondition true tokens afterCondition condition)
      (chosen : Spine openIfs afterCondition rest) : Spine (openIfs + 1) (keyword :: tokens) rest
  | branches (openIfs : Nat) (keyword otherwise : Token) (tokens afterCondition afterYes rest : List Token)
      (condition : Expr Unit) (yes : Stmt Unit) (isIf : keyword.kind = .kwIf)
      (tests : IsCondition true tokens afterCondition condition)
      (chosen : Builds true .statement afterCondition (otherwise :: afterYes) yes)
      (isElse : otherwise.kind = .kwElse) (unchosen : Spine openIfs afterYes rest) :
      Spine openIfs (keyword :: tokens) rest
  | loop (openIfs : Nat) (keyword : Token) (tokens afterCondition rest : List Token) (condition : Expr Unit)
      (isWhile : keyword.kind = .kwWhile) (tests : IsCondition true tokens afterCondition condition)
      (repeated : Spine openIfs afterCondition rest) : Spine openIfs (keyword :: tokens) rest
  | counting (openIfs : Nat) (keyword opening : Token)
      (tokens afterStart afterCondition afterStep rest : List Token) (start : Option (Stmt Unit))
      (condition step : Option (Expr Unit)) (isFor : keyword.kind = .kwFor) (isOpening : opening.kind = .leftParen)
      (starts : IsStart true tokens afterStart start)
      (tests : IsClause true .semicolon afterStart afterCondition condition)
      (steps : IsClause true .rightParen afterCondition afterStep step)
      (repeated : Spine openIfs afterStep rest) : Spine openIfs (keyword :: opening :: tokens) rest

-- Where no `else` follows, or no branch waits for one, the statement is longest as it stands.
theorem spine_built (openIfs : Nat) (tokens rest : List Token) (spine : Spine openIfs tokens rest)
    (ends : openIfs = 0 ∨ ¬ Ahead (· = .kwElse) rest) : ∃ tree, Builds true .statement tokens rest tree := by
  induction spine with
  | whole tokens rest tree built => exact ⟨tree, built⟩
  | branch openIfs keyword tokens afterCondition rest condition isIf tests _ ih =>
      have noElse : ¬ Ahead (· = .kwElse) rest := ends.resolve_left (Nat.succ_ne_zero openIfs)
      obtain ⟨yes, chosen⟩ := ih (.inr noElse)
      exact ⟨_, .branch keyword tokens afterCondition rest condition yes isIf tests chosen (fun _ => noElse)⟩
  | branches _ keyword otherwise tokens afterCondition afterYes rest condition yes isIf tests chosen isElse _ ih =>
      obtain ⟨no, unchosen⟩ := ih ends
      exact ⟨_, .branches keyword otherwise tokens afterCondition afterYes rest condition yes no isIf tests chosen
        isElse unchosen⟩
  | loop _ keyword tokens afterCondition rest condition isWhile tests _ ih =>
      obtain ⟨body, repeated⟩ := ih ends
      exact ⟨_, .loop keyword tokens afterCondition rest condition body isWhile tests repeated⟩
  | counting _ keyword opening tokens afterStart afterCondition afterStep rest start condition step isFor isOpening
      starts tests steps _ ih =>
      obtain ⟨body, repeated⟩ := ih ends
      exact ⟨_, .counting keyword opening tokens afterStart afterCondition afterStep rest start condition step body
        isFor isOpening starts tests steps repeated⟩

-- An `else` behind a statement with open branches goes to the innermost of them.
theorem spine_absorbs (openIfs more : Nat) (otherwise : Token) (tokens before middle rest : List Token)
    (spine : Spine openIfs tokens before) (next : before = otherwise :: middle) (waits : 0 < openIfs)
    (isElse : otherwise.kind = .kwElse) (unchosen : Spine more middle rest) :
    Spine (openIfs - 1 + more) tokens rest := by
  induction spine with
  | whole => exact absurd waits (Nat.lt_irrefl 0)
  | branch openIfs keyword tokens afterCondition before condition isIf tests chosen ih =>
      subst next
      rcases Nat.eq_zero_or_pos openIfs with rfl | inner
      · obtain ⟨yes, built⟩ := spine_built 0 afterCondition (otherwise :: middle) chosen (.inl rfl)
        have joined := Spine.branches more keyword otherwise tokens afterCondition middle rest condition yes isIf tests
          built isElse unchosen
        simpa using joined
      · have joined := Spine.branch _ keyword tokens afterCondition rest condition isIf tests (ih rfl inner)
        have count : openIfs - 1 + more + 1 = openIfs + 1 - 1 + more := by omega
        exact count ▸ joined
  | branches _ keyword first tokens afterCondition afterYes before condition yes isIf tests chosen isFirst _ ih =>
      exact .branches _ keyword first tokens afterCondition afterYes rest condition yes isIf tests chosen isFirst
        (ih next waits)
  | loop _ keyword tokens afterCondition before condition isWhile tests _ ih =>
      exact .loop _ keyword tokens afterCondition rest condition isWhile tests (ih next waits)
  | counting _ keyword opening tokens afterStart afterCondition afterStep before start condition step isFor isOpening
      starts tests steps _ ih =>
      exact .counting _ keyword opening tokens afterStart afterCondition afterStep rest start condition step isFor
        isOpening starts tests steps (ih next waits)

def Part.Completes (tokens rest : List Token) : Part → Prop
  | .statement => ∃ openIfs, Spine openIfs tokens rest
  | .declaration => ¬ Ahead (· = .kwElse) rest → ∃ tree, Builds true .declaration tokens rest tree
  | .declarations => ¬ Ahead (· = .kwElse) rest → ∃ trees, Builds true .declarations tokens rest trees

theorem branches_completes (keyword otherwise : Token) (tokens afterCondition afterYes rest : List Token)
    (condition : Expr Unit) (isIf : keyword.kind = .kwIf) (tests : IsCondition true tokens afterCondition condition)
    (isElse : otherwise.kind = .kwElse) (ihYes : Part.statement.Completes afterCondition (otherwise :: afterYes))
    (ihNo : Part.statement.Completes afterYes rest) : Part.statement.Completes (keyword :: tokens) rest := by
  obtain ⟨inYes, chosen⟩ := ihYes
  obtain ⟨inNo, unchosen⟩ := ihNo
  rcases Nat.eq_zero_or_pos inYes with rfl | waits
  · obtain ⟨yes, built⟩ := spine_built 0 afterCondition (otherwise :: afterYes) chosen (.inl rfl)
    exact ⟨inNo, .branches inNo keyword otherwise tokens afterCondition afterYes rest condition yes isIf tests built
      isElse unchosen⟩
  · exact ⟨_, .branch _ keyword tokens afterCondition rest condition isIf tests
      (spine_absorbs inYes inNo otherwise afterCondition _ afterYes rest chosen rfl waits isElse unchosen)⟩

theorem not_else_between (tokens rest : List Token) (trees : List (Stmt Unit))
    (later : Builds false .declarations tokens rest trees) (ends : ¬ Ahead (· = .kwElse) rest) :
    ¬ Ahead (· = .kwElse) tokens := by
  cases later with
  | none => exact ends
  | more _ _ _ _ _ declared _ =>
      refine ahead_excludes _ _ tokens (builds_starts false .declaration tokens _ _ declared) ?_
      intro kind starts
      cases kind <;> simp_all [startsDeclaration, startsStmt, startsExpr, startsPrimary]

theorem builds_completes (part : Part) (tokens rest : List Token) (tree : part.Tree)
    (built : Builds false part tokens rest tree) : part.Completes tokens rest := by
  induction built with
  | counting keyword opening tokens afterStart afterCondition afterStep rest _ _ _ _ isFor isOpening starts tests steps _
      ih =>
      obtain ⟨start, starts⟩ := start_longest tokens afterStart _ starts
      obtain ⟨condition, tests⟩ := clause_longest .semicolon afterStart afterCondition _ (.inl rfl) tests
      obtain ⟨step, steps⟩ := clause_longest .rightParen afterCondition afterStep _ (.inr rfl) steps
      obtain ⟨openIfs, repeated⟩ := ih
      exact ⟨openIfs, .counting openIfs keyword opening tokens afterStart afterCondition afterStep rest start condition
        step isFor isOpening starts tests steps repeated⟩
  | branch keyword tokens afterCondition rest _ _ isIf tests _ _ ih =>
      obtain ⟨condition, tests⟩ := condition_longest tokens afterCondition _ tests
      obtain ⟨openIfs, chosen⟩ := ih
      exact ⟨openIfs + 1, .branch openIfs keyword tokens afterCondition rest condition isIf tests chosen⟩
  | branches keyword otherwise tokens afterCondition afterYes rest _ _ _ isIf tests _ isElse _ ihYes ihNo =>
      obtain ⟨condition, tests⟩ := condition_longest tokens afterCondition _ tests
      exact branches_completes keyword otherwise tokens afterCondition afterYes rest condition isIf tests isElse ihYes
        ihNo
  | print keyword semicolon tokens rest _ isPrint whole ends =>
      obtain ⟨value, whole⟩ := derives_before semicolon tokens rest _ whole (.inl ends)
      exact ⟨0, .whole _ _ _ (.print keyword semicolon tokens rest value isPrint whole ends)⟩
  | ret keyword tokens rest _ isReturn whole =>
      obtain ⟨value, whole⟩ := clause_longest .semicolon tokens rest _ (.inl rfl) whole
      exact ⟨0, .whole _ _ _ (.ret keyword tokens rest value isReturn whole)⟩
  | loop keyword tokens afterCondition rest _ _ isWhile tests _ ih =>
      obtain ⟨condition, tests⟩ := condition_longest tokens afterCondition _ tests
      obtain ⟨openIfs, repeated⟩ := ih
      exact ⟨openIfs, .loop openIfs keyword tokens afterCondition rest condition isWhile tests repeated⟩
  | block opening close tokens rest _ isOpening _ isClose ih =>
      obtain ⟨body, inner⟩ := ih (by simp [ahead_cons, isClose])
      exact ⟨0, .whole _ _ _ (.block opening close tokens rest body isOpening inner isClose)⟩
  | expr semicolon tokens rest _ whole ends =>
      obtain ⟨value, whole⟩ := derives_before semicolon tokens rest _ whole (.inl ends)
      exact ⟨0, .whole _ _ _ (.expr semicolon tokens rest value whole ends)⟩
  | var keyword tokens rest _ isVar declared =>
      intro _
      obtain ⟨tree, declared⟩ := variable_longest tokens rest _ declared
      exact ⟨tree, .var keyword tokens rest tree isVar declared⟩
  | func keyword name close tokens afterHead rest params _ isFun head _ isClose ih =>
      intro _
      obtain ⟨body, inner⟩ := ih (by simp [ahead_cons, isClose])
      exact ⟨_, .func keyword name close tokens afterHead rest params body isFun head inner isClose⟩
  | statement tokens rest _ _ ih =>
      intro ends
      obtain ⟨openIfs, spine⟩ := ih
      obtain ⟨tree, built⟩ := spine_built openIfs tokens rest spine (.inr ends)
      exact ⟨tree, .statement tokens rest tree built⟩
  | none rest => exact fun _ => ⟨[], .none rest⟩
  | more tokens middle rest _ _ _ later ihFirst ihLater =>
      intro ends
      obtain ⟨first, declared⟩ := ihFirst (not_else_between middle rest _ later ends)
      obtain ⟨others, built⟩ := ihLater ends
      exact ⟨first :: others, .more tokens middle rest first others declared built⟩

-- The plain and the longest derivations cover the same token lists.

theorem isProgram_longest_iff (tokens : List Token) :
    (∃ program, IsProgram false tokens program) ↔ ∃ program, IsProgram true tokens program := by
  constructor
  · rintro ⟨program, built⟩
    exact builds_completes .declarations tokens [] program built (not_ahead_nil _)
  · rintro ⟨program, built⟩
    exact ⟨program, builds_weaken true .declarations tokens [] program built⟩

theorem isWhole_longest_iff (tokens : List Token) :
    (∃ tree, IsWhole false tokens tree) ↔ ∃ tree, IsWhole true tokens tree := by
  constructor
  · rintro ⟨tree, derived⟩
    exact expr_completes true tokens [] (derives_extends _ _ _ _ derived) (not_ahead_nil _)
  · rintro ⟨tree, derived⟩
    exact ⟨tree, derives_weaken true (.expr true) tokens [] tree derived⟩

end Treewalk.Grammar
