import Treewalk.Proofs.Moving
import Treewalk.Proofs.Parsing

/-!
Programs one behind the other. What was read from some tokens is read from them on other lines and with further tokens
behind, if those cannot carry it on. Only an `else` can carry on a whole program, and no program starts with one.
-/

set_option autoImplicit false

namespace Treewalk.Grammar

@[reducible] def Symbol.moved (move : Token → Token) : Symbol → Symbol
  | .expr commas => .expr commas
  | .level commas tier => .level commas tier
  | .joined commas tier left => .joined commas tier (left.moved move)
  | .operand commas tier => .operand commas tier
  | .ternary commas => .ternary commas
  | .unary => .unary
  | .calls callee => .calls (callee.moved move)
  | .arguments count => .arguments count
  | .primary => .primary

def Symbol.movedTree (move : Token → Token) : (symbol : Symbol) → symbol.Tree → (symbol.moved move).Tree
  | .expr _, tree | .level _ _, tree | .joined _ _ _, tree | .operand _ _, tree | .ternary _, tree | .unary, tree
  | .calls _, tree | .primary, tree => Expr.moved move tree
  | .arguments _, trees => Expr.movedAll move trees

def Part.movedTree (move : Token → Token) : (part : Part) → part.Tree → part.Tree
  | .statement, tree | .declaration, tree => Stmt.moved move tree
  | .declarations, trees => Stmt.movedAll move trees

section moving

variable (move : Token → Token) (keeps : KeepsText move) (more : List Token)

-- The tokens on their other lines, and what comes behind them.
def shifted (tokens : List Token) : List Token := tokens.map move ++ more

theorem join_moved (level : Level) (left right : Expr Unit) (operator : Token) :
    (level.join left operator right).moved move = level.join (left.moved move) (move operator) (right.moved move) := by
  cases level <;> rfl

theorem longer_nonempty (longer shorter : List Token) (length : shorter.length ≤ longer.length)
    (nonempty : shorter ≠ []) : longer ≠ [] := by
  intro empty
  subst empty
  exact nonempty (List.eq_nil_of_length_eq_zero (Nat.le_zero.mp length))

include keeps

theorem ahead_shifted (wanted : Kind → Bool) (rest : List Token) (nonempty : rest ≠ []) :
    Ahead wanted (shifted move more rest) ↔ Ahead wanted rest := by
  cases rest with
  | nil => exact absurd rfl nonempty
  | cons first later => simp only [shifted, List.map_cons, List.cons_append, ahead_cons, moved_kind move keeps]

theorem ends_shifted (longest : Bool) (further : Kind → Bool) (rest : List Token) (nonempty : rest ≠ [])
    (ends : Ends longest further rest) : Ends longest further (shifted move more rest) := by
  intro isLongest hit
  exact ends isLongest ((ahead_shifted move keeps more further rest nonempty).mp hit)

theorem derives_moved (longest : Bool) (symbol : Symbol) (tokens rest : List Token) (tree : symbol.Tree)
    (derived : Derives longest symbol tokens rest tree) (nonempty : rest ≠ []) :
    Derives longest (symbol.moved move) (shifted move more tokens) (shifted move more rest)
      (symbol.movedTree move tree) := by
  have kind := moved_kind move keeps
  induction derived with
  | assign commas name equals tokens rest value isName isEquals _ ih =>
      exact .assign commas _ _ _ _ _ ((kind name).trans isName) ((kind equals).trans isEquals) (ih nonempty)
  | operators commas tokens rest tree _ ends ih =>
      exact .operators commas _ _ _ (ih nonempty) (ends_shifted move keeps more longest _ rest nonempty ends)
  | level commas level tokens middle rest first tree _ others ihOperand ihOthers =>
      have within := longer_nonempty middle rest (derives_shorter _ _ _ _ _ others) nonempty
      exact .level commas level _ _ _ _ _ (ihOperand within) (ihOthers nonempty)
  | alone commas level left rest ends =>
      exact .alone commas level _ _ (ends_shifted move keeps more longest _ rest nonempty ends)
  | joined commas level left right tree operator tokens middle rest joins _ others ihOperand ihOthers =>
      have within := longer_nonempty middle rest (derives_shorter _ _ _ _ _ others) nonempty
      have later : Derives longest (.joined commas level (level.join (left.moved move) (move operator) (right.moved move)))
          (shifted move more middle) (shifted move more rest) (tree.moved move) := by
        rw [← join_moved]
        exact ihOthers nonempty
      exact .joined commas level _ _ _ _ _ _ _ (by rw [kind]; exact joins) (ihOperand within) later
  | tighter commas level below tokens rest tree next _ ih => exact .tighter commas level below _ _ _ next (ih nonempty)
  | ofSequence commas tokens rest tree _ ih => exact .ofSequence commas _ _ _ (ih nonempty)
  | ofFactor commas tokens rest tree _ ih => exact .ofFactor commas _ _ _ (ih nonempty)
  | unconditional commas tokens rest tree _ ends ih =>
      exact .unconditional commas _ _ _ (ih nonempty) (ends_shifted move keeps more longest _ rest nonempty ends)
  | conditional commas question colon tokens afterCondition afterYes rest condition yes no _ isQuestion _ isColon _
      ihTest ihYes ihNo =>
      exact .conditional commas _ _ _ _ _ _ _ _ _ (ihTest (List.cons_ne_nil _ _)) ((kind question).trans isQuestion)
        (ihYes (List.cons_ne_nil _ _)) ((kind colon).trans isColon) (ihNo nonempty)
  | signed operator tokens rest operand isSign _ ih =>
      exact .signed _ _ _ _ (by rw [kind]; exact isSign) (ih nonempty)
  | unsigned tokens middle rest callee tree _ others ihCallee ihOthers =>
      have within := longer_nonempty middle rest (derives_shorter _ _ _ _ _ others) nonempty
      exact .unsigned _ _ _ _ _ (ihCallee within) (ihOthers nonempty)
  | uncalled callee rest ends => exact .uncalled _ _ (ends_shifted move keeps more longest _ rest nonempty ends)
  | callNothing callee tree opening close tokens rest isOpening isClose _ ih =>
      exact .callNothing _ _ _ _ _ _ ((kind opening).trans isOpening) ((kind close).trans isClose) (ih nonempty)
  | call callee tree arguments opening close tokens middle rest isOpening _ isClose _ ihGiven ihOthers =>
      exact .call _ _ _ _ _ _ _ _ ((kind opening).trans isOpening) (ihGiven (List.cons_ne_nil _ _))
        ((kind close).trans isClose) (ihOthers nonempty)
  | lastArgument count tokens rest last few _ ends ih =>
      exact .lastArgument count _ _ _ few (ih nonempty) (ends_shifted move keeps more longest _ rest nonempty ends)
  | argument count comma tokens middle rest first others few _ isComma _ ihGiven ihLater =>
      exact .argument count _ _ _ _ _ _ few (ihGiven (List.cons_ne_nil _ _)) ((kind comma).trans isComma)
        (ihLater nonempty)
  | truth token rest isTrue => exact .truth _ _ ((kind token).trans isTrue)
  | falsity token rest isFalse => exact .falsity _ _ ((kind token).trans isFalse)
  | nothing token rest isNil => exact .nothing _ _ ((kind token).trans isNil)
  | literal token value rest isLiteral decoded =>
      exact .literal _ value _ (by rw [kind]; exact isLiteral) ((moved_literal move keeps token).trans decoded)
  | named token rest isName => exact .named _ _ ((kind token).trans isName)
  | group opening close tokens rest inner isOpening _ isClose ih =>
      exact .group _ _ _ _ _ ((kind opening).trans isOpening) (ih (List.cons_ne_nil _ _)) ((kind close).trans isClose)

theorem clause_moved (longest : Bool) (ending : Kind) (tokens rest : List Token) (value : Option (Expr Unit))
    (clause : IsClause longest ending tokens rest value) :
    IsClause longest ending (shifted move more tokens) (shifted move more rest) (value.map (Expr.moved move)) := by
  cases clause with
  | missing mark rest ends => exact .missing _ _ ((moved_kind move keeps mark).trans ends)
  | present mark tokens rest tree whole ends =>
      exact .present _ _ _ _ (derives_moved move keeps more longest _ _ _ _ whole (List.cons_ne_nil _ _))
        ((moved_kind move keeps mark).trans ends)

theorem condition_moved (longest : Bool) (tokens rest : List Token) (tree : Expr Unit)
    (condition : IsCondition longest tokens rest tree) :
    IsCondition longest (shifted move more tokens) (shifted move more rest) (tree.moved move) := by
  obtain ⟨opening, close, tokens, rest, tree, isOpening, whole, isClose⟩ := condition
  exact .mk _ _ _ _ _ ((moved_kind move keeps opening).trans isOpening)
    (derives_moved move keeps more longest _ _ _ _ whole (List.cons_ne_nil _ _))
    ((moved_kind move keeps close).trans isClose)

theorem variable_moved (longest : Bool) (tokens rest : List Token) (tree : Stmt Unit)
    (declared : IsVariable longest tokens rest tree) :
    IsVariable longest (shifted move more tokens) (shifted move more rest) (tree.moved move) := by
  have kind := moved_kind move keeps
  cases declared with
  | bare name semicolon rest isName ends => exact .bare _ _ _ ((kind name).trans isName) ((kind semicolon).trans ends)
  | assigned name equals semicolon tokens rest value isName isEquals whole ends =>
      exact .assigned _ _ _ _ _ _ ((kind name).trans isName) ((kind equals).trans isEquals)
        (derives_moved move keeps more longest _ _ _ _ whole (List.cons_ne_nil _ _)) ((kind semicolon).trans ends)

theorem start_moved (longest : Bool) (tokens rest : List Token) (start : Option (Stmt Unit))
    (starts : IsStart longest tokens rest start) :
    IsStart longest (shifted move more tokens) (shifted move more rest) (start.map (Stmt.moved move)) := by
  have kind := moved_kind move keeps
  cases starts with
  | nothing semicolon rest ends => exact .nothing _ _ ((kind semicolon).trans ends)
  | declared keyword tokens rest start isVar whole =>
      exact .declared _ _ _ _ ((kind keyword).trans isVar) (variable_moved move keeps more longest _ _ _ whole)
  | value semicolon tokens rest tree whole ends =>
      exact .value _ _ _ _ (derives_moved move keeps more longest _ _ _ _ whole (List.cons_ne_nil _ _))
        ((kind semicolon).trans ends)

theorem params_moved (count : Nat) (tokens rest params : List Token) (given : IsParams count tokens rest params) :
    IsParams count (shifted move more tokens) (shifted move more rest) (params.map move) := by
  have kind := moved_kind move keeps
  induction given with
  | last count name rest few isName => exact .last count _ _ few ((kind name).trans isName)
  | more count name comma tokens rest others few isName isComma _ ih =>
      exact .more count _ _ _ _ _ few ((kind name).trans isName) ((kind comma).trans isComma) ih

theorem signature_moved (tokens rest : List Token) (name : Token) (params : List Token)
    (head : IsSignature tokens rest name params) :
    IsSignature (shifted move more tokens) (shifted move more rest) (move name) (params.map move) := by
  have kind := moved_kind move keeps
  cases head with
  | none name opening close brace rest isName isOpening isClose isBrace =>
      exact .none _ _ _ _ _ ((kind name).trans isName) ((kind opening).trans isOpening) ((kind close).trans isClose)
        ((kind brace).trans isBrace)
  | some name opening close brace tokens rest params isName isOpening given isClose isBrace =>
      exact .some _ _ _ _ _ _ _ ((kind name).trans isName) ((kind opening).trans isOpening)
        (params_moved move keeps more _ _ _ _ given) ((kind close).trans isClose) ((kind brace).trans isBrace)

omit keeps in
theorem counting_moved (start : Option (Stmt Unit)) (condition step : Option (Expr Unit)) (body : Stmt Unit) :
    (Stmt.counting start condition step body).moved move =
      Stmt.counting (start.map (Stmt.moved move)) (condition.map (Expr.moved move)) (step.map (Expr.moved move))
        (body.moved move) := by
  cases start <;> cases condition <;> cases step <;> rfl

-- Behind a part that reaches the end of its tokens others may follow, unless the first is an `else`: an `if` that was
-- read without one would take it in.
theorem builds_moved (longest : Bool) (part : Part) (tokens rest : List Token) (tree : part.Tree)
    (built : Builds longest part tokens rest tree) (free : rest = [] → ¬ Ahead (· = .kwElse) more) :
    Builds longest part (shifted move more tokens) (shifted move more rest) (part.movedTree move tree) := by
  have kind := moved_kind move keeps
  induction built with
  | counting keyword opening tokens afterStart afterCondition afterStep rest start condition step body isFor isOpening
      starts tests steps _ ih =>
      have whole := Builds.counting _ _ _ _ _ _ _ _ _ _ _ ((kind keyword).trans isFor) ((kind opening).trans isOpening)
        (start_moved move keeps more longest _ _ _ starts) (clause_moved move keeps more longest _ _ _ _ tests)
        (clause_moved move keeps more longest _ _ _ _ steps) (ih free)
      rw [Part.movedTree, counting_moved]
      exact whole
  | branch keyword tokens afterCondition rest condition yes isIf tests _ ends ih =>
      have ended : Ends longest (· = .kwElse) (shifted move more rest) := by
        by_cases last : rest = []
        · subst last
          exact fun _ => free rfl
        · exact ends_shifted move keeps more longest _ rest last ends
      exact .branch _ _ _ _ _ _ ((kind keyword).trans isIf) (condition_moved move keeps more longest _ _ _ tests)
        (ih free) ended
  | branches keyword otherwise tokens afterCondition afterYes rest condition yes no isIf tests _ isElse _ ihYes ihNo =>
      exact .branches _ _ _ _ _ _ _ _ _ ((kind keyword).trans isIf) (condition_moved move keeps more longest _ _ _ tests)
        (ihYes (fun none => nomatch none)) ((kind otherwise).trans isElse) (ihNo free)
  | print keyword semicolon tokens rest value isPrint whole ends =>
      exact .print _ _ _ _ _ ((kind keyword).trans isPrint)
        (derives_moved move keeps more longest _ _ _ _ whole (List.cons_ne_nil _ _)) ((kind semicolon).trans ends)
  | ret keyword tokens rest value isReturn whole =>
      exact .ret _ _ _ _ ((kind keyword).trans isReturn) (clause_moved move keeps more longest _ _ _ _ whole)
  | loop keyword tokens afterCondition rest condition body isWhile tests _ ih =>
      exact .loop _ _ _ _ _ _ ((kind keyword).trans isWhile) (condition_moved move keeps more longest _ _ _ tests) (ih free)
  | block opening close tokens rest body isOpening _ isClose ih =>
      exact .block _ _ _ _ _ ((kind opening).trans isOpening) (ih (fun none => nomatch none)) ((kind close).trans isClose)
  | expr semicolon tokens rest value whole ends =>
      exact .expr _ _ _ _ (derives_moved move keeps more longest _ _ _ _ whole (List.cons_ne_nil _ _))
        ((kind semicolon).trans ends)
  | var keyword tokens rest tree isVar declared =>
      exact .var _ _ _ _ ((kind keyword).trans isVar) (variable_moved move keeps more longest _ _ _ declared)
  | func keyword name close tokens afterHead rest params body isFun head _ isClose ih =>
      exact .func _ _ _ _ _ _ _ _ ((kind keyword).trans isFun) (signature_moved move keeps more _ _ _ _ head)
        (ih (fun none => nomatch none)) ((kind close).trans isClose)
  | statement tokens rest tree _ ih => exact .statement _ _ _ (ih free)
  | none rest => exact .none _
  | more tokens middle rest first others _ later ihFirst ihLater =>
      have within : middle = [] → ¬ Ahead (· = .kwElse) more := by
        intro none
        have shorter : rest.length ≤ middle.length := builds_shorter _ _ _ _ _ later
        rw [none] at shorter
        exact free (List.eq_nil_of_length_eq_zero (Nat.le_zero.mp shorter))
      exact .more _ _ _ _ _ (ihFirst within) (ihLater free)

end moving

-- Declarations go on where others ended.
theorem builds_append (longest : Bool) (middle rest : List Token) (first second : List (Stmt Unit)) :
    ∀ tokens : List Token, Builds longest .declarations tokens middle first →
    Builds longest .declarations middle rest second → Builds longest .declarations tokens rest (first ++ second) := by
  induction first with
  | nil =>
      intro tokens early late
      cases early
      exact late
  | cons tree others ih =>
      intro tokens early late
      cases early with
      | more tokens between middle tree others declared later =>
          exact .more _ _ _ _ _ declared (ih between later late)

theorem program_starts (longest : Bool) (tokens : List Token) (program : List (Stmt Unit))
    (whole : IsProgram longest tokens program) : tokens = [] ∨ Ahead startsDeclaration tokens := by
  cases whole with
  | none => exact .inl rfl
  | more tokens middle rest first others declared later => exact .inr (builds_starts _ _ _ _ _ declared)

-- The tokens of two programs, the second one on other lines, are the two programs one behind the other.
theorem isProgram_append (longest : Bool) (move : Token → Token) (keeps : KeepsText move) (tokens later : List Token)
    (first second : List (Stmt Unit)) (early : IsProgram longest tokens first) (late : IsProgram longest later second) :
    IsProgram longest (tokens ++ later.map move) (first ++ Stmt.movedAll move second) := by
  have moved : IsProgram longest (later.map move) (Stmt.movedAll move second) := by
    have alone := builds_moved move keeps [] longest _ _ _ _ late (fun _ => not_ahead_nil _)
    rw [shifted, shifted, List.append_nil] at alone
    exact alone
  have started : ¬ Ahead (· = .kwElse) (later.map move) := by
    rcases program_starts longest _ _ moved with none | ahead
    · rw [none]
      exact not_ahead_nil _
    · refine ahead_excludes startsDeclaration _ _ ahead ?_
      intro kind starts isElse
      have same : kind = .kwElse := by simpa using isElse
      subst same
      cases starts
  have followed := builds_moved id keepsText_id (later.map move) longest _ _ _ _ early (fun _ => started)
  simp only [shifted, List.map_id, List.nil_append, Part.movedTree, Stmt.movedAll_id] at followed
  exact builds_append longest _ _ _ _ _ followed moved

end Treewalk.Grammar
