import Mathlib.Data.List.Forall2
import Treewalk.Proofs.Moving
import Treewalk.Proofs.Operators

/-!
Code that stands on different lines in two runs, or has other numbers for its uses of names. A pairing says which tokens
stand for each other and which numbers do. Trees, values and frames are paired if they are the same but for that.
-/

set_option autoImplicit false

namespace Treewalk

variable {ν : Type}

-- All tokens of a tree, with operators, marks and keywords.
mutual
def Expr.tokens : Expr ν → List Token
  | .literal _ => []
  | .group inner => inner.tokens
  | .unary operator operand => operator :: operand.tokens
  | .binary left operator right => left.tokens ++ operator :: right.tokens
  | .logical left operator right => left.tokens ++ operator :: right.tokens
  | .ternary condition yes no => condition.tokens ++ yes.tokens ++ no.tokens
  | .comma first second => first.tokens ++ second.tokens
  | .var _ name => [name]
  | .assign _ name value => name :: value.tokens
  | .call callee close arguments => callee.tokens ++ close :: Expr.tokensAll arguments
def Expr.tokensAll : List (Expr ν) → List Token
  | [] => []
  | first :: rest => first.tokens ++ Expr.tokensAll rest
end

def Expr.tokensOption : Option (Expr ν) → List Token
  | none => []
  | some value => value.tokens

mutual
def Stmt.tokens : Stmt ν → List Token
  | .ret keyword value => keyword :: Expr.tokensOption value
  | .print keyword value => keyword :: value.tokens
  | .expr value => value.tokens
  | .var name value => name :: Expr.tokensOption value
  | .block body => Stmt.tokensAll body
  | .func name params body => name :: params ++ Stmt.tokensAll body
  | .branch condition yes none => condition.tokens ++ yes.tokens
  | .branch condition yes (some no) => condition.tokens ++ yes.tokens ++ no.tokens
  | .loop condition body => condition.tokens ++ body.tokens
def Stmt.tokensAll : List (Stmt ν) → List Token
  | [] => []
  | first :: rest => first.tokens ++ Stmt.tokensAll rest
end

-- Numbers are no tokens.

mutual
theorem Expr.tokens_strip : (expr : Expr ν) → expr.strip.tokens = expr.tokens
  | .literal _ => rfl
  | .group inner => Expr.tokens_strip inner
  | .unary _ operand => by simp only [Expr.strip, Expr.tokens, Expr.tokens_strip operand]
  | .binary left _ right => by simp only [Expr.strip, Expr.tokens, Expr.tokens_strip left, Expr.tokens_strip right]
  | .logical left _ right => by simp only [Expr.strip, Expr.tokens, Expr.tokens_strip left, Expr.tokens_strip right]
  | .ternary condition yes no => by
      simp only [Expr.strip, Expr.tokens, Expr.tokens_strip condition, Expr.tokens_strip yes, Expr.tokens_strip no]
  | .comma first second => by simp only [Expr.strip, Expr.tokens, Expr.tokens_strip first, Expr.tokens_strip second]
  | .var _ _ => rfl
  | .assign _ _ value => by simp only [Expr.strip, Expr.tokens, Expr.tokens_strip value]
  | .call callee _ arguments => by
      simp only [Expr.strip, Expr.tokens, Expr.tokens_strip callee, Expr.tokensAll_strip arguments]
theorem Expr.tokensAll_strip : (exprs : List (Expr ν)) → Expr.tokensAll (Expr.stripAll exprs) = Expr.tokensAll exprs
  | [] => rfl
  | first :: rest => by
      simp only [Expr.stripAll, Expr.tokensAll, Expr.tokens_strip first, Expr.tokensAll_strip rest]
end

theorem Expr.tokensOption_strip (value : Option (Expr ν)) :
    Expr.tokensOption (value.map Expr.strip) = Expr.tokensOption value := by
  cases value with
  | none => rfl
  | some value => exact Expr.tokens_strip value

mutual
theorem Stmt.tokens_strip : (stmt : Stmt ν) → stmt.strip.tokens = stmt.tokens
  | .ret _ value => by simp only [Stmt.strip, Stmt.tokens, Expr.tokensOption_strip]
  | .print _ value => by simp only [Stmt.strip, Stmt.tokens, Expr.tokens_strip]
  | .expr value => Expr.tokens_strip value
  | .var _ value => by simp only [Stmt.strip, Stmt.tokens, Expr.tokensOption_strip]
  | .block body => Stmt.tokensAll_strip body
  | .func _ _ body => by simp only [Stmt.strip, Stmt.tokens, Stmt.tokensAll_strip body]
  | .branch condition yes none => by simp only [Stmt.strip, Stmt.tokens, Expr.tokens_strip, Stmt.tokens_strip yes]
  | .branch condition yes (some no) => by
      simp only [Stmt.strip, Stmt.tokens, Expr.tokens_strip, Stmt.tokens_strip yes, Stmt.tokens_strip no]
  | .loop condition body => by simp only [Stmt.strip, Stmt.tokens, Expr.tokens_strip, Stmt.tokens_strip body]
theorem Stmt.tokensAll_strip : (stmts : List (Stmt ν)) → Stmt.tokensAll (Stmt.stripAll stmts) = Stmt.tokensAll stmts
  | [] => rfl
  | first :: rest => by
      simp only [Stmt.stripAll, Stmt.tokensAll, Stmt.tokens_strip first, Stmt.tokensAll_strip rest]
end

namespace Paired

structure Pairing where
  tokens : Token → Token → Prop
  labels : NodeId → NodeId → Prop
  kinds : ∀ token other, tokens token other → token.kind = other.kind
  lexemes : ∀ token other, tokens token other → token.lexeme = other.lexeme

variable (pairing : Pairing)

mutual
inductive ExprPair : Expr NodeId → Expr NodeId → Prop where
  | literal (value : Datum) : ExprPair (.literal value) (.literal value)
  | group (inner inner' : Expr NodeId) (whole : ExprPair inner inner') : ExprPair (.group inner) (.group inner')
  | unary (operator operator' : Token) (operand operand' : Expr NodeId) (operators : pairing.tokens operator operator')
      (operands : ExprPair operand operand') : ExprPair (.unary operator operand) (.unary operator' operand')
  | binary (operator operator' : Token) (left left' right right' : Expr NodeId)
      (operators : pairing.tokens operator operator') (lefts : ExprPair left left') (rights : ExprPair right right') :
      ExprPair (.binary left operator right) (.binary left' operator' right')
  | logical (operator operator' : Token) (left left' right right' : Expr NodeId)
      (operators : pairing.tokens operator operator') (lefts : ExprPair left left') (rights : ExprPair right right') :
      ExprPair (.logical left operator right) (.logical left' operator' right')
  | ternary (condition condition' yes yes' no no' : Expr NodeId) (conditions : ExprPair condition condition')
      (chosen : ExprPair yes yes') (unchosen : ExprPair no no') :
      ExprPair (.ternary condition yes no) (.ternary condition' yes' no')
  | comma (first first' second second' : Expr NodeId) (firsts : ExprPair first first')
      (seconds : ExprPair second second') : ExprPair (.comma first second) (.comma first' second')
  | var (label label' : NodeId) (name name' : Token) (labels : pairing.labels label label')
      (names : pairing.tokens name name') : ExprPair (.var label name) (.var label' name')
  | assign (label label' : NodeId) (name name' : Token) (value value' : Expr NodeId)
      (labels : pairing.labels label label') (names : pairing.tokens name name') (values : ExprPair value value') :
      ExprPair (.assign label name value) (.assign label' name' value')
  | call (callee callee' : Expr NodeId) (close close' : Token) (arguments arguments' : List (Expr NodeId))
      (callees : ExprPair callee callee') (closes : pairing.tokens close close')
      (given : ExprPairAll arguments arguments') :
      ExprPair (.call callee close arguments) (.call callee' close' arguments')
inductive ExprPairAll : List (Expr NodeId) → List (Expr NodeId) → Prop where
  | nil : ExprPairAll [] []
  | cons (first first' : Expr NodeId) (rest rest' : List (Expr NodeId)) (firsts : ExprPair first first')
      (others : ExprPairAll rest rest') : ExprPairAll (first :: rest) (first' :: rest')
end

mutual
inductive StmtPair : Stmt NodeId → Stmt NodeId → Prop where
  | leave (keyword keyword' : Token) : StmtPair (.ret keyword none) (.ret keyword' none)
  | ret (keyword keyword' : Token) (value value' : Expr NodeId) (values : ExprPair pairing value value') :
      StmtPair (.ret keyword (some value)) (.ret keyword' (some value'))
  | print (keyword keyword' : Token) (value value' : Expr NodeId) (keywords : pairing.tokens keyword keyword')
      (values : ExprPair pairing value value') : StmtPair (.print keyword value) (.print keyword' value')
  | expr (value value' : Expr NodeId) (values : ExprPair pairing value value') : StmtPair (.expr value) (.expr value')
  | declare (name name' : Token) (names : pairing.tokens name name') : StmtPair (.var name none) (.var name' none)
  | var (name name' : Token) (value value' : Expr NodeId) (names : pairing.tokens name name')
      (values : ExprPair pairing value value') : StmtPair (.var name (some value)) (.var name' (some value'))
  | block (body body' : List (Stmt NodeId)) (bodies : StmtPairAll body body') : StmtPair (.block body) (.block body')
  | func (name name' : Token) (params params' : List Token) (body body' : List (Stmt NodeId))
      (names : pairing.tokens name name') (parameters : List.Forall₂ pairing.tokens params params')
      (bodies : StmtPairAll body body') : StmtPair (.func name params body) (.func name' params' body')
  | branch (condition condition' : Expr NodeId) (yes yes' : Stmt NodeId)
      (conditions : ExprPair pairing condition condition') (chosen : StmtPair yes yes') :
      StmtPair (.branch condition yes none) (.branch condition' yes' none)
  | branches (condition condition' : Expr NodeId) (yes yes' no no' : Stmt NodeId)
      (conditions : ExprPair pairing condition condition') (chosen : StmtPair yes yes') (unchosen : StmtPair no no') :
      StmtPair (.branch condition yes (some no)) (.branch condition' yes' (some no'))
  | loop (condition condition' : Expr NodeId) (body body' : Stmt NodeId)
      (conditions : ExprPair pairing condition condition') (bodies : StmtPair body body') :
      StmtPair (.loop condition body) (.loop condition' body')
inductive StmtPairAll : List (Stmt NodeId) → List (Stmt NodeId) → Prop where
  | nil : StmtPairAll [] []
  | cons (first first' : Stmt NodeId) (rest rest' : List (Stmt NodeId)) (firsts : StmtPair first first')
      (others : StmtPairAll rest rest') : StmtPairAll (first :: rest) (first' :: rest')
end

-- Code is paired with itself on other lines, if its tokens are and its numbers stand for themselves.

section moved

variable (move : Token → Token)

mutual
theorem exprPair_moved : (expr : Expr NodeId) → (∀ token ∈ expr.tokens, pairing.tokens token (move token)) →
    (∀ use ∈ expr.uses, pairing.labels use.label use.label) → ExprPair pairing expr (expr.moved move)
  | .literal value, _, _ => .literal value
  | .group inner, paired, known => .group _ _ (exprPair_moved inner paired known)
  | .unary operator operand, paired, known => by
      simp only [Expr.tokens, List.forall_mem_cons] at paired
      exact .unary _ _ _ _ paired.1 (exprPair_moved operand paired.2 known)
  | .binary left operator right, paired, known => by
      simp only [Expr.tokens, Expr.uses, List.forall_mem_append, List.forall_mem_cons] at paired known
      exact .binary _ _ _ _ _ _ paired.2.1 (exprPair_moved left paired.1 known.1)
        (exprPair_moved right paired.2.2 known.2)
  | .logical left operator right, paired, known => by
      simp only [Expr.tokens, Expr.uses, List.forall_mem_append, List.forall_mem_cons] at paired known
      exact .logical _ _ _ _ _ _ paired.2.1 (exprPair_moved left paired.1 known.1)
        (exprPair_moved right paired.2.2 known.2)
  | .ternary condition yes no, paired, known => by
      simp only [Expr.tokens, Expr.uses, List.forall_mem_append] at paired known
      exact .ternary _ _ _ _ _ _ (exprPair_moved condition paired.1.1 known.1.1)
        (exprPair_moved yes paired.1.2 known.1.2) (exprPair_moved no paired.2 known.2)
  | .comma first second, paired, known => by
      simp only [Expr.tokens, Expr.uses, List.forall_mem_append] at paired known
      exact .comma _ _ _ _ (exprPair_moved first paired.1 known.1) (exprPair_moved second paired.2 known.2)
  | .var label name, paired, known =>
      .var label label _ _ (known _ List.mem_cons_self) (paired _ List.mem_cons_self)
  | .assign label name value, paired, known => by
      simp only [Expr.tokens, Expr.uses, List.forall_mem_append, List.forall_mem_cons] at paired known
      exact .assign label label _ _ _ _ known.2.1 paired.1 (exprPair_moved value paired.2 known.1)
  | .call callee close arguments, paired, known => by
      simp only [Expr.tokens, Expr.uses, List.forall_mem_append, List.forall_mem_cons] at paired known
      exact .call _ _ _ _ _ _ (exprPair_moved callee paired.1 known.1) paired.2.1
        (exprPairAll_moved arguments paired.2.2 known.2)
theorem exprPairAll_moved : (exprs : List (Expr NodeId)) →
    (∀ token ∈ Expr.tokensAll exprs, pairing.tokens token (move token)) →
    (∀ use ∈ Expr.usesAll exprs, pairing.labels use.label use.label) → ExprPairAll pairing exprs (Expr.movedAll move exprs)
  | [], _, _ => .nil
  | first :: rest, paired, known => by
      simp only [Expr.tokensAll, Expr.usesAll, List.forall_mem_append] at paired known
      exact .cons _ _ _ _ (exprPair_moved first paired.1 known.1) (exprPairAll_moved rest paired.2 known.2)
end

-- All uses among the mentions have numbers that stand for themselves.
def KnownAmong (mentions : List (Mention NodeId)) : Prop :=
  ∀ mention ∈ mentions, ∀ label ∈ mention.labels, pairing.labels label label

theorem knownAmong_uses (uses : List (Use NodeId)) (scopes : List Scope)
    (known : KnownAmong pairing (uses.map (Mention.use · scopes))) :
    ∀ use ∈ uses, pairing.labels use.label use.label := by
  intro use inside
  exact known _ (List.mem_map.mpr ⟨use, inside, rfl⟩) use.label List.mem_cons_self

theorem knownAmong_append (before after : List (Mention NodeId)) (known : KnownAmong pairing (before ++ after)) :
    KnownAmong pairing before ∧ KnownAmong pairing after := by
  simp only [KnownAmong, List.forall_mem_append] at known
  exact known

theorem knownAmong_cons (first : Mention NodeId) (rest : List (Mention NodeId))
    (known : KnownAmong pairing (first :: rest)) : KnownAmong pairing rest :=
  fun mention inside => known mention (List.mem_cons_of_mem first inside)

theorem params_paired (params : List Token) (paired : ∀ token ∈ params, pairing.tokens token (move token)) :
    List.Forall₂ pairing.tokens params (params.map move) := by
  rw [List.forall₂_map_right_iff, List.forall₂_same]
  exact paired

mutual
theorem stmtPair_moved : (stmt : Stmt NodeId) → (inFunction : Bool) → (scopes : List Scope) →
    (∀ token ∈ stmt.tokens, pairing.tokens token (move token)) →
    KnownAmong pairing (stmt.mentions inFunction scopes) → StmtPair pairing stmt (stmt.moved move)
  | .ret keyword none, _, _, _, _ => .leave keyword (move keyword)
  | .ret keyword (some value), _, scopes, paired, known => by
      simp only [Stmt.tokens, Expr.tokensOption, List.forall_mem_cons] at paired
      have uses := knownAmong_uses pairing value.uses scopes (knownAmong_cons pairing _ _ known)
      exact .ret _ _ _ _ (exprPair_moved pairing move value paired.2 uses)
  | .print keyword value, _, scopes, paired, known => by
      simp only [Stmt.tokens, List.forall_mem_cons] at paired
      have uses := knownAmong_uses pairing value.uses scopes known
      exact .print _ _ _ _ paired.1 (exprPair_moved pairing move value paired.2 uses)
  | .expr value, _, scopes, paired, known =>
      .expr _ _ (exprPair_moved pairing move value paired (knownAmong_uses pairing _ scopes known))
  | .var name none, _, _, paired, _ => .declare _ _ (paired name List.mem_cons_self)
  | .var name (some value), _, scopes, paired, known => by
      simp only [Stmt.tokens, Expr.tokensOption, List.forall_mem_cons] at paired
      have uses := knownAmong_uses pairing value.uses (Scope.declare name scopes) (knownAmong_cons pairing _ _ known)
      exact .var _ _ _ _ paired.1 (exprPair_moved pairing move value paired.2 uses)
  | .block body, inFunction, scopes, paired, known =>
      .block _ _ (stmtPairAll_moved body inFunction ([] :: scopes) paired known)
  | .func name params body, _, scopes, paired, known => by
      simp only [Stmt.tokens, List.cons_append, List.forall_mem_cons, List.forall_mem_append] at paired
      obtain ⟨-, inner⟩ := knownAmong_append pairing _ _ (knownAmong_cons pairing _ _ known)
      exact .func _ _ _ _ _ _ paired.1 (params_paired pairing move params paired.2.1)
        (stmtPairAll_moved body true (Scope.bindAll ([] :: Scope.bind name scopes) params) paired.2.2 inner)
  | .branch condition yes none, inFunction, scopes, paired, known => by
      simp only [Stmt.tokens, List.forall_mem_append] at paired
      obtain ⟨test, chosen⟩ := knownAmong_append pairing _ _ known
      exact .branch _ _ _ _ (exprPair_moved pairing move condition paired.1 (knownAmong_uses pairing _ scopes test))
        (stmtPair_moved yes inFunction scopes paired.2 chosen)
  | .branch condition yes (some no), inFunction, scopes, paired, known => by
      simp only [Stmt.tokens, List.forall_mem_append] at paired
      obtain ⟨both, unchosen⟩ := knownAmong_append pairing _ _ known
      obtain ⟨test, chosen⟩ := knownAmong_append pairing _ _ both
      exact .branches _ _ _ _ _ _
        (exprPair_moved pairing move condition paired.1.1 (knownAmong_uses pairing _ scopes test))
        (stmtPair_moved yes inFunction scopes paired.1.2 chosen)
        (stmtPair_moved no inFunction (yes.after scopes) paired.2 unchosen)
  | .loop condition body, inFunction, scopes, paired, known => by
      simp only [Stmt.tokens, List.forall_mem_append] at paired
      obtain ⟨test, repeated⟩ := knownAmong_append pairing _ _ known
      exact .loop _ _ _ _ (exprPair_moved pairing move condition paired.1 (knownAmong_uses pairing _ scopes test))
        (stmtPair_moved body inFunction scopes paired.2 repeated)
theorem stmtPairAll_moved : (stmts : List (Stmt NodeId)) → (inFunction : Bool) → (scopes : List Scope) →
    (∀ token ∈ Stmt.tokensAll stmts, pairing.tokens token (move token)) →
    KnownAmong pairing (Stmt.mentionsAll inFunction scopes stmts) →
    StmtPairAll pairing stmts (Stmt.movedAll move stmts)
  | [], _, _, _, _ => .nil
  | first :: rest, inFunction, scopes, paired, known => by
      simp only [Stmt.tokensAll, List.forall_mem_append] at paired
      obtain ⟨here, later⟩ := knownAmong_append pairing _ _ known
      exact .cons _ _ _ _ (stmtPair_moved first inFunction scopes paired.1 here)
        (stmtPairAll_moved rest inFunction (first.after scopes) paired.2 later)
end

end moved

-- A pairing that knows more pairs the same code.

structure Pairing.Within (wider : Pairing) : Prop where
  tokens : ∀ token other, pairing.tokens token other → wider.tokens token other
  labels : ∀ label label', pairing.labels label label' → wider.labels label label'

mutual
theorem exprPair_wider {wider : Pairing} (within : pairing.Within wider) : {expr expr' : Expr NodeId} →
    ExprPair pairing expr expr' → ExprPair wider expr expr'
  | _, _, .literal value => .literal value
  | _, _, .group _ _ whole => .group _ _ (exprPair_wider within whole)
  | _, _, .unary _ _ _ _ operators operands =>
      .unary _ _ _ _ (within.tokens _ _ operators) (exprPair_wider within operands)
  | _, _, .binary _ _ _ _ _ _ operators lefts rights =>
      .binary _ _ _ _ _ _ (within.tokens _ _ operators) (exprPair_wider within lefts) (exprPair_wider within rights)
  | _, _, .logical _ _ _ _ _ _ operators lefts rights =>
      .logical _ _ _ _ _ _ (within.tokens _ _ operators) (exprPair_wider within lefts) (exprPair_wider within rights)
  | _, _, .ternary _ _ _ _ _ _ conditions chosen unchosen =>
      .ternary _ _ _ _ _ _ (exprPair_wider within conditions) (exprPair_wider within chosen)
        (exprPair_wider within unchosen)
  | _, _, .comma _ _ _ _ firsts seconds =>
      .comma _ _ _ _ (exprPair_wider within firsts) (exprPair_wider within seconds)
  | _, _, .var _ _ _ _ labels names => .var _ _ _ _ (within.labels _ _ labels) (within.tokens _ _ names)
  | _, _, .assign _ _ _ _ _ _ labels names values =>
      .assign _ _ _ _ _ _ (within.labels _ _ labels) (within.tokens _ _ names) (exprPair_wider within values)
  | _, _, .call _ _ _ _ _ _ callees closes given =>
      .call _ _ _ _ _ _ (exprPair_wider within callees) (within.tokens _ _ closes) (exprPairAll_wider within given)
theorem exprPairAll_wider {wider : Pairing} (within : pairing.Within wider) : {exprs exprs' : List (Expr NodeId)} →
    ExprPairAll pairing exprs exprs' → ExprPairAll wider exprs exprs'
  | _, _, .nil => .nil
  | _, _, .cons _ _ _ _ firsts others => .cons _ _ _ _ (exprPair_wider within firsts) (exprPairAll_wider within others)
end

mutual
theorem stmtPair_wider {wider : Pairing} (within : pairing.Within wider) : {stmt stmt' : Stmt NodeId} →
    StmtPair pairing stmt stmt' → StmtPair wider stmt stmt'
  | _, _, .leave keyword keyword' => .leave keyword keyword'
  | _, _, .ret _ _ _ _ values => .ret _ _ _ _ (exprPair_wider pairing within values)
  | _, _, .print _ _ _ _ keywords values =>
      .print _ _ _ _ (within.tokens _ _ keywords) (exprPair_wider pairing within values)
  | _, _, .expr _ _ values => .expr _ _ (exprPair_wider pairing within values)
  | _, _, .declare _ _ names => .declare _ _ (within.tokens _ _ names)
  | _, _, .var _ _ _ _ names values => .var _ _ _ _ (within.tokens _ _ names) (exprPair_wider pairing within values)
  | _, _, .block _ _ bodies => .block _ _ (stmtPairAll_wider within bodies)
  | _, _, .func _ _ _ _ _ _ names parameters bodies =>
      .func _ _ _ _ _ _ (within.tokens _ _ names) (parameters.imp within.tokens) (stmtPairAll_wider within bodies)
  | _, _, .branch _ _ _ _ conditions chosen =>
      .branch _ _ _ _ (exprPair_wider pairing within conditions) (stmtPair_wider within chosen)
  | _, _, .branches _ _ _ _ _ _ conditions chosen unchosen =>
      .branches _ _ _ _ _ _ (exprPair_wider pairing within conditions) (stmtPair_wider within chosen)
        (stmtPair_wider within unchosen)
  | _, _, .loop _ _ _ _ conditions bodies =>
      .loop _ _ _ _ (exprPair_wider pairing within conditions) (stmtPair_wider within bodies)
theorem stmtPairAll_wider {wider : Pairing} (within : pairing.Within wider) : {stmts stmts' : List (Stmt NodeId)} →
    StmtPairAll pairing stmts stmts' → StmtPairAll wider stmts stmts'
  | _, _, .nil => .nil
  | _, _, .cons _ _ _ _ firsts others => .cons _ _ _ _ (stmtPair_wider within firsts) (stmtPairAll_wider within others)
end

-- Values are paired if they are the same data, or functions with one serial number and home and with paired code.

inductive Same : Value → Value → Prop where
  | datum (value : Datum) : Same (.datum value) (.datum value)
  | closure (serial : Nat) (home : FrameId) (name name' : Token) (params params' : List Token)
      (body body' : List (Stmt NodeId)) (names : pairing.tokens name name')
      (parameters : List.Forall₂ pairing.tokens params params') (bodies : StmtPairAll pairing body body') :
      Same (.closure ⟨serial, name, params, body, home⟩) (.closure ⟨serial, name', params', body', home⟩)
  | clock : Same .clock .clock

inductive SameSlot : Option Slot → Option Slot → Prop where
  | missing : SameSlot none none
  | unassigned : SameSlot (some .unassigned) (some .unassigned)
  | holds (value value' : Value) (same : Same pairing value value') :
      SameSlot (some (.holds value)) (some (.holds value'))

-- The same frames, each with the same names.
structure SameHeap (heap heap' : Heap) : Prop where
  size : heap.size = heap'.size
  enclosing : ∀ frame, heap.enclosing? frame = heap'.enclosing? frame
  slots : ∀ frame name, SameSlot pairing (heap.slot? frame name) (heap'.slot? frame name)

variable {pairing}

theorem same_alike {value value' : Value} (same : Same pairing value value') : value.Alike value' := by
  cases same with
  | datum value => rfl
  | closure serial home name name' params params' body body' names parameters bodies =>
      exact ⟨rfl, pairing.lexemes name name' names, parameters.length_eq⟩
  | clock => trivial

theorem same_wider {wider : Pairing} (within : pairing.Within wider) {value value' : Value}
    (same : Same pairing value value') : Same wider value value' := by
  cases same with
  | datum value => exact .datum value
  | closure serial home name name' params params' body body' names parameters bodies =>
      exact .closure _ _ _ _ _ _ _ _ (within.tokens _ _ names) (parameters.imp within.tokens)
        (stmtPairAll_wider pairing within bodies)
  | clock => exact .clock

theorem sameSlot_wider {wider : Pairing} (within : pairing.Within wider) {slot slot' : Option Slot}
    (same : SameSlot pairing slot slot') : SameSlot wider slot slot' := by
  cases same with
  | missing => exact .missing
  | unassigned => exact .unassigned
  | holds value value' paired => exact .holds value value' (same_wider within paired)

theorem sameHeap_wider {wider : Pairing} (within : pairing.Within wider) {heap heap' : Heap}
    (same : SameHeap pairing heap heap') : SameHeap wider heap heap' :=
  ⟨same.size, same.enclosing, fun frame name => sameSlot_wider within (same.slots frame name)⟩

end Paired

end Treewalk
