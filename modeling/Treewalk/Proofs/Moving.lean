import Treewalk.Proofs.Settling

/-!
Trees whose tokens stand on other lines. Lines play no part in numbering a program or in analysing it: a moved
program gets the same numbers and the same distances, and misuses a name exactly where the program does.
-/

set_option autoImplicit false

namespace Treewalk

open Scope

variable {ν : Type}

-- The same token some lines further down.
def Token.down (lines : Int) (token : Token) : Token := { token with line := token.line + lines }

-- A change of tokens that leaves all but their lines.
def KeepsText (move : Token → Token) : Prop := ∀ token, ∃ line, move token = { token with line := line }

theorem keepsText_id : KeepsText id := fun token => ⟨token.line, rfl⟩

theorem keepsText_down (lines : Int) : KeepsText (Token.down lines) := fun token => ⟨token.line + lines, rfl⟩

section texts

variable (move : Token → Token) (keeps : KeepsText move) (token : Token)

include keeps

theorem moved_kind : (move token).kind = token.kind := by
  obtain ⟨line, same⟩ := keeps token
  rw [same]

theorem moved_lexeme : (move token).lexeme = token.lexeme := by
  obtain ⟨line, same⟩ := keeps token
  rw [same]

theorem moved_literal : (move token).literal = token.literal := by
  obtain ⟨line, same⟩ := keeps token
  rw [same]

end texts

mutual
def Expr.moved (move : Token → Token) : Expr ν → Expr ν
  | .literal value => .literal value
  | .group inner => .group (inner.moved move)
  | .unary operator operand => .unary (move operator) (operand.moved move)
  | .binary left operator right => .binary (left.moved move) (move operator) (right.moved move)
  | .logical left operator right => .logical (left.moved move) (move operator) (right.moved move)
  | .ternary condition yes no => .ternary (condition.moved move) (yes.moved move) (no.moved move)
  | .comma first second => .comma (first.moved move) (second.moved move)
  | .var label name => .var label (move name)
  | .assign label name value => .assign label (move name) (value.moved move)
  | .call callee close arguments => .call (callee.moved move) (move close) (Expr.movedAll move arguments)
def Expr.movedAll (move : Token → Token) : List (Expr ν) → List (Expr ν)
  | [] => []
  | first :: rest => first.moved move :: Expr.movedAll move rest
end

mutual
def Stmt.moved (move : Token → Token) : Stmt ν → Stmt ν
  | .ret keyword value => .ret (move keyword) (value.map (Expr.moved move))
  | .print keyword value => .print (move keyword) (value.moved move)
  | .expr value => .expr (value.moved move)
  | .var name value => .var (move name) (value.map (Expr.moved move))
  | .block body => .block (Stmt.movedAll move body)
  | .func name params body => .func (move name) (params.map move) (Stmt.movedAll move body)
  | .branch condition yes none => .branch (condition.moved move) (yes.moved move) none
  | .branch condition yes (some no) => .branch (condition.moved move) (yes.moved move) (some (no.moved move))
  | .loop condition body => .loop (condition.moved move) (body.moved move)
def Stmt.movedAll (move : Token → Token) : List (Stmt ν) → List (Stmt ν)
  | [] => []
  | first :: rest => first.moved move :: Stmt.movedAll move rest
end

-- A tree moved nowhere.

mutual
theorem Expr.moved_id : (expr : Expr ν) → expr.moved id = expr
  | .literal _ => rfl
  | .group inner => by rw [Expr.moved, Expr.moved_id inner]
  | .unary operator operand => by rw [Expr.moved, Expr.moved_id operand, id]
  | .binary left operator right => by rw [Expr.moved, Expr.moved_id left, Expr.moved_id right, id]
  | .logical left operator right => by rw [Expr.moved, Expr.moved_id left, Expr.moved_id right, id]
  | .ternary condition yes no => by
      rw [Expr.moved, Expr.moved_id condition, Expr.moved_id yes, Expr.moved_id no]
  | .comma first second => by rw [Expr.moved, Expr.moved_id first, Expr.moved_id second]
  | .var _ _ => rfl
  | .assign label name value => by rw [Expr.moved, Expr.moved_id value, id]
  | .call callee close arguments => by rw [Expr.moved, Expr.moved_id callee, Expr.movedAll_id arguments, id]
theorem Expr.movedAll_id : (exprs : List (Expr ν)) → Expr.movedAll id exprs = exprs
  | [] => rfl
  | first :: rest => by rw [Expr.movedAll, Expr.moved_id first, Expr.movedAll_id rest]
end

theorem Expr.movedOption_id (value : Option (Expr ν)) : value.map (Expr.moved id) = value := by
  cases value with
  | none => rfl
  | some value => exact congrArg some (Expr.moved_id value)

mutual
theorem Stmt.moved_id : (stmt : Stmt ν) → stmt.moved id = stmt
  | .ret keyword value => by rw [Stmt.moved, Expr.movedOption_id value, id]
  | .print keyword value => by rw [Stmt.moved, Expr.moved_id value, id]
  | .expr value => by rw [Stmt.moved, Expr.moved_id value]
  | .var name value => by rw [Stmt.moved, Expr.movedOption_id value, id]
  | .block body => by rw [Stmt.moved, Stmt.movedAll_id body]
  | .func name params body => by rw [Stmt.moved, Stmt.movedAll_id body, List.map_id, id]
  | .branch condition yes none => by rw [Stmt.moved, Expr.moved_id condition, Stmt.moved_id yes]
  | .branch condition yes (some no) => by
      rw [Stmt.moved, Expr.moved_id condition, Stmt.moved_id yes, Stmt.moved_id no]
  | .loop condition body => by rw [Stmt.moved, Expr.moved_id condition, Stmt.moved_id body]
theorem Stmt.movedAll_id : (stmts : List (Stmt ν)) → Stmt.movedAll id stmts = stmts
  | [] => rfl
  | first :: rest => by rw [Stmt.movedAll, Stmt.moved_id first, Stmt.movedAll_id rest]
end

-- A moved tree gets the numbers that the tree gets.

mutual
theorem Expr.numbered_moved (move : Token → Token) : (expr : Expr Unit) → (first : NodeId) →
    (expr.moved move).numbered first = ((expr.numbered first).1.moved move, (expr.numbered first).2)
  | .literal _, _ => rfl
  | .group inner, first => congrArg (Prod.map Expr.group id) (Expr.numbered_moved move inner first)
  | .unary operator operand, first =>
      congrArg (Prod.map (Expr.unary (move operator)) id) (Expr.numbered_moved move operand first)
  | .binary left operator right, first => by
      change (Expr.binary ((left.moved move).numbered first).1 (move operator)
        ((right.moved move).numbered ((left.moved move).numbered first).2).1,
        ((right.moved move).numbered ((left.moved move).numbered first).2).2) = _
      simp only [Expr.numbered_moved move left, Expr.numbered_moved move right]
      rfl
  | .logical left operator right, first => by
      change (Expr.logical ((left.moved move).numbered first).1 (move operator)
        ((right.moved move).numbered ((left.moved move).numbered first).2).1,
        ((right.moved move).numbered ((left.moved move).numbered first).2).2) = _
      simp only [Expr.numbered_moved move left, Expr.numbered_moved move right]
      rfl
  | .ternary condition yes no, first => by
      let afterCondition := ((condition.moved move).numbered first).2
      let afterYes := ((yes.moved move).numbered afterCondition).2
      change (Expr.ternary ((condition.moved move).numbered first).1 ((yes.moved move).numbered afterCondition).1
        ((no.moved move).numbered afterYes).1, ((no.moved move).numbered afterYes).2) = _
      simp only [afterYes, afterCondition, Expr.numbered_moved move condition, Expr.numbered_moved move yes,
        Expr.numbered_moved move no]
      rfl
  | .comma left right, first => by
      change (Expr.comma ((left.moved move).numbered first).1
        ((right.moved move).numbered ((left.moved move).numbered first).2).1,
        ((right.moved move).numbered ((left.moved move).numbered first).2).2) = _
      simp only [Expr.numbered_moved move left, Expr.numbered_moved move right]
      rfl
  | .var _ _, _ => rfl
  | .assign _ name value, first =>
      congrArg (Prod.map (Expr.assign first (move name)) id) (Expr.numbered_moved move value (first + 1))
  | .call callee close arguments, first => by
      change (Expr.call ((callee.moved move).numbered first).1 (move close)
        (Expr.numberedAll ((callee.moved move).numbered first).2 (Expr.movedAll move arguments)).1,
        (Expr.numberedAll ((callee.moved move).numbered first).2 (Expr.movedAll move arguments)).2) = _
      simp only [Expr.numbered_moved move callee, Expr.numberedAll_moved move arguments]
      rfl
theorem Expr.numberedAll_moved (move : Token → Token) : (exprs : List (Expr Unit)) → (first : NodeId) →
    Expr.numberedAll first (Expr.movedAll move exprs) =
      (Expr.movedAll move (Expr.numberedAll first exprs).1, (Expr.numberedAll first exprs).2)
  | [], _ => rfl
  | expr :: rest, first => by
      change (((expr.moved move).numbered first).1 ::
        (Expr.numberedAll ((expr.moved move).numbered first).2 (Expr.movedAll move rest)).1,
        (Expr.numberedAll ((expr.moved move).numbered first).2 (Expr.movedAll move rest)).2) = _
      simp only [Expr.numbered_moved move expr, Expr.numberedAll_moved move rest]
      rfl
end

theorem Expr.numberedOption_moved (move : Token → Token) (value : Option (Expr Unit)) (first : NodeId) :
    Expr.numberedOption first (value.map (Expr.moved move)) =
      ((Expr.numberedOption first value).1.map (Expr.moved move), (Expr.numberedOption first value).2) := by
  cases value with
  | none => rfl
  | some value => exact congrArg (Prod.map some id) (Expr.numbered_moved move value first)

mutual
theorem Stmt.numbered_moved (move : Token → Token) : (stmt : Stmt Unit) → (first : NodeId) →
    (stmt.moved move).numbered first = ((stmt.numbered first).1.moved move, (stmt.numbered first).2)
  | .ret keyword value, first =>
      congrArg (Prod.map (Stmt.ret (move keyword)) id) (Expr.numberedOption_moved move value first)
  | .print keyword value, first =>
      congrArg (Prod.map (Stmt.print (move keyword)) id) (Expr.numbered_moved move value first)
  | .expr value, first => congrArg (Prod.map Stmt.expr id) (Expr.numbered_moved move value first)
  | .var name value, first =>
      congrArg (Prod.map (Stmt.var (move name)) id) (Expr.numberedOption_moved move value first)
  | .block body, first => congrArg (Prod.map Stmt.block id) (Stmt.numberedAll_moved move body first)
  | .func name params body, first =>
      congrArg (Prod.map (Stmt.func (move name) (params.map move)) id) (Stmt.numberedAll_moved move body first)
  | .branch condition yes none, first => by
      change (Stmt.branch ((condition.moved move).numbered first).1
        ((yes.moved move).numbered ((condition.moved move).numbered first).2).1 none,
        ((yes.moved move).numbered ((condition.moved move).numbered first).2).2) = _
      simp only [Expr.numbered_moved move condition, Stmt.numbered_moved move yes]
      rfl
  | .branch condition yes (some no), first => by
      let afterCondition := ((condition.moved move).numbered first).2
      let afterYes := ((yes.moved move).numbered afterCondition).2
      change (Stmt.branch ((condition.moved move).numbered first).1 ((yes.moved move).numbered afterCondition).1
        (some ((no.moved move).numbered afterYes).1), ((no.moved move).numbered afterYes).2) = _
      simp only [afterYes, afterCondition, Expr.numbered_moved move condition, Stmt.numbered_moved move yes,
        Stmt.numbered_moved move no]
      rfl
  | .loop condition body, first => by
      change (Stmt.loop ((condition.moved move).numbered first).1
        ((body.moved move).numbered ((condition.moved move).numbered first).2).1,
        ((body.moved move).numbered ((condition.moved move).numbered first).2).2) = _
      simp only [Expr.numbered_moved move condition, Stmt.numbered_moved move body]
      rfl
theorem Stmt.numberedAll_moved (move : Token → Token) : (stmts : List (Stmt Unit)) → (first : NodeId) →
    Stmt.numberedAll first (Stmt.movedAll move stmts) =
      (Stmt.movedAll move (Stmt.numberedAll first stmts).1, (Stmt.numberedAll first stmts).2)
  | [], _ => rfl
  | stmt :: rest, first => by
      change (((stmt.moved move).numbered first).1 ::
        (Stmt.numberedAll ((stmt.moved move).numbered first).2 (Stmt.movedAll move rest)).1,
        (Stmt.numberedAll ((stmt.moved move).numbered first).2 (Stmt.movedAll move rest)).2) = _
      simp only [Stmt.numbered_moved move stmt, Stmt.numberedAll_moved move rest]
      rfl
end

-- A moved tree mentions the same names in the same scopes.

def Use.moved (move : Token → Token) (use : Use ν) : Use ν := { use with name := move use.name }

def Mention.moved (move : Token → Token) : Mention ν → Mention ν
  | .use mentioned scopes => .use (mentioned.moved move) scopes
  | .binding name scopes => .binding (move name) scopes
  | .leaving inFunction keyword => .leaving inFunction (move keyword)

def Finding.moved (move : Token → Token) : Finding ν → Finding ν
  | .distance label scopes => .distance label scopes
  | .misuse error => .misuse { error with token := move error.token }

mutual
theorem Expr.uses_moved (move : Token → Token) : (expr : Expr ν) →
    (expr.moved move).uses = expr.uses.map (Use.moved move)
  | .literal _ => rfl
  | .group inner => Expr.uses_moved move inner
  | .unary _ operand => Expr.uses_moved move operand
  | .binary left _ right => by
      simp only [Expr.moved, Expr.uses, List.map_append, Expr.uses_moved move left, Expr.uses_moved move right]
  | .logical left _ right => by
      simp only [Expr.moved, Expr.uses, List.map_append, Expr.uses_moved move left, Expr.uses_moved move right]
  | .ternary condition yes no => by
      simp only [Expr.moved, Expr.uses, List.map_append, Expr.uses_moved move condition, Expr.uses_moved move yes,
        Expr.uses_moved move no]
  | .comma first second => by
      simp only [Expr.moved, Expr.uses, List.map_append, Expr.uses_moved move first, Expr.uses_moved move second]
  | .var _ _ => rfl
  | .assign label name value => by
      simp only [Expr.moved, Expr.uses, List.map_append, Expr.uses_moved move value]
      rfl
  | .call callee _ arguments => by
      simp only [Expr.moved, Expr.uses, List.map_append, Expr.uses_moved move callee, Expr.usesAll_moved move arguments]
theorem Expr.usesAll_moved (move : Token → Token) : (exprs : List (Expr ν)) →
    Expr.usesAll (Expr.movedAll move exprs) = (Expr.usesAll exprs).map (Use.moved move)
  | [] => rfl
  | first :: rest => by
      simp only [Expr.movedAll, Expr.usesAll, List.map_append, Expr.uses_moved move first, Expr.usesAll_moved move rest]
end

theorem Expr.usesOption_moved (move : Token → Token) (value : Option (Expr ν)) :
    Expr.usesOption (value.map (Expr.moved move)) = (Expr.usesOption value).map (Use.moved move) := by
  cases value with
  | none => rfl
  | some value => exact Expr.uses_moved move value

section mentions

variable (move : Token → Token) (keeps : KeepsText move)

theorem mentions_of_uses (uses : List (Use ν)) (scopes : List Scope) :
    (uses.map (Use.moved move)).map (Mention.use · scopes) =
      (uses.map (Mention.use · scopes)).map (Mention.moved move) := by
  simp only [List.map_map]
  rfl

include keeps

theorem declare_moved (name : Token) (scopes : List Scope) : declare (move name) scopes = declare name scopes := by
  cases scopes with
  | nil => rfl
  | cons inner outer => simp only [declare, moved_lexeme move keeps]

theorem bind_moved (name : Token) (scopes : List Scope) : Scope.bind (move name) scopes = Scope.bind name scopes := by
  unfold Scope.bind
  rw [declare_moved move keeps]
  cases declare name scopes with
  | nil => rfl
  | cons inner outer => simp only [define, moved_lexeme move keeps]

theorem bindAll_moved (params : List Token) : ∀ scopes : List Scope,
    Scope.bindAll scopes (params.map move) = Scope.bindAll scopes params := by
  induction params with
  | nil => exact fun _ => rfl
  | cons first rest ih =>
      intro scopes
      simp only [List.map_cons, Scope.bindAll, bind_moved move keeps, ih]

theorem bindingMentions_moved (params : List Token) : ∀ scopes : List Scope,
    bindingMentions (ν := ν) scopes (params.map move) = (bindingMentions scopes params).map (Mention.moved move) := by
  induction params with
  | nil => exact fun _ => rfl
  | cons first rest ih =>
      intro scopes
      simp only [List.map_cons, bindingMentions, bind_moved move keeps, ih]
      rfl

theorem Stmt.after_moved (stmt : Stmt ν) (scopes : List Scope) : (stmt.moved move).after scopes = stmt.after scopes := by
  cases stmt with
  | ret | print | expr | block => rfl
  | var name value => exact bind_moved move keeps name scopes
  | func name params body => exact bind_moved move keeps name scopes
  | branch condition yes no =>
      cases no with
      | none => exact Stmt.after_moved yes scopes
      | some no => rw [Stmt.moved, Stmt.after, Stmt.after, Stmt.after_moved yes, Stmt.after_moved no]
  | loop condition body => exact Stmt.after_moved body scopes

mutual
theorem Stmt.mentions_moved : (stmt : Stmt ν) → (inFunction : Bool) → (scopes : List Scope) →
    (stmt.moved move).mentions inFunction scopes = (stmt.mentions inFunction scopes).map (Mention.moved move)
  | .ret keyword value, inFunction, scopes => by
      simp only [Stmt.moved, Stmt.mentions, Expr.usesOption_moved, mentions_of_uses, List.map_cons]
      rfl
  | .print _ value, inFunction, scopes => by
      simp only [Stmt.moved, Stmt.mentions, Expr.uses_moved, mentions_of_uses]
  | .expr value, inFunction, scopes => by
      simp only [Stmt.moved, Stmt.mentions, Expr.uses_moved, mentions_of_uses]
  | .var name value, inFunction, scopes => by
      simp only [Stmt.moved, Stmt.mentions, Expr.usesOption_moved, mentions_of_uses, List.map_cons,
        declare_moved move keeps]
      rfl
  | .block body, inFunction, scopes => Stmt.mentionsAll_moved body inFunction ([] :: scopes)
  | .func name params body, inFunction, scopes => by
      simp only [Stmt.moved, Stmt.mentions, bind_moved move keeps, bindAll_moved move keeps,
        bindingMentions_moved move keeps, Stmt.mentionsAll_moved body, List.map_append, List.map_cons, List.cons_append]
      rfl
  | .branch condition yes none, inFunction, scopes => by
      simp only [Stmt.moved, Stmt.mentions, Expr.uses_moved, mentions_of_uses, Stmt.mentions_moved yes,
        List.map_append]
  | .branch condition yes (some no), inFunction, scopes => by
      simp only [Stmt.moved, Stmt.mentions, Expr.uses_moved, mentions_of_uses, Stmt.mentions_moved yes,
        Stmt.mentions_moved no, Stmt.after_moved move keeps yes, List.map_append]
  | .loop condition body, inFunction, scopes => by
      simp only [Stmt.moved, Stmt.mentions, Expr.uses_moved, mentions_of_uses, Stmt.mentions_moved body,
        List.map_append]
theorem Stmt.mentionsAll_moved : (stmts : List (Stmt ν)) → (inFunction : Bool) → (scopes : List Scope) →
    Stmt.mentionsAll inFunction scopes (Stmt.movedAll move stmts) =
      (Stmt.mentionsAll inFunction scopes stmts).map (Mention.moved move)
  | [], _, _ => rfl
  | first :: rest, inFunction, scopes => by
      simp only [Stmt.movedAll, Stmt.mentionsAll, Stmt.mentions_moved first, Stmt.mentionsAll_moved rest,
        Stmt.after_moved move keeps first, List.map_append]
end

-- What is found at a moved mention: the same distance, and a misuse where there was one.

theorem findings_moved (mention : Mention ν) :
    (mention.moved move).findings = mention.findings.map (Finding.moved move) := by
  have lexeme := moved_lexeme move keeps
  cases mention with
  | use mentioned scopes =>
      obtain ⟨label, name, writes⟩ := mentioned
      have distances : found scopes label (move name) = (found scopes label name).map (Finding.moved move) := by
        simp only [found, lexeme]
        cases distance? scopes name.lexeme <;> rfl
      have early : premature (ν := ν) scopes (move name) = (premature scopes name).map (Finding.moved move) := by
        simp only [premature, lexeme]
        split <;> rfl
      cases writes with
      | true => simp only [Mention.moved, Use.moved, Mention.findings, distances, List.map_append]; rfl
      | false => simp [Mention.moved, Use.moved, Mention.findings, distances, early]
  | binding name scopes =>
      cases scopes with
      | nil => rfl
      | cons inner outer =>
          simp only [Mention.moved, Mention.findings, repeated, lexeme]
          split <;> rfl
  | leaving inFunction keyword => cases inFunction <;> rfl

theorem note_moved (distances : Distances) (mention : Mention NodeId) :
    distances.note (mention.moved move) = distances.note mention := by
  have record (distances : Distances) (finding : Finding NodeId) :
      distances.record (finding.moved move) = distances.record finding := by cases finding <;> rfl
  rw [Distances.note, findings_moved move keeps, List.foldl_map]
  simp only [record]
  rfl

theorem misuses_moved (program : List (Stmt ν)) (clean : misuses program = []) :
    misuses (Stmt.movedAll move program) = [] := by
  rw [misuses_mentions, List.flatMap_eq_nil_iff] at clean ⊢
  intro mention inside
  rw [Stmt.mentionsAll_moved move keeps] at inside
  obtain ⟨original, among, rfl⟩ := List.mem_map.mp inside
  have none := clean original among
  rw [List.filterMap_eq_nil_iff] at none ⊢
  rw [findings_moved move keeps]
  intro finding found
  obtain ⟨before, inside, rfl⟩ := List.mem_map.mp found
  have silent := none before inside
  cases before with
  | distance label scopes => rfl
  | misuse error => cases silent

end mentions

end Treewalk
