import Treewalk.Machine.Basic

/-!
What a program mentions, in the order in which the analysis meets it: uses of names, declarations and returns,
each with the scopes open there. The findings of the analysis are those of the mentions one by one.
-/

set_option autoImplicit false

namespace Treewalk

open Scope

variable {ν : Type}

-- A use of a name, which reads it or writes to it.
structure Use (ν : Type) where
  label : ν
  name : Token
  writes : Bool

mutual
def Expr.uses : Expr ν → List (Use ν)
  | .literal _ => []
  | .group inner => inner.uses
  | .unary _ operand => operand.uses
  | .binary left _ right => left.uses ++ right.uses
  | .logical left _ right => left.uses ++ right.uses
  | .ternary condition yes no => condition.uses ++ yes.uses ++ no.uses
  | .comma first second => first.uses ++ second.uses
  | .var label name => [⟨label, name, false⟩]
  | .assign label name value => value.uses ++ [⟨label, name, true⟩]
  | .call callee _ arguments => callee.uses ++ Expr.usesAll arguments
def Expr.usesAll : List (Expr ν) → List (Use ν)
  | [] => []
  | first :: rest => first.uses ++ Expr.usesAll rest
end

def Expr.usesOption : Option (Expr ν) → List (Use ν)
  | none => []
  | some value => value.uses

inductive Mention (ν : Type) where
  | use (use : Use ν) (scopes : List Scope)
  | binding (name : Token) (scopes : List Scope)
  | leaving (inFunction : Bool) (keyword : Token)

def Mention.findings : Mention ν → List (Finding ν)
  | .use ⟨label, name, writes⟩ scopes => (if writes then [] else premature scopes name) ++ found scopes label name
  | .binding name scopes => repeated name scopes
  | .leaving inFunction keyword => if inFunction then [] else [.misuse ⟨keyword, .topLevelReturn⟩]

-- The scopes behind a declaration of a name.
def Scope.bind (name : Token) (scopes : List Scope) : List Scope := define name (declare name scopes)

def bindingMentions (scopes : List Scope) : List Token → List (Mention ν)
  | [] => []
  | first :: rest => .binding first scopes :: bindingMentions (Scope.bind first scopes) rest

def Scope.bindAll (scopes : List Scope) : List Token → List Scope
  | [] => scopes
  | first :: rest => Scope.bindAll (Scope.bind first scopes) rest

-- The scopes behind a statement.
def Stmt.after (scopes : List Scope) : Stmt ν → List Scope
  | .var name _ => Scope.bind name scopes
  | .func name _ _ => Scope.bind name scopes
  | .branch _ yes none => yes.after scopes
  | .branch _ yes (some no) => no.after (yes.after scopes)
  | .loop _ body => body.after scopes
  | _ => scopes

mutual
def Stmt.mentions (inFunction : Bool) (scopes : List Scope) : Stmt ν → List (Mention ν)
  | .ret keyword value => .leaving inFunction keyword :: (Expr.usesOption value).map (.use · scopes)
  | .print _ value => value.uses.map (.use · scopes)
  | .expr value => value.uses.map (.use · scopes)
  | .var name value => .binding name scopes :: (Expr.usesOption value).map (.use · (declare name scopes))
  | .block body => Stmt.mentionsAll inFunction ([] :: scopes) body
  | .func name params body =>
      let inner := [] :: Scope.bind name scopes
      .binding name scopes :: bindingMentions inner params ++ Stmt.mentionsAll true (Scope.bindAll inner params) body
  | .branch condition yes none => condition.uses.map (.use · scopes) ++ yes.mentions inFunction scopes
  | .branch condition yes (some no) =>
      condition.uses.map (.use · scopes) ++ yes.mentions inFunction scopes ++
        no.mentions inFunction (yes.after scopes)
  | .loop condition body => condition.uses.map (.use · scopes) ++ body.mentions inFunction scopes
def Stmt.mentionsAll (inFunction : Bool) (scopes : List Scope) : List (Stmt ν) → List (Mention ν)
  | [] => []
  | first :: rest => first.mentions inFunction scopes ++ Stmt.mentionsAll inFunction (first.after scopes) rest
end

def Stmt.afterAll (scopes : List Scope) : List (Stmt ν) → List Scope
  | [] => scopes
  | first :: rest => Stmt.afterAll (first.after scopes) rest

-- What a declaration adds to the scopes.

theorem Scope.bind_isEmpty (name : Token) (scopes : List Scope) : (Scope.bind name scopes).isEmpty = scopes.isEmpty := by
  cases scopes with
  | nil => rfl
  | cons inner outer =>
      simp only [Scope.bind, Scope.declare]
      split <;> rfl

theorem Scope.bindAll_isEmpty (params : List Token) : ∀ scopes : List Scope,
    (Scope.bindAll scopes params).isEmpty = scopes.isEmpty := by
  induction params with
  | nil => exact fun _ => rfl
  | cons first rest ih => exact fun scopes => (ih _).trans (Scope.bind_isEmpty first scopes)

theorem Scope.bind_undeclared (name : Token) (inner : Scope) (outer : List Scope)
    (undeclared : inner.declares name.lexeme = false) :
    ∃ scope : Scope, Scope.bind name (inner :: outer) = scope :: outer ∧
      ∀ other, scope.declares other = (other == name.lexeme || inner.declares other) := by
  refine ⟨(name.lexeme, true) :: (name.lexeme, false) :: inner, ?_, ?_⟩
  · simp [Scope.bind, Scope.declare, undeclared, Scope.define]
  · intro other
    simp only [Scope.declares, List.lookup_cons]
    cases other == name.lexeme <;> rfl

theorem Stmt.after_isEmpty : (stmt : Stmt ν) → (scopes : List Scope) → (stmt.after scopes).isEmpty = scopes.isEmpty
  | .ret _ _, _ => rfl
  | .print _ _, _ => rfl
  | .expr _, _ => rfl
  | .var name _, scopes => Scope.bind_isEmpty name scopes
  | .block _, _ => rfl
  | .func name _ _, scopes => Scope.bind_isEmpty name scopes
  | .branch _ yes none, scopes => Stmt.after_isEmpty yes scopes
  | .branch _ yes (some no), scopes => (Stmt.after_isEmpty no _).trans (Stmt.after_isEmpty yes scopes)
  | .loop _ body, scopes => Stmt.after_isEmpty body scopes

-- The analysis finds what the mentions give, and leaves the scopes behind the statement.

mutual
theorem Expr.findings_uses (scopes : List Scope) : (expr : Expr ν) →
    expr.findings scopes = expr.uses.flatMap (fun use => (Mention.use use scopes).findings)
  | .literal _ => rfl
  | .group inner => Expr.findings_uses scopes inner
  | .unary _ operand => Expr.findings_uses scopes operand
  | .binary left _ right => by
      simp [Expr.findings, Expr.uses, Expr.findings_uses scopes left, Expr.findings_uses scopes right]
  | .logical left _ right => by
      simp [Expr.findings, Expr.uses, Expr.findings_uses scopes left, Expr.findings_uses scopes right]
  | .ternary condition yes no => by
      simp [Expr.findings, Expr.uses, Expr.findings_uses scopes condition, Expr.findings_uses scopes yes,
        Expr.findings_uses scopes no]
  | .comma first second => by
      simp [Expr.findings, Expr.uses, Expr.findings_uses scopes first, Expr.findings_uses scopes second]
  | .var label name => by simp [Expr.findings, Expr.uses, Mention.findings]
  | .assign label name value => by
      simp [Expr.findings, Expr.uses, Mention.findings, Expr.findings_uses scopes value]
  | .call callee _ arguments => by
      simp [Expr.findings, Expr.uses, Expr.findings_uses scopes callee, Expr.findingsAll_uses scopes arguments]
theorem Expr.findingsAll_uses (scopes : List Scope) : (exprs : List (Expr ν)) →
    Expr.findingsAll scopes exprs = (Expr.usesAll exprs).flatMap (fun use => (Mention.use use scopes).findings)
  | [] => rfl
  | first :: rest => by
      simp [Expr.findingsAll, Expr.usesAll, Expr.findings_uses scopes first, Expr.findingsAll_uses scopes rest]
end

theorem Expr.findingsOption_uses (scopes : List Scope) (value : Option (Expr ν)) :
    Expr.findingsOption scopes value =
      (Expr.usesOption value).flatMap (fun use => (Mention.use use scopes).findings) := by
  cases value with
  | none => rfl
  | some value => exact Expr.findings_uses scopes value

theorem paramFindings_mentions (params : List Token) : ∀ scopes : List Scope,
    paramFindings (ν := ν) scopes params =
      (Scope.bindAll scopes params, (bindingMentions scopes params).flatMap Mention.findings) := by
  induction params with
  | nil => exact fun _ => rfl
  | cons first rest ih =>
      intro scopes
      rw [paramFindings, show define first (declare first scopes) = Scope.bind first scopes from rfl, ih]
      rfl

mutual
theorem Stmt.findings_mentions (inFunction : Bool) : (stmt : Stmt ν) → (scopes : List Scope) →
    stmt.findings inFunction scopes =
      (stmt.after scopes, (stmt.mentions inFunction scopes).flatMap Mention.findings)
  | .ret keyword value, scopes => by
      cases inFunction <;>
        simp [Stmt.findings, Stmt.after, Stmt.mentions, Mention.findings, Expr.findingsOption_uses, List.flatMap_map]
  | .print _ value, scopes => by
      simp [Stmt.findings, Stmt.after, Stmt.mentions, Expr.findings_uses, List.flatMap_map]
  | .expr value, scopes => by
      simp [Stmt.findings, Stmt.after, Stmt.mentions, Expr.findings_uses, List.flatMap_map]
  | .var name value, scopes => by
      simp [Stmt.findings, Stmt.after, Stmt.mentions, Scope.bind, Mention.findings, Expr.findingsOption_uses,
        List.flatMap_map]
  | .block body, scopes => by
      simp [Stmt.findings, Stmt.after, Stmt.mentions, Stmt.findingsAll_mentions inFunction body]
  | .func name params body, scopes => by
      simp [Stmt.findings, Stmt.after, Stmt.mentions, Scope.bind, Mention.findings, paramFindings_mentions,
        Stmt.findingsAll_mentions true body]
  | .branch condition yes none, scopes => by
      simp [Stmt.findings, Stmt.after, Stmt.mentions, Expr.findings_uses, List.flatMap_map,
        Stmt.findings_mentions inFunction yes]
  | .branch condition yes (some no), scopes => by
      simp [Stmt.findings, Stmt.after, Stmt.mentions, Expr.findings_uses, List.flatMap_map,
        Stmt.findings_mentions inFunction yes, Stmt.findings_mentions inFunction no]
  | .loop condition body, scopes => by
      simp [Stmt.findings, Stmt.after, Stmt.mentions, Expr.findings_uses, List.flatMap_map,
        Stmt.findings_mentions inFunction body]
theorem Stmt.findingsAll_mentions (inFunction : Bool) : (stmts : List (Stmt ν)) → (scopes : List Scope) →
    Stmt.findingsAll inFunction scopes stmts =
      (Stmt.afterAll scopes stmts, (Stmt.mentionsAll inFunction scopes stmts).flatMap Mention.findings)
  | [], scopes => rfl
  | first :: rest, scopes => by
      simp [Stmt.findingsAll, Stmt.afterAll, Stmt.mentionsAll, Stmt.findings_mentions inFunction first,
        Stmt.findingsAll_mentions inFunction rest]
end

end Treewalk
