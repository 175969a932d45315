import Treewalk.Proofs.Numbering
import Treewalk.Tree.Program

/-!
Trees built from known tokens. In such a tree names are identifiers, a call ends with a closing parenthesis, and what
prints is the keyword for it. Numbers make no difference.
-/

set_option autoImplicit false

namespace Treewalk

variable {ν : Type}

-- One of the known tokens, of a certain kind.
def Token.Among (known : List Token) (kind : Kind) (token : Token) : Prop := token ∈ known ∧ token.kind = kind

mutual
def Expr.Sourced (known : List Token) : Expr ν → Prop
  | .literal _ => True
  | .group inner => inner.Sourced known
  | .unary operator operand => operator ∈ known ∧ operand.Sourced known
  | .binary left operator right => left.Sourced known ∧ operator ∈ known ∧ right.Sourced known
  | .logical left operator right => left.Sourced known ∧ operator ∈ known ∧ right.Sourced known
  | .ternary condition yes no => condition.Sourced known ∧ yes.Sourced known ∧ no.Sourced known
  | .comma first second => first.Sourced known ∧ second.Sourced known
  | .var _ name => name.Among known .identifier
  | .assign _ name value => name.Among known .identifier ∧ value.Sourced known
  | .call callee close arguments =>
      callee.Sourced known ∧ close.Among known .rightParen ∧ Expr.SourcedAll known arguments
def Expr.SourcedAll (known : List Token) : List (Expr ν) → Prop
  | [] => True
  | first :: rest => first.Sourced known ∧ Expr.SourcedAll known rest
end

def Expr.SourcedOption (known : List Token) (value : Option (Expr ν)) : Prop := ∀ expr ∈ value, expr.Sourced known

mutual
def Stmt.Sourced (known : List Token) : Stmt ν → Prop
  | .ret keyword value => keyword ∈ known ∧ Expr.SourcedOption known value
  | .print keyword value => keyword.Among known .kwPrint ∧ value.Sourced known
  | .expr value => value.Sourced known
  | .var name value => name.Among known .identifier ∧ Expr.SourcedOption known value
  | .block body => Stmt.SourcedAll known body
  | .func name params body =>
      name.Among known .identifier ∧ (∀ param ∈ params, param.Among known .identifier) ∧ Stmt.SourcedAll known body
  | .branch condition yes none => condition.Sourced known ∧ yes.Sourced known
  | .branch condition yes (some no) => condition.Sourced known ∧ yes.Sourced known ∧ no.Sourced known
  | .loop condition body => condition.Sourced known ∧ body.Sourced known
def Stmt.SourcedAll (known : List Token) : List (Stmt ν) → Prop
  | [] => True
  | first :: rest => first.Sourced known ∧ Stmt.SourcedAll known rest
end

theorem Expr.sourcedAll_iff (known : List Token) (exprs : List (Expr ν)) :
    Expr.SourcedAll known exprs ↔ ∀ expr ∈ exprs, expr.Sourced known := by
  induction exprs with
  | nil => simp [Expr.SourcedAll]
  | cons first rest ih => rw [Expr.SourcedAll, ih, List.forall_mem_cons]

theorem Stmt.sourcedAll_iff (known : List Token) (stmts : List (Stmt ν)) :
    Stmt.SourcedAll known stmts ↔ ∀ stmt ∈ stmts, stmt.Sourced known := by
  induction stmts with
  | nil => simp [Stmt.SourcedAll]
  | cons first rest ih => rw [Stmt.SourcedAll, ih, List.forall_mem_cons]

-- Numbers make no difference.

mutual
theorem Expr.sourced_strip (known : List Token) : (expr : Expr ν) → (expr.strip.Sourced known ↔ expr.Sourced known)
  | .literal _ => Iff.rfl
  | .group inner => Expr.sourced_strip known inner
  | .unary _ operand => and_congr_right' (Expr.sourced_strip known operand)
  | .binary left _ right | .logical left _ right =>
      and_congr (Expr.sourced_strip known left) (and_congr_right' (Expr.sourced_strip known right))
  | .ternary condition yes no =>
      and_congr (Expr.sourced_strip known condition)
        (and_congr (Expr.sourced_strip known yes) (Expr.sourced_strip known no))
  | .comma first second => and_congr (Expr.sourced_strip known first) (Expr.sourced_strip known second)
  | .var _ _ => Iff.rfl
  | .assign _ _ value => and_congr_right' (Expr.sourced_strip known value)
  | .call callee _ arguments =>
      and_congr (Expr.sourced_strip known callee) (and_congr_right' (Expr.sourcedAll_strip known arguments))
theorem Expr.sourcedAll_strip (known : List Token) : (exprs : List (Expr ν)) →
    (Expr.SourcedAll known (Expr.stripAll exprs) ↔ Expr.SourcedAll known exprs)
  | [] => Iff.rfl
  | first :: rest => and_congr (Expr.sourced_strip known first) (Expr.sourcedAll_strip known rest)
end

theorem Expr.sourcedOption_strip (known : List Token) (value : Option (Expr ν)) :
    Expr.SourcedOption known (value.map Expr.strip) ↔ Expr.SourcedOption known value := by
  cases value with
  | none => simp [Expr.SourcedOption]
  | some expr => simpa [Expr.SourcedOption] using Expr.sourced_strip known expr

mutual
theorem Stmt.sourced_strip (known : List Token) : (stmt : Stmt ν) → (stmt.strip.Sourced known ↔ stmt.Sourced known)
  | .ret _ value | .var _ value => and_congr_right' (Expr.sourcedOption_strip known value)
  | .print _ value => and_congr_right' (Expr.sourced_strip known value)
  | .expr value => Expr.sourced_strip known value
  | .block body => Stmt.sourcedAll_strip known body
  | .func _ _ body => and_congr_right' (and_congr_right' (Stmt.sourcedAll_strip known body))
  | .branch condition yes none => and_congr (Expr.sourced_strip known condition) (Stmt.sourced_strip known yes)
  | .branch condition yes (some no) =>
      and_congr (Expr.sourced_strip known condition)
        (and_congr (Stmt.sourced_strip known yes) (Stmt.sourced_strip known no))
  | .loop condition body => and_congr (Expr.sourced_strip known condition) (Stmt.sourced_strip known body)
theorem Stmt.sourcedAll_strip (known : List Token) : (stmts : List (Stmt ν)) →
    (Stmt.SourcedAll known (Stmt.stripAll stmts) ↔ Stmt.SourcedAll known stmts)
  | [] => Iff.rfl
  | first :: rest => and_congr (Stmt.sourced_strip known first) (Stmt.sourcedAll_strip known rest)
end

end Treewalk
