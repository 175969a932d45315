import Treewalk.Value.Datum

/-!
Syntax trees. Every use of a name carries a label, by which analyses refer to it: trees straight from the
text have the labels of type `Unit`, trees that run have numbers. `relabel` changes labels and nothing else.
-/

set_option autoImplicit false

namespace Treewalk

inductive Expr (ν : Type) where
  | literal (value : Datum)
  | group (inner : Expr ν)
  | unary (operator : Token) (operand : Expr ν)
  | binary (left : Expr ν) (operator : Token) (right : Expr ν)
  | logical (left : Expr ν) (operator : Token) (right : Expr ν)
  | ternary (condition yes no : Expr ν)
  | comma (first second : Expr ν)
  | var (label : ν) (name : Token)
  | assign (label : ν) (name : Token) (value : Expr ν)
  | call (callee : Expr ν) (close : Token) (arguments : List (Expr ν))
deriving Repr

inductive Stmt (ν : Type) where
  | ret (keyword : Token) (value : Option (Expr ν))
  | print (keyword : Token) (value : Expr ν)
  | expr (value : Expr ν)
  | var (name : Token) (value : Option (Expr ν))
  | block (body : List (Stmt ν))
  | func (name : Token) (params : List Token) (body : List (Stmt ν))
  | branch (condition : Expr ν) (yes : Stmt ν) (no : Option (Stmt ν))
  | loop (condition : Expr ν) (body : Stmt ν)
deriving Repr

/-- A counting loop is a plain loop: the step runs after the body, and the start is in a scope around it. -/
def Stmt.counting {ν : Type} (start : Option (Stmt ν)) (condition step : Option (Expr ν))
    (body : Stmt ν) : Stmt ν :=
  let round := match step with
    | some step => .block [body, .expr step]
    | none => body
  let repeated := .loop (condition.getD (.literal (.boolean true))) round
  match start with
  | some start => .block [start, repeated]
  | none => repeated

mutual
def Expr.relabel {α β σ : Type} (fresh : α → StateM σ β) : Expr α → StateM σ (Expr β)
  | .literal value => return .literal value
  | .group inner => return .group (← inner.relabel fresh)
  | .unary operator operand => return .unary operator (← operand.relabel fresh)
  | .binary left operator right => return .binary (← left.relabel fresh) operator (← right.relabel fresh)
  | .logical left operator right => return .logical (← left.relabel fresh) operator (← right.relabel fresh)
  | .ternary condition yes no =>
      return .ternary (← condition.relabel fresh) (← yes.relabel fresh) (← no.relabel fresh)
  | .comma first second => return .comma (← first.relabel fresh) (← second.relabel fresh)
  | .var label name => return .var (← fresh label) name
  | .assign label name value => return .assign (← fresh label) name (← value.relabel fresh)
  | .call callee close arguments =>
      return .call (← callee.relabel fresh) close (← Expr.relabelAll fresh arguments)
def Expr.relabelAll {α β σ : Type} (fresh : α → StateM σ β) : List (Expr α) → StateM σ (List (Expr β))
  | [] => return []
  | first :: rest => return (← first.relabel fresh) :: (← Expr.relabelAll fresh rest)
end

def Expr.relabelOption {α β σ : Type} (fresh : α → StateM σ β) :
    Option (Expr α) → StateM σ (Option (Expr β))
  | none => return none
  | some value => return some (← value.relabel fresh)

mutual
def Stmt.relabel {α β σ : Type} (fresh : α → StateM σ β) : Stmt α → StateM σ (Stmt β)
  | .ret keyword value => return .ret keyword (← Expr.relabelOption fresh value)
  | .print keyword value => return .print keyword (← value.relabel fresh)
  | .expr value => return .expr (← value.relabel fresh)
  | .var name value => return .var name (← Expr.relabelOption fresh value)
  | .block body => return .block (← Stmt.relabelAll fresh body)
  | .func name params body => return .func name params (← Stmt.relabelAll fresh body)
  | .branch condition yes none =>
      return .branch (← condition.relabel fresh) (← yes.relabel fresh) none
  | .branch condition yes (some no) =>
      return .branch (← condition.relabel fresh) (← yes.relabel fresh) (some (← no.relabel fresh))
  | .loop condition body => return .loop (← condition.relabel fresh) (← body.relabel fresh)
def Stmt.relabelAll {α β σ : Type} (fresh : α → StateM σ β) : List (Stmt α) → StateM σ (List (Stmt β))
  | [] => return []
  | first :: rest => return (← first.relabel fresh) :: (← Stmt.relabelAll fresh rest)
end

-- The number that identifies a use of a name.
abbrev NodeId := Nat

-- Takes the next unused number.
def NodeId.fresh {α : Type} (_ : α) : StateM NodeId NodeId := fun next => (next, next + 1)

end Treewalk
