import Treewalk.Proofs.Operators
import Treewalk.Proofs.Placement

/-!
The trees that reading builds, with mistakes or without. An operator is always one that its node is for, a literal is
nothing to call, and declarations stand in the lists of the program, of blocks and of function bodies, never alone as a
branch or the body of a loop. Such operators never answer nil, which stands for kinds that are no operators.
-/

set_option autoImplicit false

namespace Treewalk

variable {ν ρ : Type}

def Kind.isUnary (kind : Kind) : Bool := kind = .minus || kind = .bang

def Kind.isBinary (kind : Kind) : Bool :=
  kind = .equalEqual || kind = .bangEqual || kind = .greater || kind = .greaterEqual || kind = .less ||
    kind = .lessEqual || kind = .plus || kind = .minus || kind = .star || kind = .slash

def Kind.isLogical (kind : Kind) : Bool := kind = .kwAnd || kind = .kwOr

mutual
def Expr.Proper : Expr ν → Prop
  | .literal value => (Value.datum value : Value ν).arity? = none
  | .group inner => inner.Proper
  | .unary operator operand => operator.kind.isUnary = true ∧ operand.Proper
  | .binary left operator right => operator.kind.isBinary = true ∧ left.Proper ∧ right.Proper
  | .logical left operator right => operator.kind.isLogical = true ∧ left.Proper ∧ right.Proper
  | .ternary condition yes no => condition.Proper ∧ yes.Proper ∧ no.Proper
  | .comma first second => first.Proper ∧ second.Proper
  | .var _ _ => True
  | .assign _ _ value => value.Proper
  | .call callee _ arguments => callee.Proper ∧ Expr.ProperAll arguments
def Expr.ProperAll : List (Expr ν) → Prop
  | [] => True
  | first :: rest => first.Proper ∧ Expr.ProperAll rest
end

mutual
def Stmt.Proper : Stmt ν → Prop
  | .ret _ value => ∀ expr ∈ value, expr.Proper
  | .print _ value => value.Proper
  | .expr value => value.Proper
  | .var _ value => ∀ expr ∈ value, expr.Proper
  | .block body => Stmt.ProperAll body
  | .func _ _ body => Stmt.ProperAll body
  | .branch condition yes none => condition.Proper ∧ yes.Proper ∧ yes.isDeclaration = false
  | .branch condition yes (some no) =>
      condition.Proper ∧ (yes.Proper ∧ yes.isDeclaration = false) ∧ no.Proper ∧ no.isDeclaration = false
  | .loop condition body => condition.Proper ∧ body.Proper ∧ body.isDeclaration = false
def Stmt.ProperAll : List (Stmt ν) → Prop
  | [] => True
  | first :: rest => first.Proper ∧ Stmt.ProperAll rest
end

theorem Expr.properAll_iff (exprs : List (Expr ν)) : Expr.ProperAll exprs ↔ ∀ expr ∈ exprs, expr.Proper := by
  induction exprs with
  | nil => simp [Expr.ProperAll]
  | cons first rest ih => rw [Expr.ProperAll, ih, List.forall_mem_cons]

theorem Stmt.properAll_iff (stmts : List (Stmt ν)) : Stmt.ProperAll stmts ↔ ∀ stmt ∈ stmts, stmt.Proper := by
  induction stmts with
  | nil => simp [Stmt.ProperAll]
  | cons first rest ih => rw [Stmt.ProperAll, ih, List.forall_mem_cons]

-- What is read is proper.

namespace Grammar

-- The node that joins two operands at a level, by its operator.
inductive Joint (level : Level) (kind : Kind) : Prop where
  | logical (shape : ∀ (left right : Expr Unit) operator, level.join left operator right = .logical left operator right)
      (fits : kind.isLogical = true)
  | comma (shape : ∀ (left right : Expr Unit) operator, level.join left operator right = .comma left right)
  | binary (shape : ∀ (left right : Expr Unit) operator, level.join left operator right = .binary left operator right)
      (fits : kind.isBinary = true)

theorem joint_of_joins (commas : Bool) (level : Level) (kind : Kind) (joins : level.joins commas kind = true) :
    Joint level kind := by
  cases level with
  | disjunction | conjunction =>
      refine .logical (fun _ _ _ => rfl) ?_
      simp_all [Level.joins, Kind.isLogical]
  | sequence => exact .comma fun _ _ _ => rfl
  | equality | comparison | term | factor =>
      refine .binary (fun _ _ _ => rfl) ?_
      grind [Level.joins, Kind.isBinary]

theorem proper_join (commas : Bool) (level : Level) (left right : Expr Unit) (operator : Token)
    (joins : level.joins commas operator.kind = true) (ofLeft : left.Proper) (ofRight : right.Proper) :
    (level.join left operator right).Proper := by
  cases joint_of_joins commas level operator.kind joins with
  | logical shape fits | binary shape fits =>
      rw [shape]
      exact ⟨fits, ofLeft, ofRight⟩
  | comma shape =>
      rw [shape]
      exact ⟨ofLeft, ofRight⟩

-- A statement by itself is never a declaration, so branches and bodies of loops are none.
theorem proper_composes (known : List Token) :
    Composes known Expr.Proper (fun stmt => stmt.Proper ∧ stmt.isDeclaration = false) Stmt.Proper where
  literal _ _ := rfl
  group _ ofInner := ofInner
  unary operator _ _ fits ofOperand := ⟨by simpa [Kind.isUnary, or_comm] using fits, ofOperand⟩
  join commas level left operator right _ joins := proper_join commas level left right operator joins
  ternary _ _ _ ofCondition ofYes ofNo := ⟨ofCondition, ofYes, ofNo⟩
  var _ _ := trivial
  assign _ _ _ ofValue := ofValue
  call _ _ arguments ofCallee _ ofArguments := ⟨ofCallee, (Expr.properAll_iff arguments).mpr ofArguments⟩
  ret _ _ _ ofValue := ⟨ofValue, rfl⟩
  print _ _ _ ofValue := ⟨ofValue, rfl⟩
  expr _ ofValue := ⟨ofValue, rfl⟩
  block body ofBody := ⟨(Stmt.properAll_iff body).mpr ofBody, rfl⟩
  branch _ _ no ofCondition ofYes ofNo := by
    cases no with
    | none => exact ⟨⟨ofCondition, ofYes⟩, rfl⟩
    | some no => exact ⟨⟨ofCondition, ofYes, ofNo no rfl⟩, rfl⟩
  loop _ _ ofCondition ofBody := ⟨⟨ofCondition, ofBody⟩, rfl⟩
  defines _ _ _ ofValue := ofValue
  func _ _ body _ _ ofBody := (Stmt.properAll_iff body).mpr ofBody
  statement _ ofStmt := ofStmt.1

theorem readProgram_proper (tokens : List Token) : ∀ stmt ∈ (readProgram tokens).result, stmt.Proper :=
  (program_composed (Input.ofTokens tokens) ((Input.ofTokens tokens).stop :: (Input.ofTokens tokens).tokens)
    (by simp) (by simp) (proper_composes _)).1

theorem readExpression_proper (tokens : List Token) (tree : Expr Unit)
    (given : (readExpression tokens).result = some tree) : tree.Proper :=
  expression_composed (Input.ofTokens tokens) ((Input.ofTokens tokens).stop :: (Input.ofTokens tokens).tokens)
    (by simp) (by simp) (proper_composes _) tree given

end Grammar

-- Operators answer nil exactly for kinds that are none of theirs.

theorem applyUnary_nil_iff (operator : Token) (operand : Value ν ρ) :
    applyUnary operator operand = .ok .nil ↔ operator.kind.isUnary = false := by
  unfold applyUnary
  cases operator.kind with
  | minus => cases operand.number? <;> simp [Kind.isUnary, Value.number, Value.nil]
  | bang => simp [Kind.isUnary, Value.boolean, Value.nil]
  | _ => simp [Kind.isUnary]

theorem onNumbers_not_nil (operator : Token) (left right : Value ν ρ) (build : Float → Float → Datum)
    (other : ∀ first second, build first second ≠ .nil) :
    onNumbers operator left right (fun first second => (.datum (build first second) : Value ν ρ)) ≠ .ok .nil := by
  unfold onNumbers
  cases left.number? with
  | none => simp
  | some first =>
      cases right.number? with
      | none => simp
      | some second => simpa [Value.nil] using other first second

theorem addValues_not_nil (line : Int) (left right : Value ν ρ) : addValues line left right ≠ .ok .nil := by
  unfold addValues
  split
  · simp [Value.number, Value.nil]
  · split <;> simp [Value.text, Value.nil]

theorem divideValues_not_nil (operator : Token) (left right : Value ν ρ) : divideValues operator left right ≠ .ok .nil := by
  unfold divideValues
  split
  · simp
  · rw [onNumbers_map]
    exact onNumbers_not_nil operator left right _ (by simp)

theorem applyBinary_nil_iff (operator : Token) (left right : Value ν ρ) :
    applyBinary operator left right = .ok .nil ↔ operator.kind.isBinary = false := by
  have numbers (build : Float → Float → Datum) (other : ∀ first second, build first second ≠ .nil) :=
    iff_of_false (onNumbers_not_nil operator left right build other) Bool.true_eq_false.mp
  unfold applyBinary
  cases operator.kind <;> simp only [onNumbers_map]
  case plus => exact iff_of_false (addValues_not_nil operator.line left right) Bool.true_eq_false.mp
  case slash => exact iff_of_false (divideValues_not_nil operator left right) Bool.true_eq_false.mp
  case minus | star => exact numbers _ (by simp)
  case greater | greaterEqual | less | lessEqual => exact numbers _ (by simp)
  case equalEqual | bangEqual => simp [Kind.isBinary, Value.boolean, Value.nil]
  all_goals simp [Kind.isBinary]

end Treewalk
