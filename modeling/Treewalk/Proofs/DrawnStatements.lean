import Treewalk.Proofs.DrawnReadings

/-!
Statements read with numbers. A counting loop is taken apart and put together again as a plain loop, and a declaration that
cannot be read is left out; the numbers of what remains are those of its parts, in another order.
-/

set_option autoImplicit false

namespace Treewalk

def Expr.labelsOption (value : Option (Expr NodeId)) : List Nat := value.elim [] Expr.labels

mutual
def Stmt.labels : Stmt NodeId → List Nat
  | .ret _ value => Expr.labelsOption value
  | .print _ value => value.labels
  | .expr value => value.labels
  | .var _ value => Expr.labelsOption value
  | .block body => Stmt.labelsAll body
  | .func _ _ body => Stmt.labelsAll body
  | .branch condition yes none => condition.labels ++ yes.labels
  | .branch condition yes (some no) => condition.labels ++ yes.labels ++ no.labels
  | .loop condition body => condition.labels ++ body.labels
def Stmt.labelsAll : List (Stmt NodeId) → List Nat
  | [] => []
  | first :: rest => first.labels ++ Stmt.labelsAll rest
end

def Stmt.labelsOption (stmt : Option (Stmt NodeId)) : List Nat := stmt.elim [] Stmt.labels

theorem Expr.uses_labelsOption (value : Option (Expr NodeId)) :
    (Expr.usesOption value).map Use.label = Expr.labelsOption value := by
  cases value <;> rfl

-- The labels of a program are those of its mentions.
mutual
theorem Stmt.mentions_labels : (stmt : Stmt NodeId) → (inFunction : Bool) → (scopes : List Scope) →
    (stmt.mentions inFunction scopes).flatMap Mention.labels = stmt.labels
  | .ret _ value, _, scopes => (labels_of_uses _ scopes).trans (Expr.uses_labelsOption value)
  | .print _ value, _, scopes => labels_of_uses value.uses scopes
  | .expr value, _, scopes => labels_of_uses value.uses scopes
  | .var name value, _, scopes => (labels_of_uses _ (Scope.declare name scopes)).trans (Expr.uses_labelsOption value)
  | .block body, inFunction, scopes => Stmt.mentionsAll_labels body inFunction ([] :: scopes)
  | .func name params body, _, scopes => by
      change (bindingMentions _ params ++ Stmt.mentionsAll true _ body).flatMap Mention.labels = Stmt.labelsAll body
      rw [List.flatMap_append, labels_of_bindings]
      exact Stmt.mentionsAll_labels body true _
  | .branch condition yes none, inFunction, scopes => by
      rw [Stmt.mentions, List.flatMap_append, labels_of_uses, Stmt.mentions_labels yes inFunction scopes]
      rfl
  | .branch condition yes (some no), inFunction, scopes => by
      rw [Stmt.mentions, List.flatMap_append, List.flatMap_append, labels_of_uses,
        Stmt.mentions_labels yes inFunction scopes, Stmt.mentions_labels no inFunction _]
      rfl
  | .loop condition body, inFunction, scopes => by
      rw [Stmt.mentions, List.flatMap_append, labels_of_uses, Stmt.mentions_labels body inFunction scopes]
      rfl
theorem Stmt.mentionsAll_labels : (stmts : List (Stmt NodeId)) → (inFunction : Bool) → (scopes : List Scope) →
    (Stmt.mentionsAll inFunction scopes stmts).flatMap Mention.labels = Stmt.labelsAll stmts
  | [], _, _ => rfl
  | first :: rest, inFunction, scopes => by
      rw [Stmt.mentionsAll, List.flatMap_append, Stmt.mentions_labels first inFunction scopes,
        Stmt.mentionsAll_labels rest inFunction _]
      rfl
end

theorem counting_strip (start : Option (Stmt NodeId)) (condition step : Option (Expr NodeId)) (body : Stmt NodeId) :
    (Stmt.counting start condition step body).strip =
      .counting (start.map Stmt.strip) (condition.map Expr.strip) (step.map Expr.strip) body.strip := by
  cases start <;> cases condition <;> cases step <;> rfl

-- The step of a counting loop stands before its body in the text and behind it in the tree.
theorem counting_labels (start : Option (Stmt NodeId)) (condition step : Option (Expr NodeId)) (body : Stmt NodeId) :
    (Stmt.counting start condition step body).labels.Perm
      (Stmt.labelsOption start ++ Expr.labelsOption condition ++ Expr.labelsOption step ++ body.labels) := by
  have ofCondition : (condition.getD (.literal (.boolean true))).labels = Expr.labelsOption condition := by
    cases condition <;> rfl
  have swapped (step : Expr NodeId) : (body.labels ++ step.labels).Perm (step.labels ++ body.labels) :=
    List.perm_append_comm
  cases start <;> cases step <;>
    simp [Stmt.counting, Stmt.labels, Stmt.labelsAll, Stmt.labelsOption, Expr.labelsOption, ofCondition,
      List.perm_append_left_iff, swapped]

namespace Drawing

open Reading

theorem draws_none {held : List Nat} :
    Draws held (Option.map Expr.strip) Expr.labelsOption (pure none) (pure none) :=
  draws_pure (List.nil_subperm ..)

section simple

variable (bound : Nat)

theorem expr_option_draws : Draws [] (Option.map Expr.strip) Expr.labelsOption (some <$> expr bound true)
    (some <$> readExpr bound true) :=
  draws_some ((all_draw bound).expr true)

theorem varDecl_draws : Draws [] Stmt.strip Stmt.labels (varDecl bound) (readVariable bound) := by
  refine draws_bind draws_plain fun name => ?_
  have behind (value : Option (Expr NodeId)) : Draws (Expr.labelsOption value) Stmt.strip Stmt.labels
      (plain (expect .semicolon .semicolonAfterVariable) >>= fun _ => pure (.var name value))
      (expect .semicolon .semicolonAfterVariable >>= fun _ => pure (.var name (value.map Expr.strip))) :=
    draws_bind draws_plain fun _ => draws_pure (List.Subperm.refl _)
  refine draws_bind draws_plain fun taken => ?_
  cases taken with
  | none => exact draws_bind draws_none behind
  | some equals => exact draws_bind (expr_option_draws bound) behind

theorem exprStmt_draws : Draws [] Stmt.strip Stmt.labels (exprStmt bound) (readExprStmt bound) := by
  refine draws_bind ((all_draw bound).expr true) fun value => ?_
  exact draws_bind draws_plain fun _ => draws_pure (List.Subperm.refl _)

theorem print_draws (keyword : Token) :
    Draws [] Stmt.strip Stmt.labels (print bound keyword) (readPrint bound keyword) := by
  refine draws_bind ((all_draw bound).expr true) fun value => ?_
  exact draws_bind draws_plain fun _ => draws_pure (List.Subperm.refl _)

theorem ret_draws (keyword : Token) : Draws [] Stmt.strip Stmt.labels (ret bound keyword) (readReturn bound keyword) := by
  have behind (value : Option (Expr NodeId)) : Draws (Expr.labelsOption value) Stmt.strip Stmt.labels
      (plain (expect .semicolon .semicolonAfterReturn) >>= fun _ => pure (.ret keyword value))
      (expect .semicolon .semicolonAfterReturn >>= fun _ => pure (.ret keyword (value.map Expr.strip))) :=
    draws_bind draws_plain fun _ => draws_pure (List.Subperm.refl _)
  refine draws_bind draws_plain fun missing => ?_
  cases missing with
  | true => exact draws_bind draws_none behind
  | false => exact draws_bind (expr_option_draws bound) behind

theorem loopStart_draws : Draws [] (Option.map Stmt.strip) Stmt.labelsOption (loopStart bound) (readStart bound) := by
  refine draws_bind draws_plain fun missing => ?_
  cases missing with
  | some semicolon => exact draws_pure (List.Subperm.refl _)
  | none =>
      refine draws_bind draws_plain fun taken => ?_
      cases taken with
      | some keyword => exact draws_some (varDecl_draws bound)
      | none => exact draws_some (exprStmt_draws bound)

theorem clause_draws (ending : Kind) (cause : ParseCause) :
    Draws [] (Option.map Expr.strip) Expr.labelsOption (clause bound ending cause) (readClause bound ending cause) := by
  have behind (value : Option (Expr NodeId)) : Draws (Expr.labelsOption value) (Option.map Expr.strip) Expr.labelsOption
      (plain (expect ending cause) >>= fun _ => pure value)
      (expect ending cause >>= fun _ => pure (value.map Expr.strip)) :=
    draws_bind draws_plain fun _ => draws_pure (List.Subperm.refl _)
  refine draws_bind draws_plain fun missing => ?_
  cases missing with
  | true => exact draws_bind draws_none behind
  | false => exact draws_bind (expr_option_draws bound) behind

theorem condition_draws (before after : ParseCause) :
    Draws [] Expr.strip Expr.labels (condition bound before after) (readCondition bound before after) := by
  refine draws_bind draws_plain fun _ => ?_
  refine draws_bind ((all_draw bound).expr true) fun value => ?_
  exact draws_bind draws_plain fun _ => draws_pure (List.Subperm.refl _)

end simple

structure AllDrawStmts (bound : Nat) : Prop where
  stmt : Draws [] Stmt.strip Stmt.labels (stmt bound) (readStmt bound)
  block : Draws [] Stmt.stripAll Stmt.labelsAll (block bound) (readBlock bound)
  declarations : ∀ inBlock, Draws [] Stmt.stripAll Stmt.labelsAll (declarations bound inBlock)
    (readDeclarations bound inBlock)
  declaration : Draws [] Stmt.strip Stmt.labels (declaration bound) (readDeclaration bound)

section step

variable (bound : Nat) (ih : AllDrawStmts bound)

include ih

theorem stmt_draws : Draws [] Stmt.strip Stmt.labels (stmt (bound + 1)) (readStmt (bound + 1)) := by
  refine draws_bind draws_plain fun token => ?_
  simp only [id]
  generalize token.kind = kind
  cases kind with
  | kwFor =>
      refine draws_bind draws_plain fun _ => draws_bind draws_plain fun _ => ?_
      refine draws_bind (loopStart_draws bound) fun start => ?_
      refine draws_bind (draws_apart (clause_draws bound _ _)) fun test => ?_
      refine draws_bind (draws_apart (clause_draws bound _ _)) fun step => ?_
      refine draws_bind (draws_apart ih.stmt) fun body => ?_
      rw [← counting_strip]
      exact draws_pure (counting_labels start test step body).subperm
  | kwIf =>
      refine draws_bind draws_plain fun _ => ?_
      refine draws_bind (condition_draws bound _ _) fun test => ?_
      refine draws_bind (draws_apart ih.stmt) fun yes => ?_
      refine draws_bind draws_plain fun taken => ?_
      cases taken with
      | none => exact draws_pure (List.Subperm.refl _)
      | some keyword => exact draws_bind (draws_apart ih.stmt) fun no => draws_pure (List.Subperm.refl _)
  | kwPrint => exact draws_bind draws_plain fun _ => print_draws bound token
  | kwReturn => exact draws_bind draws_plain fun _ => ret_draws bound token
  | kwWhile =>
      refine draws_bind draws_plain fun _ => ?_
      refine draws_bind (condition_draws bound _ _) fun test => ?_
      exact draws_bind (draws_apart ih.stmt) fun body => draws_pure (List.Subperm.refl _)
  | leftBrace => exact draws_bind draws_plain fun _ => draws_bind ih.block fun body => draws_pure (List.Subperm.refl _)
  | _ => exact exprStmt_draws bound

theorem block_draws : Draws [] Stmt.stripAll Stmt.labelsAll (block (bound + 1)) (readBlock (bound + 1)) := by
  refine draws_bind (ih.declarations true) fun body => ?_
  exact draws_bind draws_plain fun _ => draws_pure (List.Subperm.refl _)

theorem recovered_draws (inBlock : Bool) : Draws [] Stmt.stripAll Stmt.labelsAll
    ((declaration bound).recover >>= fun first => declarations bound inBlock >>= fun rest => pure (first.toList ++ rest))
    ((readDeclaration bound).recover >>= fun first =>
      readDeclarations bound inBlock >>= fun rest => pure (first.toList ++ rest)) := by
  refine draws_bind (draws_recover ih.declaration) fun first => ?_
  refine draws_bind (draws_apart (ih.declarations inBlock)) fun rest => ?_
  cases first with
  | none => exact draws_pure (List.Subperm.refl _)
  | some first => exact draws_pure (List.Subperm.refl _)

theorem declarations_draws (inBlock : Bool) :
    Draws [] Stmt.stripAll Stmt.labelsAll (declarations (bound + 1) inBlock) (readDeclarations (bound + 1) inBlock) := by
  have nothing : Draws [] Stmt.stripAll Stmt.labelsAll (pure []) (pure []) := draws_pure (List.Subperm.refl _)
  refine draws_bind draws_plain fun ended => ?_
  cases ended with
  | true => exact nothing
  | false =>
      cases inBlock with
      | false => exact recovered_draws bound ih false
      | true =>
          refine draws_bind draws_plain fun closed => ?_
          cases closed with
          | true => exact nothing
          | false => exact recovered_draws bound ih true

theorem declaration_draws : Draws [] Stmt.strip Stmt.labels (declaration (bound + 1)) (readDeclaration (bound + 1)) := by
  refine draws_bind draws_plain fun token => ?_
  simp only [id]
  generalize token.kind = kind
  cases kind with
  | kwVar => exact draws_bind draws_plain fun _ => varDecl_draws bound
  | kwFun =>
      refine draws_bind draws_plain fun _ => ?_
      refine draws_bind draws_plain fun head => ?_
      exact draws_bind ih.block fun body => draws_pure (List.Subperm.refl _)
  | _ => exact ih.stmt

end step

theorem all_draw_stmts (bound : Nat) : AllDrawStmts bound := by
  induction bound with
  | zero => constructor <;> intros <;> exact draws_failHere _
  | succ bound ih => exact ⟨stmt_draws bound ih, block_draws bound ih, declarations_draws bound ih, declaration_draws bound ih⟩

theorem whole_draws (input : Input) : Draws [] Expr.strip Expr.labels (whole input.bound) input.whole := by
  refine draws_bind ((all_draw input.bound).expr true) fun value => ?_
  refine draws_bind draws_plain fun ended => ?_
  cases ended with
  | true => exact draws_pure (List.Subperm.refl _)
  | false => exact draws_failHere _

end Drawing

end Treewalk
