import Treewalk.Proofs.Numbering
import Treewalk.Proofs.Parsing

/-!
Where declarations stand, and assignments inside the initializer of the variable they assign. In a program that
was read without a mistake, declarations stand in the lists of the program, of blocks and of function bodies,
never alone as a branch or the body of a loop.
-/

set_option autoImplicit false

namespace Treewalk

variable {ν : Type}

def Stmt.isDeclaration : Stmt ν → Bool
  | .var _ _ => true
  | .func _ _ _ => true
  | _ => false

mutual
def Stmt.placed : Stmt ν → Bool
  | .block body => Stmt.placedAll body
  | .func _ _ body => Stmt.placedAll body
  | .branch _ yes none => yes.placed && !yes.isDeclaration
  | .branch _ yes (some no) => yes.placed && !yes.isDeclaration && (no.placed && !no.isDeclaration)
  | .loop _ body => body.placed && !body.isDeclaration
  | _ => true
def Stmt.placedAll : List (Stmt ν) → Bool
  | [] => true
  | first :: rest => first.placed && Stmt.placedAll rest
end

-- A statement that declares nothing leaves the scopes as they are.
theorem Stmt.after_placed : (stmt : Stmt ν) → (scopes : List Scope) → stmt.placed = true →
    stmt.isDeclaration = false → stmt.after scopes = scopes
  | .ret _ _, _, _, _ => rfl
  | .print _ _, _, _, _ => rfl
  | .expr _, _, _, _ => rfl
  | .var _ _, _, _, declares => by cases declares
  | .block _, _, _, _ => rfl
  | .func _ _ _, _, _, declares => by cases declares
  | .branch _ yes none, scopes, placed, _ => by
      simp only [Stmt.placed, Bool.and_eq_true, Bool.not_eq_true'] at placed
      exact Stmt.after_placed yes scopes placed.1 placed.2
  | .branch _ yes (some no), scopes, placed, _ => by
      simp only [Stmt.placed, Bool.and_eq_true, Bool.not_eq_true'] at placed
      obtain ⟨⟨yesPlaced, yesPlain⟩, noPlaced, noPlain⟩ := placed
      rw [Stmt.after, Stmt.after_placed yes scopes yesPlaced yesPlain]
      exact Stmt.after_placed no scopes noPlaced noPlain
  | .loop _ body, scopes, placed, _ => by
      simp only [Stmt.placed, Bool.and_eq_true, Bool.not_eq_true'] at placed
      exact Stmt.after_placed body scopes placed.1 placed.2

theorem Stmt.after_unchanged (scopes : List Scope) (stmt : Stmt ν) (placed : stmt.strip.placed = true)
    (plain : stmt.strip.isDeclaration = false) : stmt.after scopes = scopes := by
  rw [← Stmt.after_strip]
  exact Stmt.after_placed stmt.strip scopes placed plain

-- The assignments to a local variable inside its own initializer.
mutual
def Stmt.ownWrites (inner : Bool) : Stmt ν → List (Use ν)
  | .var name value =>
      if inner then (Expr.usesOption value).filter (fun use => use.writes && use.name.lexeme == name.lexeme) else []
  | .block body => Stmt.ownWritesAll true body
  | .func _ _ body => Stmt.ownWritesAll true body
  | .branch _ yes none => yes.ownWrites inner
  | .branch _ yes (some no) => yes.ownWrites inner ++ no.ownWrites inner
  | .loop _ body => body.ownWrites inner
  | _ => []
def Stmt.ownWritesAll (inner : Bool) : List (Stmt ν) → List (Use ν)
  | [] => []
  | first :: rest => first.ownWrites inner ++ Stmt.ownWritesAll inner rest
end

namespace Grammar

def Part.Placed : (part : Part) → part.Tree → Prop
  | .statement, tree => tree.placed = true ∧ tree.isDeclaration = false
  | .declaration, tree => tree.placed = true
  | .declarations, trees => Stmt.placedAll trees = true

theorem variable_placed (longest : Bool) (tokens rest : List Token) (tree : Stmt Unit)
    (derived : IsVariable longest tokens rest tree) : tree.placed = true := by
  cases derived <;> rfl

theorem counting_placed (longest : Bool) (tokens rest : List Token) (start : Option (Stmt Unit))
    (condition step : Option (Expr Unit)) (body : Stmt Unit) (starts : IsStart longest tokens rest start)
    (placed : Part.statement.Placed body) : Part.statement.Placed (Stmt.counting start condition step body) := by
  obtain ⟨inner, plain⟩ := placed
  have startPlaced : ∀ tree, start = some tree → tree.placed = true := by
    intro tree given
    cases starts with
    | nothing => cases given
    | declared _ _ _ _ _ whole =>
        cases given
        exact variable_placed longest _ _ tree whole
    | value => cases given; rfl
  cases step with
  | none =>
      cases start with
      | none => exact ⟨by simp [Stmt.counting, Stmt.placed, inner, plain], rfl⟩
      | some tree =>
          exact ⟨by simp [Stmt.counting, Stmt.placed, Stmt.placedAll, inner, plain, startPlaced tree rfl], rfl⟩
  | some step =>
      have roundPlain : (Stmt.block [body, .expr step]).isDeclaration = false := rfl
      cases start with
      | none => exact ⟨by simp [Stmt.counting, Stmt.placed, Stmt.placedAll, inner, roundPlain], rfl⟩
      | some tree =>
          exact ⟨by simp [Stmt.counting, Stmt.placed, Stmt.placedAll, inner, roundPlain, startPlaced tree rfl], rfl⟩

theorem builds_placed (longest : Bool) (part : Part) (tokens rest : List Token) (tree : part.Tree)
    (built : Builds longest part tokens rest tree) : part.Placed tree := by
  induction built with
  | counting _ _ tokens afterStart _ _ _ start condition step body _ _ starts _ _ _ ih =>
      exact counting_placed longest tokens afterStart start condition step body starts ih
  | branch _ _ _ _ _ _ _ _ _ _ ih =>
      obtain ⟨placed, plain⟩ := ih
      exact ⟨by simp [Stmt.placed, placed, plain], rfl⟩
  | branches _ _ _ _ _ _ _ _ _ _ _ _ _ _ ihYes ihNo =>
      obtain ⟨yesPlaced, yesPlain⟩ := ihYes
      obtain ⟨noPlaced, noPlain⟩ := ihNo
      exact ⟨by simp [Stmt.placed, yesPlaced, yesPlain, noPlaced, noPlain], rfl⟩
  | print => exact ⟨rfl, rfl⟩
  | ret => exact ⟨rfl, rfl⟩
  | loop _ _ _ _ _ _ _ _ _ ih =>
      obtain ⟨placed, plain⟩ := ih
      exact ⟨by simp [Stmt.placed, placed, plain], rfl⟩
  | block _ _ _ _ _ _ _ _ ih => exact ⟨ih, rfl⟩
  | expr => exact ⟨rfl, rfl⟩
  | var _ tokens rest tree _ declared => exact variable_placed longest tokens rest tree declared
  | func _ _ _ _ _ _ _ _ _ _ _ _ ih => exact ih
  | statement _ _ _ _ ih => exact ih.1
  | none => rfl
  | more _ _ _ _ _ _ _ ihFirst ihLater =>
      change (_ && _) = true
      rw [Bool.and_eq_true]
      exact ⟨ihFirst, ihLater⟩

theorem readProgram_placed (tokens : List Token) (clean : (readProgram tokens).errors = []) :
    Stmt.placedAll (readProgram tokens).result = true := by
  have built := (program_clean_iff (Input.ofTokens tokens) _ (ofTokens_stop tokens)).mp ⟨clean, rfl⟩
  exact builds_placed true .declarations _ [] _ built

end Grammar

end Treewalk
