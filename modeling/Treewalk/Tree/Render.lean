import Treewalk.Tree.Basic

/-!
Trees as text, fully parenthesised with the operator first. Operators and names are shown as they were
spelled; labels are not shown.
-/

set_option autoImplicit false

namespace Treewalk

def Datum.render : Datum → String
  | .text value => Text.quoted value
  | other => other.display

mutual
def Expr.render {ν : Type} : Expr ν → String
  | .literal value => value.render
  | .group inner => "(group " ++ inner.render ++ ")"
  | .unary operator operand => "(" ++ operator.lexeme ++ " " ++ operand.render ++ ")"
  | .binary left operator right => "(" ++ operator.lexeme ++ " " ++ left.render ++ " " ++ right.render ++ ")"
  | .logical left operator right => "(" ++ operator.lexeme ++ " " ++ left.render ++ " " ++ right.render ++ ")"
  | .ternary condition yes no => "(?: " ++ condition.render ++ " " ++ yes.render ++ " " ++ no.render ++ ")"
  | .comma first second => "(, " ++ first.render ++ " " ++ second.render ++ ")"
  | .var _ name => name.lexeme
  | .assign _ name value => "(= " ++ name.lexeme ++ " " ++ value.render ++ ")"
  | .call callee _ arguments => "(call " ++ callee.render ++ Expr.renderAll arguments ++ ")"
-- Each expression after a space.
def Expr.renderAll {ν : Type} : List (Expr ν) → String
  | [] => ""
  | first :: rest => " " ++ first.render ++ Expr.renderAll rest
end

mutual
def Stmt.render {ν : Type} : Stmt ν → String
  | .ret _ none => "(return)"
  | .ret _ (some value) => "(return " ++ value.render ++ ")"
  | .print _ value => "(print " ++ value.render ++ ")"
  | .expr value => "(; " ++ value.render ++ ")"
  | .var name none => "(var " ++ name.lexeme ++ ")"
  | .var name (some value) => "(var " ++ name.lexeme ++ " " ++ value.render ++ ")"
  | .block body => "(block" ++ Stmt.renderAll body ++ ")"
  | .func name params body =>
      "(fun " ++ name.lexeme ++ "(" ++ " ".intercalate (params.map Token.lexeme) ++ ")" ++
        Stmt.renderAll body ++ ")"
  | .branch condition yes none => "(if " ++ condition.render ++ " " ++ yes.render ++ ")"
  | .branch condition yes (some no) =>
      "(if " ++ condition.render ++ " " ++ yes.render ++ " " ++ no.render ++ ")"
  | .loop condition body => "(while " ++ condition.render ++ " " ++ body.render ++ ")"
-- Each statement after a space.
def Stmt.renderAll {ν : Type} : List (Stmt ν) → String
  | [] => ""
  | first :: rest => " " ++ first.render ++ Stmt.renderAll rest
end

end Treewalk
