import Treewalk.Numeral.Layout
import Treewalk.Text.Quoted

/-!
Tokens: the words, marks and literals of program text, each with its spelling and the line it starts on.
-/

set_option autoImplicit false

namespace Treewalk

inductive Kind where
  | leftParen | rightParen | leftBrace | rightBrace
  | comma | minus | plus | semicolon | slash | star | question | colon
  | bang | bangEqual | equal | equalEqual | greater | greaterEqual | less | lessEqual
  | identifier | stringLiteral | number
  | kwAnd | kwElse | kwFalse | kwFun | kwFor | kwIf | kwNil | kwOr | kwPrint | kwReturn | kwTrue | kwVar
  | kwWhile
  | endOfInput
deriving DecidableEq, Repr

-- The name under which a kind is shown.
def Kind.name : Kind → String
  | leftParen => "LeftParen"
  | rightParen => "RightParen"
  | leftBrace => "LeftBrace"
  | rightBrace => "RightBrace"
  | comma => "Comma"
  | minus => "Minus"
  | plus => "Plus"
  | semicolon => "Semicolon"
  | slash => "Slash"
  | star => "Star"
  | question => "Question"
  | colon => "Colon"
  | bang => "Bang"
  | bangEqual => "BangEqual"
  | equal => "Equal"
  | equalEqual => "EqualEqual"
  | greater => "Greater"
  | greaterEqual => "GreaterEqual"
  | less => "Less"
  | lessEqual => "LessEqual"
  | identifier => "Identifier"
  | stringLiteral => "StringLiteral"
  | number => "Number"
  | kwAnd => "And"
  | kwElse => "Else"
  | kwFalse => "False"
  | kwFun => "Fun"
  | kwFor => "For"
  | kwIf => "If"
  | kwNil => "Nil"
  | kwOr => "Or"
  | kwPrint => "Print"
  | kwReturn => "Return"
  | kwTrue => "True"
  | kwVar => "Var"
  | kwWhile => "While"
  | endOfInput => "EOF"

def Kind.all : List Kind :=
  [leftParen, rightParen, leftBrace, rightBrace, comma, minus, plus, semicolon, slash, star, question,
   colon, bang, bangEqual, equal, equalEqual, greater, greaterEqual, less, lessEqual, identifier,
   stringLiteral, number, kwAnd, kwElse, kwFalse, kwFun, kwFor, kwIf, kwNil, kwOr, kwPrint, kwReturn,
   kwTrue, kwVar, kwWhile, endOfInput]

theorem Kind.mem_all (kind : Kind) : kind ∈ Kind.all := by cases kind <;> decide

def Kind.ofName? (name : String) : Option Kind := Kind.all.find? (·.name = name)

-- What a number or a string in the text stands for.
inductive Literal where
  | number (value : Float)
  | text (value : String)
deriving Repr

structure Token where
  kind : Kind
  lexeme : String
  literal : Option Literal
  line : Int
deriving Repr

def Token.endAt (line : Int) : Token := ⟨.endOfInput, "", none, line⟩

def Literal.display : Literal → String
  | .number value => "Number(" ++ Numeral.marked value ++ ")"
  | .text value => "String(" ++ Text.quoted value ++ ")"

def Token.display (token : Token) : String :=
  let literal := match token.literal with
    | none => "None"
    | some literal => "Some(" ++ literal.display ++ ")"
  token.kind.name ++ " " ++ token.lexeme ++ " " ++ literal

end Treewalk
