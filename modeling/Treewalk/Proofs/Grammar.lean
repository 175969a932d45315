import Treewalk.Proofs.Readings

/-!
The grammar of the language over token kinds, and the trees that its derivations build. A derivation takes
tokens off the front of a list and leaves the rest. The plain grammar is ambiguous in two places: behind a
conditional, whose last branch may end before a further operator or take it in, and at an `else` behind two
`if`s. The longest derivations are those in which nothing optional is left out that could be taken.
-/

set_option autoImplicit false

namespace Treewalk.Grammar

-- What expressions are made of. `joined` and `calls` are what may follow a first operand or a callee.
inductive Symbol where
  | expr (commas : Bool)
  | level (commas : Bool) (level : Level)
  | joined (commas : Bool) (level : Level) (left : Expr Unit)
  | operand (commas : Bool) (level : Level)
  | ternary (commas : Bool)
  | unary
  | calls (callee : Expr Unit)
  | arguments (count : Nat)
  | primary

@[reducible] def Symbol.Tree : Symbol → Type
  | .arguments _ => List (Expr Unit)
  | _ => Expr Unit

-- The next tighter level of binary operators, where the operands of a level are built from one.
def tighter? : Level → Option Level
  | .disjunction => some .conjunction
  | .conjunction => some .sequence
  | .sequence => none
  | .equality => some .comparison
  | .comparison => some .term
  | .term => some .factor
  | .factor => none

-- In a longest derivation an optional part is left out only where its first token is missing.
def Ends (longest : Bool) (more : Kind → Bool) (rest : List Token) : Prop := longest = true → ¬ Ahead more rest

inductive Derives (longest : Bool) : (symbol : Symbol) → List Token → List Token → symbol.Tree → Prop where
  | assign (commas : Bool) (name equals : Token) (tokens rest : List Token) (value : Expr Unit)
      (isName : name.kind = .identifier) (isEquals : equals.kind = .equal)
      (assigned : Derives longest (.expr commas) tokens rest value) :
      Derives longest (.expr commas) (name :: equals :: tokens) rest (.assign () name value)
  | operators (commas : Bool) (tokens rest : List Token) (tree : Expr Unit)
      (whole : Derives longest (.level commas .disjunction) tokens rest tree)
      (ends : Ends longest (· = .equal) rest) : Derives longest (.expr commas) tokens rest tree
  | level (commas : Bool) (level : Level) (tokens middle rest : List Token) (first tree : Expr Unit)
      (operand : Derives longest (.operand commas level) tokens middle first)
      (others : Derives longest (.joined commas level first) middle rest tree) :
      Derives longest (.level commas level) tokens rest tree
  | alone (commas : Bool) (level : Level) (left : Expr Unit) (rest : List Token)
      (ends : Ends longest (level.joins commas) rest) :
      Derives longest (.joined commas level left) rest rest left
  | joined (commas : Bool) (level : Level) (left right tree : Expr Unit) (operator : Token)
      (tokens middle rest : List Token) (joins : level.joins commas operator.kind = true)
      (operand : Derives longest (.operand commas level) tokens middle right)
      (others : Derives longest (.joined commas level (level.join left operator right)) middle rest tree) :
      Derives longest (.joined commas level left) (operator :: tokens) rest tree
  | tighter (commas : Bool) (level below : Level) (tokens rest : List Token) (tree : Expr Unit)
      (next : tighter? level = some below) (whole : Derives longest (.level commas below) tokens rest tree) :
      Derives longest (.operand commas level) tokens rest tree
  | ofSequence (commas : Bool) (tokens rest : List Token) (tree : Expr Unit)
      (whole : Derives longest (.ternary commas) tokens rest tree) :
      Derives longest (.operand commas .sequence) tokens rest tree
  | ofFactor (commas : Bool) (tokens rest : List Token) (tree : Expr Unit)
      (whole : Derives longest .unary tokens rest tree) :
      Derives longest (.operand commas .factor) tokens rest tree
  | unconditional (commas : Bool) (tokens rest : List Token) (tree : Expr Unit)
      (whole : Derives longest (.level commas .equality) tokens rest tree)
      (ends : Ends longest (· = .question) rest) : Derives longest (.ternary commas) tokens rest tree
  | conditional (commas : Bool) (question colon : Token) (tokens afterCondition afterYes rest : List Token)
      (condition yes no : Expr Unit)
      (test : Derives longest (.level commas .equality) tokens (question :: afterCondition) condition)
      (isQuestion : question.kind = .question)
      (chosen : Derives longest (.expr commas) afterCondition (colon :: afterYes) yes)
      (isColon : colon.kind = .colon) (otherwise : Derives longest (.expr commas) afterYes rest no) :
      Derives longest (.ternary commas) tokens rest (.ternary condition yes no)
  | signed (operator : Token) (tokens rest : List Token) (operand : Expr Unit)
      (isSign : operator.kind = .bang ∨ operator.kind = .minus)
      (whole : Derives longest .unary tokens rest operand) :
      Derives longest .unary (operator :: tokens) rest (.unary operator operand)
  | unsigned (tokens middle rest : List Token) (callee tree : Expr Unit)
      (called : Derives longest .primary tokens middle callee)
      (others : Derives longest (.calls callee) middle rest tree) : Derives longest .unary tokens rest tree
  | uncalled (callee : Expr Unit) (rest : List Token) (ends : Ends longest (· = .leftParen) rest) :
      Derives longest (.calls callee) rest rest callee
  | callNothing (callee tree : Expr Unit) (opening close : Token) (tokens rest : List Token)
      (isOpening : opening.kind = .leftParen) (isClose : close.kind = .rightParen)
      (others : Derives longest (.calls (.call callee close [])) tokens rest tree) :
      Derives longest (.calls callee) (opening :: close :: tokens) rest tree
  | call (callee tree : Expr Unit) (arguments : List (Expr Unit)) (opening close : Token)
      (tokens middle rest : List Token) (isOpening : opening.kind = .leftParen)
      (given : Derives longest (.arguments 0) tokens (close :: middle) arguments)
      (isClose : close.kind = .rightParen)
      (others : Derives longest (.calls (.call callee close arguments)) middle rest tree) :
      Derives longest (.calls callee) (opening :: tokens) rest tree
  | lastArgument (count : Nat) (tokens rest : List Token) (last : Expr Unit) (few : count < argumentLimit)
      (given : Derives longest (.expr false) tokens rest last) (ends : Ends longest (· = .comma) rest) :
      Derives longest (.arguments count) tokens rest [last]
  | argument (count : Nat) (comma : Token) (tokens middle rest : List Token) (first : Expr Unit)
      (others : List (Expr Unit)) (few : count < argumentLimit)
      (given : Derives longest (.expr false) tokens (comma :: middle) first) (isComma : comma.kind = .comma)
      (later : Derives longest (.arguments (count + 1)) middle rest others) :
      Derives longest (.arguments count) tokens rest (first :: others)
  | truth (token : Token) (rest : List Token) (isTrue : token.kind = .kwTrue) :
      Derives longest .primary (token :: rest) rest (.literal (.boolean true))
  | falsity (token : Token) (rest : List Token) (isFalse : token.kind = .kwFalse) :
      Derives longest .primary (token :: rest) rest (.literal (.boolean false))
  | nothing (token : Token) (rest : List Token) (isNil : token.kind = .kwNil) :
      Derives longest .primary (token :: rest) rest (.literal .nil)
  | literal (token : Token) (value : Literal) (rest : List Token)
      (isLiteral : token.kind = .number ∨ token.kind = .stringLiteral)
      (decoded : token.literal = some value) :
      Derives longest .primary (token :: rest) rest (.literal value.datum)
  | named (token : Token) (rest : List Token) (isName : token.kind = .identifier) :
      Derives longest .primary (token :: rest) rest (.var () token)
  | group (opening close : Token) (tokens rest : List Token) (inner : Expr Unit)
      (isOpening : opening.kind = .leftParen)
      (whole : Derives longest (.expr true) tokens (close :: rest) inner)
      (isClose : close.kind = .rightParen) :
      Derives longest .primary (opening :: tokens) rest (.group inner)

-- An expression in which commas are operators.
def IsExpr (longest : Bool) (tokens rest : List Token) (tree : Expr Unit) : Prop :=
  Derives longest (.expr true) tokens rest tree

-- An expression up to a mark that ends it, or only the mark.
inductive IsClause (longest : Bool) (ending : Kind) : List Token → List Token → Option (Expr Unit) → Prop where
  | missing (mark : Token) (rest : List Token) (ends : mark.kind = ending) :
      IsClause longest ending (mark :: rest) rest none
  | present (mark : Token) (tokens rest : List Token) (tree : Expr Unit)
      (whole : IsExpr longest tokens (mark :: rest) tree) (ends : mark.kind = ending) :
      IsClause longest ending tokens rest (some tree)

-- A condition in parentheses.
inductive IsCondition (longest : Bool) : List Token → List Token → Expr Unit → Prop where
  | mk (opening close : Token) (tokens rest : List Token) (tree : Expr Unit)
      (isOpening : opening.kind = .leftParen) (whole : IsExpr longest tokens (close :: rest) tree)
      (isClose : close.kind = .rightParen) : IsCondition longest (opening :: tokens) rest tree

-- A declaration of a variable behind its keyword.
inductive IsVariable (longest : Bool) : List Token → List Token → Stmt Unit → Prop where
  | bare (name semicolon : Token) (rest : List Token) (isName : name.kind = .identifier)
      (ends : semicolon.kind = .semicolon) : IsVariable longest (name :: semicolon :: rest) rest (.var name none)
  | assigned (name equals semicolon : Token) (tokens rest : List Token) (value : Expr Unit)
      (isName : name.kind = .identifier) (isEquals : equals.kind = .equal)
      (whole : IsExpr longest tokens (semicolon :: rest) value) (ends : semicolon.kind = .semicolon) :
      IsVariable longest (name :: equals :: tokens) rest (.var name (some value))

-- What starts a counting loop, with its semicolon.
inductive IsStart (longest : Bool) : List Token → List Token → Option (Stmt Unit) → Prop where
  | nothing (semicolon : Token) (rest : List Token) (ends : semicolon.kind = .semicolon) :
      IsStart longest (semicolon :: rest) rest none
  | declared (keyword : Token) (tokens rest : List Token) (start : Stmt Unit) (isVar : keyword.kind = .kwVar)
      (whole : IsVariable longest tokens rest start) : IsStart longest (keyword :: tokens) rest (some start)
  | value (semicolon : Token) (tokens rest : List Token) (tree : Expr Unit)
      (whole : IsExpr longest tokens (semicolon :: rest) tree) (ends : semicolon.kind = .semicolon) :
      IsStart longest tokens rest (some (.expr tree))

-- Parameters after the first `count`.
inductive IsParams : Nat → List Token → List Token → List Token → Prop where
  | last (count : Nat) (name : Token) (rest : List Token) (few : count < argumentLimit)
      (isName : name.kind = .identifier) : IsParams count (name :: rest) rest [name]
  | more (count : Nat) (name comma : Token) (tokens rest others : List Token) (few : count < argumentLimit)
      (isName : name.kind = .identifier) (isComma : comma.kind = .comma)
      (later : IsParams (count + 1) tokens rest others) :
      IsParams count (name :: comma :: tokens) rest (name :: others)

-- The head of a function behind its keyword, up to the opening brace.
inductive IsSignature : List Token → List Token → Token → List Token → Prop where
  | none (name opening close brace : Token) (rest : List Token) (isName : name.kind = .identifier)
      (isOpening : opening.kind = .leftParen) (isClose : close.kind = .rightParen)
      (isBrace : brace.kind = .leftBrace) :
      IsSignature (name :: opening :: close :: brace :: rest) rest name []
  | some (name opening close brace : Token) (tokens rest params : List Token)
      (isName : name.kind = .identifier) (isOpening : opening.kind = .leftParen)
      (given : IsParams 0 tokens (close :: brace :: rest) params) (isClose : close.kind = .rightParen)
      (isBrace : brace.kind = .leftBrace) : IsSignature (name :: opening :: tokens) rest name params

-- What programs are made of.
inductive Part where
  | statement
  | declaration
  | declarations

@[reducible] def Part.Tree : Part → Type
  | .declarations => List (Stmt Unit)
  | _ => Stmt Unit

inductive Builds (longest : Bool) : (part : Part) → List Token → List Token → part.Tree → Prop where
  | counting (keyword opening : Token) (tokens afterStart afterCondition afterStep rest : List Token)
      (start : Option (Stmt Unit)) (condition step : Option (Expr Unit)) (body : Stmt Unit)
      (isFor : keyword.kind = .kwFor) (isOpening : opening.kind = .leftParen)
      (starts : IsStart longest tokens afterStart start)
      (tests : IsClause longest .semicolon afterStart afterCondition condition)
      (steps : IsClause longest .rightParen afterCondition afterStep step)
      (repeated : Builds longest .statement afterStep rest body) :
      Builds longest .statement (keyword :: opening :: tokens) rest (.counting start condition step body)
  | branch (keyword : Token) (tokens afterCondition rest : List Token) (condition : Expr Unit)
      (yes : Stmt Unit) (isIf : keyword.kind = .kwIf)
      (tests : IsCondition longest tokens afterCondition condition)
      (chosen : Builds longest .statement afterCondition rest yes) (ends : Ends longest (· = .kwElse) rest) :
      Builds longest .statement (keyword :: tokens) rest (.branch condition yes none)
  | branches (keyword otherwise : Token) (tokens afterCondition afterYes rest : List Token)
      (condition : Expr Unit) (yes no : Stmt Unit) (isIf : keyword.kind = .kwIf)
      (tests : IsCondition longest tokens afterCondition condition)
      (chosen : Builds longest .statement afterCondition (otherwise :: afterYes) yes)
      (isElse : otherwise.kind = .kwElse) (unchosen : Builds longest .statement afterYes rest no) :
      Builds longest .statement (keyword :: tokens) rest (.branch condition yes (some no))
  | print (keyword semicolon : Token) (tokens rest : List Token) (value : Expr Unit)
      (isPrint : keyword.kind = .kwPrint) (whole : IsExpr longest tokens (semicolon :: rest) value)
      (ends : semicolon.kind = .semicolon) :
      Builds longest .statement (keyword :: tokens) rest (.print keyword value)
  | ret (keyword : Token) (tokens rest : List Token) (value : Option (Expr Unit))
      (isReturn : keyword.kind = .kwReturn) (whole : IsClause longest .semicolon tokens rest value) :
      Builds longest .statement (keyword :: tokens) rest (.ret keyword value)
  | loop (keyword : Token) (tokens afterCondition rest : List Token) (condition : Expr Unit)
      (body : Stmt Unit) (isWhile : keyword.kind = .kwWhile)
      (tests : IsCondition longest tokens afterCondition condition)
      (repeated : Builds longest .statement afterCondition rest body) :
      Builds longest .statement (keyword :: tokens) rest (.loop condition body)
  | block (opening close : Token) (tokens rest : List Token) (body : List (Stmt Unit))
      (isOpening : opening.kind = .leftBrace)
      (inner : Builds longest .declarations tokens (close :: rest) body) (isClose : close.kind = .rightBrace) :
      Builds longest .statement (opening :: tokens) rest (.block body)
  | expr (semicolon : Token) (tokens rest : List Token) (value : Expr Unit)
      (whole : IsExpr longest tokens (semicolon :: rest) value) (ends : semicolon.kind = .semicolon) :
      Builds longest .statement tokens rest (.expr value)
  | var (keyword : Token) (tokens rest : List Token) (tree : Stmt Unit) (isVar : keyword.kind = .kwVar)
      (declared : IsVariable longest tokens rest tree) :
      Builds longest .declaration (keyword :: tokens) rest tree
  | func (keyword name close : Token) (tokens afterHead rest params : List Token) (body : List (Stmt Unit))
      (isFun : keyword.kind = .kwFun) (head : IsSignature tokens afterHead name params)
      (inner : Builds longest .declarations afterHead (close :: rest) body)
      (isClose : close.kind = .rightBrace) :
      Builds longest .declaration (keyword :: tokens) rest (.func name params body)
  | statement (tokens rest : List Token) (tree : Stmt Unit)
      (whole : Builds longest .statement tokens rest tree) : Builds longest .declaration tokens rest tree
  | none (rest : List Token) : Builds longest .declarations rest rest []
  | more (tokens middle rest : List Token) (first : Stmt Unit) (others : List (Stmt Unit))
      (declared : Builds longest .declaration tokens middle first)
      (later : Builds longest .declarations middle rest others) :
      Builds longest .declarations tokens rest (first :: others)

-- All of the tokens are a program, or one expression.

def IsProgram (longest : Bool) (tokens : List Token) (program : List (Stmt Unit)) : Prop :=
  Builds longest .declarations tokens [] program

def IsWhole (longest : Bool) (tokens : List Token) (tree : Expr Unit) : Prop := IsExpr longest tokens [] tree

end Treewalk.Grammar
