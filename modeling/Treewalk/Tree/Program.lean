import Treewalk.Tree.Statement

/-!
Programs and single expressions read from tokens. Tokens from the first end of input on do not count; where
there is none, the input ends on the line of its last token.
-/

set_option autoImplicit false

namespace Treewalk

structure Input where
  tokens : List Token
  stop : Token
deriving Repr

def Input.ofTokens (tokens : List Token) : Input :=
  let body := tokens.takeWhile (·.kind ≠ .endOfInput)
  let added := Token.endAt (tokens.getLast?.elim 1 Token.line)
  ⟨body, (tokens.find? (·.kind = .endOfInput)).getD added⟩

/-- A bound on how deep readings nest, given the number of tokens. -/
def Input.bound (input : Input) : Nat := 24 * (input.tokens.length + 2)

structure Parsed (α : Type) where
  result : α
  errors : List ParseError
deriving Repr

def Input.program (input : Input) : Parsed (List (Stmt Unit)) :=
  let reply := readDeclarations input.bound false input.stop input.tokens
  ⟨reply.result.getD [], reply.errors⟩

-- One expression and nothing behind it.
def Input.whole (input : Input) : Reading (Expr Unit) := do
  let value ← readExpr input.bound true
  if ← Reading.atEnd then return value else Reading.failHere .endOfExpression

-- A single expression, if it can be read without any mistake.
def Input.expression (input : Input) : Parsed (Option (Expr Unit)) :=
  let reply := input.whole input.stop input.tokens
  ⟨if reply.errors.isEmpty then reply.result else none, reply.errors⟩

def readProgram (tokens : List Token) : Parsed (List (Stmt Unit)) := (Input.ofTokens tokens).program

def readExpression (tokens : List Token) : Parsed (Option (Expr Unit)) := (Input.ofTokens tokens).expression

end Treewalk
