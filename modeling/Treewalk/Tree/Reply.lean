import Treewalk.Tree.Basic

/-!
Reading trees from tokens. A reading yields a tree or fails; either way it leaves the tokens it did not use
and keeps the mistakes it reported. The end of the input is a token of its own, used only to point at.
-/

set_option autoImplicit false

namespace Treewalk

inductive ParseCause where
  | endOfExpression | variableName | semicolonAfterVariable
  | functionName | parenAfterFunctionName | tooManyParameters | parameterName | parenAfterParameters
  | braceBeforeBody
  | parenAfterFor | semicolonAfterCondition | parenAfterClauses
  | parenAfterIf | parenAfterIfCondition
  | semicolonAfterPrint | semicolonAfterReturn | parenAfterWhile | parenAfterWhileCondition
  | braceAfterBlock | semicolonAfterExpression
  | assignmentTarget | missingLeftOperand | colonInTernary
  | tooManyArguments | parenAfterArguments | literalValue | parenAfterExpression | expression
deriving DecidableEq, Repr

def ParseCause.message : ParseCause → String
  | endOfExpression => "Expect end of expression."
  | variableName => "Expect variable name."
  | semicolonAfterVariable => "Expect ';' after variable declaration."
  | functionName => "Expect function name."
  | parenAfterFunctionName => "Expect '(' after function name."
  | tooManyParameters => "Can't have more than 255 parameters."
  | parameterName => "Expect parameter name."
  | parenAfterParameters => "Expect ')' after parameters."
  | braceBeforeBody => "Expect '\x7b' before function body."
  | parenAfterFor => "Expect '(' after 'for'."
  | semicolonAfterCondition => "Expect ';' after loop condition."
  | parenAfterClauses => "Expect ')' after for clauses."
  | parenAfterIf => "Expect '(' after 'if'."
  | parenAfterIfCondition => "Expect ')' after if condition."
  | semicolonAfterPrint => "Expect ';' after value."
  | semicolonAfterReturn => "Expect ';' after return value."
  | parenAfterWhile => "Expect '(' after 'while'."
  | parenAfterWhileCondition => "Expect ')' after condition."
  | braceAfterBlock => "Expect '\x7d' after block."
  | semicolonAfterExpression => "Expect ';' after expression."
  | assignmentTarget => "Invalid assignment target."
  | missingLeftOperand => "Binary operator without left-hand operand."
  | colonInTernary => "Expect ':' after then branch of conditional expression."
  | tooManyArguments => "Can't have more than 255 arguments."
  | parenAfterArguments => "Expect ')' after arguments."
  | literalValue => "Expect literal value."
  | parenAfterExpression => "Expect ')' after expression."
  | expression => "Expect expression."

/-- A complaint about a token. The end of the input has no spelling to show. -/
def Token.complaint (token : Token) (message : String) : String :=
  let place := if token.kind = .endOfInput then "end" else "'" ++ token.lexeme ++ "'"
  "[line " ++ toString token.line ++ "] Error at " ++ place ++ ": " ++ message

structure ParseError where
  token : Token
  cause : ParseCause
deriving Repr

def ParseError.display (error : ParseError) : String := error.token.complaint error.cause.message

structure Reply (α : Type) where
  result : Option α
  rest : List Token
  errors : List ParseError

/-- A reading, given the token at the end and the tokens before it. -/
def Reading (α : Type) : Type := Token → List Token → Reply α

namespace Reading

variable {α β : Type}

@[inline] protected def pure (value : α) : Reading α := fun _ tokens => ⟨some value, tokens, []⟩

@[inline] protected def bind (first : Reading α) (next : α → Reading β) : Reading β := fun stop tokens =>
  match first stop tokens with
  | ⟨none, rest, errors⟩ => ⟨none, rest, errors⟩
  | ⟨some value, rest, errors⟩ =>
      let reply := next value stop rest
      ⟨reply.result, reply.rest, errors ++ reply.errors⟩

instance : Monad Reading where
  pure := Reading.pure
  bind := Reading.bind

-- The next token, which may be the end.
def peek : Reading Token := fun stop tokens => ⟨some (tokens.head?.getD stop), tokens, []⟩

-- Reports a mistake and goes on.
def report (token : Token) (cause : ParseCause) : Reading Unit := fun _ tokens =>
  ⟨some (), tokens, [⟨token, cause⟩]⟩

def fail (token : Token) (cause : ParseCause) : Reading α := fun _ tokens => ⟨none, tokens, [⟨token, cause⟩]⟩

-- Fails at the next token.
def failHere (cause : ParseCause) : Reading α := peek >>= (fail · cause)

-- Takes the next token if its kind is wanted.
def accept (wanted : Kind → Bool) : Reading (Option Token) := fun _ tokens =>
  match tokens with
  | [] => ⟨some none, [], []⟩
  | first :: rest => if wanted first.kind then ⟨some (some first), rest, []⟩ else ⟨some none, tokens, []⟩

-- Whether the next token is of a kind.
def nextIs (kind : Kind) : Reading Bool := fun _ tokens =>
  ⟨some (tokens.head?.any (·.kind = kind)), tokens, []⟩

def atEnd : Reading Bool := fun _ tokens => ⟨some tokens.isEmpty, tokens, []⟩

-- Takes the next token, which has to be of a kind.
def expect (kind : Kind) (cause : ParseCause) : Reading Token := do
  match ← accept (· = kind) with
  | some token => return token
  | none => failHere cause

end Reading

end Treewalk
