import Treewalk.Tree.Expression

/-!
The grammar of statements. A declaration that cannot be read is left out, and reading goes on at the next
place where a statement may start.
-/

set_option autoImplicit false

namespace Treewalk

open Reading

-- Keywords with which a statement or declaration starts.
def Kind.startsStatement (kind : Kind) : Bool :=
  kind = .kwFun || kind = .kwVar || kind = .kwFor || kind = .kwIf || kind = .kwWhile || kind = .kwPrint ||
    kind = .kwReturn

-- Drops tokens up to one behind a semicolon or one that starts a statement.
def seekStatement (behindSemicolon : Bool) : List Token → List Token
  | [] => []
  | first :: rest =>
      if behindSemicolon || first.kind.startsStatement then first :: rest
      else seekStatement (first.kind = .semicolon) rest

-- Where reading goes on after a failure: at least one token is dropped.
def resume : List Token → List Token
  | [] => []
  | first :: rest => seekStatement (first.kind = .semicolon) rest

/-- Turns a failure into nothing and moves on to the next statement. -/
def Reading.recover {α : Type} (reading : Reading α) : Reading (Option α) := fun stop tokens =>
  match reading stop tokens with
  | ⟨some value, rest, errors⟩ => ⟨some (some value), rest, errors⟩
  | ⟨none, rest, errors⟩ => ⟨some none, resume rest, errors⟩

-- A variable declaration behind its keyword.
def readVariable (bound : Nat) : Reading (Stmt Unit) := do
  let name ← expect .identifier .variableName
  let value ← match ← accept (· = .equal) with
    | some _ => some <$> readExpr bound true
    | none => pure none
  let _ ← expect .semicolon .semicolonAfterVariable
  return .var name value

def readExprStmt (bound : Nat) : Reading (Stmt Unit) := do
  let value ← readExpr bound true
  let _ ← expect .semicolon .semicolonAfterExpression
  return .expr value

def readPrint (bound : Nat) (keyword : Token) : Reading (Stmt Unit) := do
  let value ← readExpr bound true
  let _ ← expect .semicolon .semicolonAfterPrint
  return .print keyword value

def readReturn (bound : Nat) (keyword : Token) : Reading (Stmt Unit) := do
  let value ← if ← nextIs .semicolon then pure none else some <$> readExpr bound true
  let _ ← expect .semicolon .semicolonAfterReturn
  return .ret keyword value

-- Parameters after the first `count`.
def readParams : Nat → Nat → Reading (List Token)
  | 0, _ => failHere .parameterName
  | bound + 1, count => do
      if argumentLimit ≤ count then report (← peek) .tooManyParameters
      let first ← expect .identifier .parameterName
      match ← accept (· = .comma) with
      | some _ => return first :: (← readParams bound (count + 1))
      | none => return [first]

-- The head of a function behind its keyword: its name and parameters, up to the opening brace.
def readSignature (bound : Nat) : Reading (Token × List Token) := do
  let name ← expect .identifier .functionName
  let _ ← expect .leftParen .parenAfterFunctionName
  let params ← if ← nextIs .rightParen then pure [] else readParams bound 0
  let _ ← expect .rightParen .parenAfterParameters
  let _ ← expect .leftBrace .braceBeforeBody
  return (name, params)

-- What starts a counting loop; a lone semicolon starts nothing.
def readStart (bound : Nat) : Reading (Option (Stmt Unit)) := do
  match ← accept (· = .semicolon) with
  | some _ => return none
  | none => match ← accept (· = .kwVar) with
    | some _ => some <$> readVariable bound
    | none => some <$> readExprStmt bound

-- An optional clause of a counting loop, up to the mark that ends it.
def readClause (bound : Nat) (ending : Kind) (cause : ParseCause) : Reading (Option (Expr Unit)) := do
  let clause ← if ← nextIs ending then pure none else some <$> readExpr bound true
  let _ ← expect ending cause
  return clause

-- A condition in parentheses.
def readCondition (bound : Nat) (before after : ParseCause) : Reading (Expr Unit) := do
  let _ ← expect .leftParen before
  let condition ← readExpr bound true
  let _ ← expect .rightParen after
  return condition

mutual

def readStmt : Nat → Reading (Stmt Unit)
  | 0 => failHere .expression
  | bound + 1 => do
      let token ← peek
      match token.kind with
      | .kwFor =>
          let _ ← accept (· = .kwFor)
          let _ ← expect .leftParen .parenAfterFor
          let start ← readStart bound
          let condition ← readClause bound .semicolon .semicolonAfterCondition
          let step ← readClause bound .rightParen .parenAfterClauses
          let body ← readStmt bound
          return .counting start condition step body
      | .kwIf =>
          let _ ← accept (· = .kwIf)
          let condition ← readCondition bound .parenAfterIf .parenAfterIfCondition
          let yes ← readStmt bound
          match ← accept (· = .kwElse) with
          | some _ => return .branch condition yes (some (← readStmt bound))
          | none => return .branch condition yes none
      | .kwPrint => let _ ← accept (· = .kwPrint); readPrint bound token
      | .kwReturn => let _ ← accept (· = .kwReturn); readReturn bound token
      | .kwWhile =>
          let _ ← accept (· = .kwWhile)
          let condition ← readCondition bound .parenAfterWhile .parenAfterWhileCondition
          return .loop condition (← readStmt bound)
      | .leftBrace => let _ ← accept (· = .leftBrace); return .block (← readBlock bound)
      | _ => readExprStmt bound

-- Declarations behind an opening brace, and the closing one.
def readBlock : Nat → Reading (List (Stmt Unit))
  | 0 => failHere .expression
  | bound + 1 => do
      let body ← readDeclarations bound true
      let _ ← expect .rightBrace .braceAfterBlock
      return body

-- Declarations up to the end, or up to a closing brace when inside a block.
def readDeclarations : Nat → Bool → Reading (List (Stmt Unit))
  | 0, _ => failHere .expression
  | bound + 1, inBlock => do
      if ← atEnd then return []
      else if inBlock && (← nextIs .rightBrace) then return []
      else
        let first ← (readDeclaration bound).recover
        let rest ← readDeclarations bound inBlock
        return first.toList ++ rest

def readDeclaration : Nat → Reading (Stmt Unit)
  | 0 => failHere .expression
  | bound + 1 => do
      let token ← peek
      match token.kind with
      | .kwVar => let _ ← accept (· = .kwVar); readVariable bound
      | .kwFun =>
          let _ ← accept (· = .kwFun)
          let (name, params) ← readSignature bound
          return .func name params (← readBlock bound)
      | _ => readStmt bound

end

end Treewalk
