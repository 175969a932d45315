import Treewalk.Tree.Program

/-!
Reading that numbers as it goes. Every variable takes the next number when it is read, and an assignment takes one of its
own behind its value, in place of the variable that was read as its target. Numbers are never given back: those of a target,
of an operand that is dropped and of a declaration that cannot be read stay unused, and reading goes on with the next one.
-/

set_option autoImplicit false

namespace Treewalk

-- A reply and the next number, which is there also where the reading failed.
structure Drawn (α : Type) where
  reply : Reply α
  next : NodeId

def Drawing (α : Type) : Type := NodeId → Token → List Token → Drawn α

namespace Drawing

open Reading

variable {α β : Type}

protected def pure (value : α) : Drawing α := fun next _ tokens => ⟨⟨some value, tokens, []⟩, next⟩

protected def bind (first : Drawing α) (goOn : α → Drawing β) : Drawing β := fun next stop tokens =>
  match first next stop tokens with
  | ⟨⟨none, rest, errors⟩, after⟩ => ⟨⟨none, rest, errors⟩, after⟩
  | ⟨⟨some value, rest, errors⟩, after⟩ =>
      let later := goOn value after stop rest
      ⟨⟨later.reply.result, later.reply.rest, errors ++ later.reply.errors⟩, later.next⟩

instance : Monad Drawing where
  pure := Drawing.pure
  bind := Drawing.bind

-- A reading that takes no number.
def plain (reading : Reading α) : Drawing α := fun next stop tokens => ⟨reading stop tokens, next⟩

def fresh : Drawing NodeId := fun next _ tokens => ⟨⟨some next, tokens, []⟩, next + 1⟩

def recover (drawing : Drawing α) : Drawing (Option α) := fun next stop tokens =>
  match drawing next stop tokens with
  | ⟨⟨some value, rest, errors⟩, after⟩ => ⟨⟨some (some value), rest, errors⟩, after⟩
  | ⟨⟨none, rest, errors⟩, after⟩ => ⟨⟨some none, resume rest, errors⟩, after⟩

mutual

def expr : Nat → Bool → Drawing (Expr NodeId)
  | 0, _ => plain (failHere .expression)
  | bound + 1, commas => do
      let target ← level bound commas .disjunction
      match ← plain (accept (· = .equal)) with
      | none => return target
      | some equals =>
          let value ← expr bound commas
          match target with
          | .var _ name =>
              let label ← fresh
              return .assign label name value
          | _ =>
              plain (report equals .assignmentTarget)
              return value

def level : Nat → Bool → Level → Drawing (Expr NodeId)
  | 0, _, _ => plain (failHere .expression)
  | bound + 1, commas, tier => do
      let first ← operand bound commas tier
      joined bound commas tier first

def joined : Nat → Bool → Level → Expr NodeId → Drawing (Expr NodeId)
  | 0, _, _, _ => plain (failHere .expression)
  | bound + 1, commas, tier, left => do
      match ← plain (accept (tier.joins commas)) with
      | none => return left
      | some operator =>
          let right ← operand bound commas tier
          joined bound commas tier (tier.join left operator right)

def operand : Nat → Bool → Level → Drawing (Expr NodeId)
  | 0, _, _ => plain (failHere .expression)
  | bound + 1, commas, .disjunction => level bound commas .conjunction
  | bound + 1, commas, .conjunction => sequence bound commas
  | bound + 1, commas, .sequence => ternary bound commas
  | bound + 1, commas, .equality => level bound commas .comparison
  | bound + 1, commas, .comparison => level bound commas .term
  | bound + 1, commas, .term => level bound commas .factor
  | bound + 1, _, .factor => unary bound

def sequence : Nat → Bool → Drawing (Expr NodeId)
  | 0, _ => plain (failHere .expression)
  | bound + 1, commas => do
      match ← plain (accept Kind.needsLeftOperand) with
      | none => level bound commas .sequence
      | some operator =>
          plain (report operator .missingLeftOperand)
          let _ ← level bound commas .sequence
          return .literal .nil

def ternary : Nat → Bool → Drawing (Expr NodeId)
  | 0, _ => plain (failHere .expression)
  | bound + 1, commas => do
      let condition ← level bound commas .equality
      match ← plain (accept (· = .question)) with
      | none => return condition
      | some _ =>
          let yes ← expr bound commas
          let _ ← plain (expect .colon .colonInTernary)
          let no ← expr bound commas
          return .ternary condition yes no

def unary : Nat → Drawing (Expr NodeId)
  | 0 => plain (failHere .expression)
  | bound + 1 => do
      match ← plain (accept (fun kind => kind = .bang || kind = .minus)) with
      | some operator => return .unary operator (← unary bound)
      | none =>
          let callee ← primary bound
          calls bound callee

def calls : Nat → Expr NodeId → Drawing (Expr NodeId)
  | 0, _ => plain (failHere .expression)
  | bound + 1, callee => do
      match ← plain (accept (· = .leftParen)) with
      | none => return callee
      | some _ =>
          let given ← if ← plain (nextIs .rightParen) then pure [] else arguments bound 0
          let close ← plain (expect .rightParen .parenAfterArguments)
          calls bound (.call callee close given)

def arguments : Nat → Nat → Drawing (List (Expr NodeId))
  | 0, _ => plain (failHere .expression)
  | bound + 1, count => do
      if argumentLimit ≤ count then plain (report (← plain peek) .tooManyArguments)
      let first ← expr bound false
      match ← plain (accept (· = .comma)) with
      | some _ => return first :: (← arguments bound (count + 1))
      | none => return [first]

def primary : Nat → Drawing (Expr NodeId)
  | 0 => plain (failHere .expression)
  | bound + 1 => do
      let token ← plain peek
      match token.kind with
      | .kwFalse => let _ ← plain (accept (· = .kwFalse)); return .literal (.boolean false)
      | .kwTrue => let _ ← plain (accept (· = .kwTrue)); return .literal (.boolean true)
      | .kwNil => let _ ← plain (accept (· = .kwNil)); return .literal .nil
      | .number | .stringLiteral =>
          let _ ← plain (accept (fun kind => kind = .number || kind = .stringLiteral))
          match token.literal with
          | some literal => return .literal literal.datum
          | none => plain (fail token .literalValue)
      | .identifier =>
          let _ ← plain (accept (· = .identifier))
          let label ← fresh
          return .var label token
      | .leftParen =>
          let _ ← plain (accept (· = .leftParen))
          let inner ← expr bound true
          let _ ← plain (expect .rightParen .parenAfterExpression)
          return .group inner
      | _ => plain (fail token .expression)

end

def varDecl (bound : Nat) : Drawing (Stmt NodeId) := do
  let name ← plain (expect .identifier .variableName)
  let value ← match ← plain (accept (· = .equal)) with
    | some _ => some <$> expr bound true
    | none => pure none
  let _ ← plain (expect .semicolon .semicolonAfterVariable)
  return .var name value

def exprStmt (bound : Nat) : Drawing (Stmt NodeId) := do
  let value ← expr bound true
  let _ ← plain (expect .semicolon .semicolonAfterExpression)
  return .expr value

def print (bound : Nat) (keyword : Token) : Drawing (Stmt NodeId) := do
  let value ← expr bound true
  let _ ← plain (expect .semicolon .semicolonAfterPrint)
  return .print keyword value

def ret (bound : Nat) (keyword : Token) : Drawing (Stmt NodeId) := do
  let value ← if ← plain (nextIs .semicolon) then pure none else some <$> expr bound true
  let _ ← plain (expect .semicolon .semicolonAfterReturn)
  return .ret keyword value

def loopStart (bound : Nat) : Drawing (Option (Stmt NodeId)) := do
  match ← plain (accept (· = .semicolon)) with
  | some _ => return none
  | none => match ← plain (accept (· = .kwVar)) with
    | some _ => some <$> varDecl bound
    | none => some <$> exprStmt bound

def clause (bound : Nat) (ending : Kind) (cause : ParseCause) : Drawing (Option (Expr NodeId)) := do
  let value ← if ← plain (nextIs ending) then pure none else some <$> expr bound true
  let _ ← plain (expect ending cause)
  return value

def condition (bound : Nat) (before after : ParseCause) : Drawing (Expr NodeId) := do
  let _ ← plain (expect .leftParen before)
  let test ← expr bound true
  let _ ← plain (expect .rightParen after)
  return test

mutual

def stmt : Nat → Drawing (Stmt NodeId)
  | 0 => plain (failHere .expression)
  | bound + 1 => do
      let token ← plain peek
      match token.kind with
      | .kwFor =>
          let _ ← plain (accept (· = .kwFor))
          let _ ← plain (expect .leftParen .parenAfterFor)
          let first ← loopStart bound
          let test ← clause bound .semicolon .semicolonAfterCondition
          let step ← clause bound .rightParen .parenAfterClauses
          let body ← stmt bound
          return .counting first test step body
      | .kwIf =>
          let _ ← plain (accept (· = .kwIf))
          let test ← condition bound .parenAfterIf .parenAfterIfCondition
          let yes ← stmt bound
          match ← plain (accept (· = .kwElse)) with
          | some _ => return .branch test yes (some (← stmt bound))
          | none => return .branch test yes none
      | .kwPrint => let _ ← plain (accept (· = .kwPrint)); print bound token
      | .kwReturn => let _ ← plain (accept (· = .kwReturn)); ret bound token
      | .kwWhile =>
          let _ ← plain (accept (· = .kwWhile))
          let test ← condition bound .parenAfterWhile .parenAfterWhileCondition
          return .loop test (← stmt bound)
      | .leftBrace => let _ ← plain (accept (· = .leftBrace)); return .block (← block bound)
      | _ => exprStmt bound

def block : Nat → Drawing (List (Stmt NodeId))
  | 0 => plain (failHere .expression)
  | bound + 1 => do
      let body ← declarations bound true
      let _ ← plain (expect .rightBrace .braceAfterBlock)
      return body

def declarations : Nat → Bool → Drawing (List (Stmt NodeId))
  | 0, _ => plain (failHere .expression)
  | bound + 1, inBlock => do
      if ← plain atEnd then return []
      else if inBlock && (← plain (nextIs .rightBrace)) then return []
      else
        let first ← (declaration bound).recover
        let rest ← declarations bound inBlock
        return first.toList ++ rest

def declaration : Nat → Drawing (Stmt NodeId)
  | 0 => plain (failHere .expression)
  | bound + 1 => do
      let token ← plain peek
      match token.kind with
      | .kwVar => let _ ← plain (accept (· = .kwVar)); varDecl bound
      | .kwFun =>
          let _ ← plain (accept (· = .kwFun))
          let (name, params) ← plain (readSignature bound)
          return .func name params (← block bound)
      | _ => stmt bound

end

-- One expression and nothing behind it.
def whole (bound : Nat) : Drawing (Expr NodeId) := do
  let value ← expr bound true
  if ← plain atEnd then return value else plain (failHere .endOfExpression)

end Drawing

end Treewalk
