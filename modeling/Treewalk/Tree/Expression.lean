import Treewalk.Tree.Reply

/-!
The grammar of expressions. Binary operators are arranged in levels, each associating to the left; a level
takes its operands from the next tighter one. Readings recurse on a bound that the number of tokens gives.
-/

set_option autoImplicit false

namespace Treewalk

open Reading

-- Levels of operators between two operands, loosest first.
inductive Level where
  | disjunction | conjunction | sequence | equality | comparison | term | factor
deriving DecidableEq, Repr

-- The kinds that join two operands of a level. A comma is an operator only where it is allowed to be.
def Level.joins (commas : Bool) : Level → Kind → Bool
  | .disjunction, kind => kind = .kwOr
  | .conjunction, kind => kind = .kwAnd
  | .sequence, kind => commas && kind = .comma
  | .equality, kind => kind = .bangEqual || kind = .equalEqual
  | .comparison, kind => kind = .greaterEqual || kind = .greater || kind = .lessEqual || kind = .less
  | .term, kind => kind = .minus || kind = .plus
  | .factor, kind => kind = .slash || kind = .star

def Level.join {ν : Type} (left : Expr ν) (operator : Token) (right : Expr ν) : Level → Expr ν
  | .disjunction | .conjunction => .logical left operator right
  | .sequence => .comma left right
  | _ => .binary left operator right

-- Operators that can only stand between two operands.
def Kind.needsLeftOperand (kind : Kind) : Bool :=
  Level.joins true .equality kind || Level.joins true .comparison kind || kind = .plus ||
    Level.joins true .factor kind

-- The most parameters or arguments that pass without complaint.
def argumentLimit : Nat := 255

mutual

/-- An assignment or anything tighter. A target that is no variable is reported, and the value stands. -/
def readExpr : Nat → Bool → Reading (Expr Unit)
  | 0, _ => failHere .expression
  | bound + 1, commas => do
      let target ← readLevel bound commas .disjunction
      match ← accept (· = .equal) with
      | none => return target
      | some equals =>
          let value ← readExpr bound commas
          match target with
          | .var _ name => return .assign () name value
          | _ =>
              report equals .assignmentTarget
              return value

def readLevel : Nat → Bool → Level → Reading (Expr Unit)
  | 0, _, _ => failHere .expression
  | bound + 1, commas, level => do
      let first ← readOperand bound commas level
      readJoined bound commas level first

-- Further operands of a level, after the first.
def readJoined : Nat → Bool → Level → Expr Unit → Reading (Expr Unit)
  | 0, _, _, _ => failHere .expression
  | bound + 1, commas, level, left => do
      match ← accept (level.joins commas) with
      | none => return left
      | some operator =>
          let right ← readOperand bound commas level
          readJoined bound commas level (level.join left operator right)

def readOperand : Nat → Bool → Level → Reading (Expr Unit)
  | 0, _, _ => failHere .expression
  | bound + 1, commas, .disjunction => readLevel bound commas .conjunction
  | bound + 1, commas, .conjunction => readSequence bound commas
  | bound + 1, commas, .sequence => readTernary bound commas
  | bound + 1, commas, .equality => readLevel bound commas .comparison
  | bound + 1, commas, .comparison => readLevel bound commas .term
  | bound + 1, commas, .term => readLevel bound commas .factor
  | bound + 1, _, .factor => readUnary bound

/-- An operator without its left operand is reported; nil stands for it and what follows it. -/
def readSequence : Nat → Bool → Reading (Expr Unit)
  | 0, _ => failHere .expression
  | bound + 1, commas => do
      match ← accept Kind.needsLeftOperand with
      | none => readLevel bound commas .sequence
      | some operator =>
          report operator .missingLeftOperand
          let _ ← readLevel bound commas .sequence
          return .literal .nil

def readTernary : Nat → Bool → Reading (Expr Unit)
  | 0, _ => failHere .expression
  | bound + 1, commas => do
      let condition ← readLevel bound commas .equality
      match ← accept (· = .question) with
      | none => return condition
      | some _ =>
          let yes ← readExpr bound commas
          let _ ← expect .colon .colonInTernary
          let no ← readExpr bound commas
          return .ternary condition yes no

def readUnary : Nat → Reading (Expr Unit)
  | 0 => failHere .expression
  | bound + 1 => do
      match ← accept (fun kind => kind = .bang || kind = .minus) with
      | some operator => return .unary operator (← readUnary bound)
      | none =>
          let callee ← readPrimary bound
          readCalls bound callee

-- The calls behind a callee.
def readCalls : Nat → Expr Unit → Reading (Expr Unit)
  | 0, _ => failHere .expression
  | bound + 1, callee => do
      match ← accept (· = .leftParen) with
      | none => return callee
      | some _ =>
          let arguments ← if ← nextIs .rightParen then pure [] else readArguments bound 0
          let close ← expect .rightParen .parenAfterArguments
          readCalls bound (.call callee close arguments)

-- Arguments after the first `count`. Commas divide them, so none is an operator.
def readArguments : Nat → Nat → Reading (List (Expr Unit))
  | 0, _ => failHere .expression
  | bound + 1, count => do
      if argumentLimit ≤ count then report (← peek) .tooManyArguments
      let first ← readExpr bound false
      match ← accept (· = .comma) with
      | some _ => return first :: (← readArguments bound (count + 1))
      | none => return [first]

def readPrimary : Nat → Reading (Expr Unit)
  | 0 => failHere .expression
  | bound + 1 => do
      let token ← peek
      match token.kind with
      | .kwFalse => let _ ← accept (· = .kwFalse); return .literal (.boolean false)
      | .kwTrue => let _ ← accept (· = .kwTrue); return .literal (.boolean true)
      | .kwNil => let _ ← accept (· = .kwNil); return .literal .nil
      | .number | .stringLiteral =>
          let _ ← accept (fun kind => kind = .number || kind = .stringLiteral)
          match token.literal with
          | some literal => return .literal literal.datum
          | none => fail token .literalValue
      | .identifier => let _ ← accept (· = .identifier); return .var () token
      | .leftParen =>
          let _ ← accept (· = .leftParen)
          let inner ← readExpr bound true
          let _ ← expect .rightParen .parenAfterExpression
          return .group inner
      | _ => fail token .expression

end

end Treewalk
