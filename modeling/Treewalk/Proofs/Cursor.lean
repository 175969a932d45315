import Treewalk.Tree.Program

/-!
Reading with a cursor. All tokens lie in one list, behind the end of the input perhaps some more, and a cursor moves along
them. It also carries the switch that says whether a comma is an operator, which is turned off for arguments and on for
groups, and turned back behind them. To look where the list has no token and to run out of bound are ends of their own.
What happens on the way is recorded: every place that is looked at or moved to, every mistake, and every attempt at a
declaration.
-/

set_option autoImplicit false

namespace Treewalk

-- An attempt at a declaration: where it started and with which switch, where it failed if it did, where reading went on,
-- and what it gave and reported.
structure Round where
  inBlock : Bool
  start : Nat
  commas : Bool
  failedAt : Option Nat
  finish : Nat
  stmt : Option (Stmt Unit)
  errors : List ParseError

inductive Event where
  | looked (place : Nat)
  | moved (place : Nat)
  | reported (error : ParseError)
  | tried (round : Round)

def Event.error? : Event → Option ParseError
  | .reported error => some error
  | _ => none

def errorsIn (record : List Event) : List ParseError := record.filterMap Event.error?

structure Cursor where
  place : Nat
  commas : Bool

inductive Ended (α : Type) where
  | given (value : α)
  | failed
  | outside
  | unfinished

structure Walked (α : Type) where
  ended : Ended α
  cursor : Cursor
  record : List Event

def Walk (α : Type) : Type := List Token → Cursor → Walked α

namespace Walk

variable {α β : Type}

protected def pure (value : α) : Walk α := fun _ cursor => ⟨.given value, cursor, []⟩

protected def bind (first : Walk α) (next : α → Walk β) : Walk β := fun tokens cursor =>
  match first tokens cursor with
  | ⟨.given value, after, record⟩ =>
      let later := next value tokens after
      ⟨later.ended, later.cursor, record ++ later.record⟩
  | ⟨.failed, after, record⟩ => ⟨.failed, after, record⟩
  | ⟨.outside, after, record⟩ => ⟨.outside, after, record⟩
  | ⟨.unfinished, after, record⟩ => ⟨.unfinished, after, record⟩

instance : Monad Walk where
  pure := Walk.pure
  bind := Walk.bind

def unfinished : Walk α := fun _ cursor => ⟨.unfinished, cursor, []⟩

def here : Walk Cursor := fun _ cursor => ⟨.given cursor, cursor, []⟩

def note (event : Event) : Walk Unit := fun _ cursor => ⟨.given (), cursor, [event]⟩

def look (place : Nat) : Walk Token := fun tokens cursor =>
  match tokens[place]? with
  | some token => ⟨.given token, cursor, [.looked place]⟩
  | none => ⟨.outside, cursor, [.looked place]⟩

def peek : Walk Token := here >>= fun cursor => look cursor.place

-- The token that was used last.
def previous : Walk Token := here >>= fun cursor => look (cursor.place - 1)

def atEnd : Walk Bool := do return (← peek).kind = .endOfInput

def step : Walk Unit := fun _ cursor =>
  ⟨.given (), { cursor with place := cursor.place + 1 }, [.moved (cursor.place + 1)]⟩

-- Moves on by one token, unless at the end.
def advance : Walk Token := do
  if ← atEnd then previous
  else
    step
    previous

def nextFits (wanted : Kind → Bool) : Walk Bool := do
  if ← atEnd then return false else return wanted (← peek).kind

def accept (wanted : Kind → Bool) : Walk (Option Token) := do
  if ← nextFits wanted then some <$> advance else return none

def report (token : Token) (cause : ParseCause) : Walk Unit := note (.reported ⟨token, cause⟩)

def fail (token : Token) (cause : ParseCause) : Walk α := fun _ cursor =>
  ⟨.failed, cursor, [.reported ⟨token, cause⟩]⟩

def failHere (cause : ParseCause) : Walk α := peek >>= (fail · cause)

def expect (kind : Kind) (cause : ParseCause) : Walk Token := do
  match ← accept (· = kind) with
  | some token => return token
  | none => failHere cause

-- Sets the switch for a while, and sets it back however the walk ends.
def withCommas (allowed : Bool) (walk : Walk α) : Walk α := fun tokens cursor =>
  let walked := walk tokens { cursor with commas := allowed }
  ⟨walked.ended, { walked.cursor with commas := cursor.commas }, walked.record⟩

-- Moves on to a token behind a semicolon or one that starts a statement.
def seek : Nat → Walk Unit
  | 0 => unfinished
  | bound + 1 => do
      if ← atEnd then return ()
      else if (← previous).kind = .semicolon then return ()
      else if (← peek).kind.startsStatement then return ()
      else
        let _ ← advance
        seek bound

def synchronize (bound : Nat) : Walk Unit := do
  let _ ← advance
  seek bound

-- A failure is caught, with the mistakes that were reported.
def attempt (walk : Walk α) : Walk (Option α × List ParseError) := fun tokens cursor =>
  match walk tokens cursor with
  | ⟨.given value, after, record⟩ => ⟨.given (some value, errorsIn record), after, record⟩
  | ⟨.failed, after, record⟩ => ⟨.given (none, errorsIn record), after, record⟩
  | ⟨.outside, after, record⟩ => ⟨.outside, after, record⟩
  | ⟨.unfinished, after, record⟩ => ⟨.unfinished, after, record⟩

def tryRound (inBlock : Bool) (bound : Nat) (declaration : Walk (Stmt Unit)) : Walk (Option (Stmt Unit)) := do
  let start ← here
  let (stmt, errors) ← attempt declaration
  let stood ← here
  if stmt.isNone then synchronize bound
  let finish ← here
  note (.tried ⟨inBlock, start.place, start.commas, if stmt.isNone then some stood.place else none, finish.place, stmt,
    errors⟩)
  return stmt

mutual

def expr : Nat → Walk (Expr Unit)
  | 0 => unfinished
  | bound + 1 => do
      let target ← level bound .disjunction
      match ← accept (· = .equal) with
      | none => return target
      | some equals =>
          let value ← expr bound
          match target with
          | .var _ name => return .assign () name value
          | _ =>
              report equals .assignmentTarget
              return value

def level : Nat → Level → Walk (Expr Unit)
  | 0, _ => unfinished
  | bound + 1, tier => do
      let first ← operand bound tier
      joined bound tier first

def joined : Nat → Level → Expr Unit → Walk (Expr Unit)
  | 0, _, _ => unfinished
  | bound + 1, tier, left => do
      let cursor ← here
      match ← accept (tier.joins cursor.commas) with
      | none => return left
      | some operator =>
          let right ← operand bound tier
          joined bound tier (tier.join left operator right)

def operand : Nat → Level → Walk (Expr Unit)
  | 0, _ => unfinished
  | bound + 1, .disjunction => level bound .conjunction
  | bound + 1, .conjunction => sequence bound
  | bound + 1, .sequence => ternary bound
  | bound + 1, .equality => level bound .comparison
  | bound + 1, .comparison => level bound .term
  | bound + 1, .term => level bound .factor
  | bound + 1, .factor => unary bound

def sequence : Nat → Walk (Expr Unit)
  | 0 => unfinished
  | bound + 1 => do
      match ← accept Kind.needsLeftOperand with
      | none => level bound .sequence
      | some operator =>
          report operator .missingLeftOperand
          let _ ← level bound .sequence
          return .literal .nil

def ternary : Nat → Walk (Expr Unit)
  | 0 => unfinished
  | bound + 1 => do
      let condition ← level bound .equality
      match ← accept (· = .question) with
      | none => return condition
      | some _ =>
          let yes ← expr bound
          let _ ← expect .colon .colonInTernary
          let no ← expr bound
          return .ternary condition yes no

def unary : Nat → Walk (Expr Unit)
  | 0 => unfinished
  | bound + 1 => do
      match ← accept (fun kind => kind = .bang || kind = .minus) with
      | some operator => return .unary operator (← unary bound)
      | none =>
          let callee ← primary bound
          calls bound callee

def calls : Nat → Expr Unit → Walk (Expr Unit)
  | 0, _ => unfinished
  | bound + 1, callee => do
      match ← accept (· = .leftParen) with
      | none => return callee
      | some _ =>
          let given ← if ← nextFits (· = .rightParen) then pure [] else arguments bound 0
          let close ← expect .rightParen .parenAfterArguments
          calls bound (.call callee close given)

def arguments : Nat → Nat → Walk (List (Expr Unit))
  | 0, _ => unfinished
  | bound + 1, count => do
      if argumentLimit ≤ count then report (← peek) .tooManyArguments
      let first ← withCommas false (expr bound)
      match ← accept (· = .comma) with
      | some _ => return first :: (← arguments bound (count + 1))
      | none => return [first]

def primary : Nat → Walk (Expr Unit)
  | 0 => unfinished
  | bound + 1 => do
      let token ← peek
      match token.kind with
      | .kwFalse => let _ ← accept (· = .kwFalse); return .literal (.boolean false)
      | .kwTrue => let _ ← accept (· = .kwTrue); return .literal (.boolean true)
      | .kwNil => let _ ← accept (· = .kwNil); return .literal .nil
      | .number | .stringLiteral =>
          let _ ← accept (fun kind => kind = .number || kind = .stringLiteral)
          match token.literal with
          | some literal => return .literal literal.datum
          | none => fail token .literalValue
      | .identifier => let _ ← accept (· = .identifier); return .var () token
      | .leftParen =>
          let _ ← accept (· = .leftParen)
          let inner ← withCommas true (expr bound)
          let _ ← expect .rightParen .parenAfterExpression
          return .group inner
      | _ => fail token .expression

end

def varDecl (bound : Nat) : Walk (Stmt Unit) := do
  let name ← expect .identifier .variableName
  let value ← match ← accept (· = .equal) with
    | some _ => some <$> expr bound
    | none => pure none
  let _ ← expect .semicolon .semicolonAfterVariable
  return .var name value

def exprStmt (bound : Nat) : Walk (Stmt Unit) := do
  let value ← expr bound
  let _ ← expect .semicolon .semicolonAfterExpression
  return .expr value

def print (bound : Nat) (keyword : Token) : Walk (Stmt Unit) := do
  let value ← expr bound
  let _ ← expect .semicolon .semicolonAfterPrint
  return .print keyword value

def ret (bound : Nat) (keyword : Token) : Walk (Stmt Unit) := do
  let value ← if ← nextFits (· = .semicolon) then pure none else some <$> expr bound
  let _ ← expect .semicolon .semicolonAfterReturn
  return .ret keyword value

def params : Nat → Nat → Walk (List Token)
  | 0, _ => unfinished
  | bound + 1, count => do
      if argumentLimit ≤ count then report (← peek) .tooManyParameters
      let first ← expect .identifier .parameterName
      match ← accept (· = .comma) with
      | some _ => return first :: (← params bound (count + 1))
      | none => return [first]

def signature (bound : Nat) : Walk (Token × List Token) := do
  let name ← expect .identifier .functionName
  let _ ← expect .leftParen .parenAfterFunctionName
  let given ← if ← nextFits (· = .rightParen) then pure [] else params bound 0
  let _ ← expect .rightParen .parenAfterParameters
  let _ ← expect .leftBrace .braceBeforeBody
  return (name, given)

def loopStart (bound : Nat) : Walk (Option (Stmt Unit)) := do
  match ← accept (· = .semicolon) with
  | some _ => return none
  | none => match ← accept (· = .kwVar) with
    | some _ => some <$> varDecl bound
    | none => some <$> exprStmt bound

def clause (bound : Nat) (ending : Kind) (cause : ParseCause) : Walk (Option (Expr Unit)) := do
  let value ← if ← nextFits (· = ending) then pure none else some <$> expr bound
  let _ ← expect ending cause
  return value

def condition (bound : Nat) (before after : ParseCause) : Walk (Expr Unit) := do
  let _ ← expect .leftParen before
  let test ← expr bound
  let _ ← expect .rightParen after
  return test

mutual

def stmt : Nat → Walk (Stmt Unit)
  | 0 => unfinished
  | bound + 1 => do
      let token ← peek
      match token.kind with
      | .kwFor =>
          let _ ← accept (· = .kwFor)
          let _ ← expect .leftParen .parenAfterFor
          let first ← loopStart bound
          let test ← clause bound .semicolon .semicolonAfterCondition
          let step ← clause bound .rightParen .parenAfterClauses
          let body ← stmt bound
          return .counting first test step body
      | .kwIf =>
          let _ ← accept (· = .kwIf)
          let test ← condition bound .parenAfterIf .parenAfterIfCondition
          let yes ← stmt bound
          match ← accept (· = .kwElse) with
          | some _ => return .branch test yes (some (← stmt bound))
          | none => return .branch test yes none
      | .kwPrint => let _ ← accept (· = .kwPrint); print bound token
      | .kwReturn => let _ ← accept (· = .kwReturn); ret bound token
      | .kwWhile =>
          let _ ← accept (· = .kwWhile)
          let test ← condition bound .parenAfterWhile .parenAfterWhileCondition
          return .loop test (← stmt bound)
      | .leftBrace => let _ ← accept (· = .leftBrace); return .block (← block bound)
      | _ => exprStmt bound

def block : Nat → Walk (List (Stmt Unit))
  | 0 => unfinished
  | bound + 1 => do
      let body ← declarations bound true
      let _ ← expect .rightBrace .braceAfterBlock
      return body

def declarations : Nat → Bool → Walk (List (Stmt Unit))
  | 0, _ => unfinished
  | bound + 1, inBlock => do
      if ← atEnd then return []
      else if inBlock && (← nextFits (· = .rightBrace)) then return []
      else
        let first ← tryRound inBlock bound (declaration bound)
        let rest ← declarations bound inBlock
        return first.toList ++ rest

def declaration : Nat → Walk (Stmt Unit)
  | 0 => unfinished
  | bound + 1 => do
      let token ← peek
      match token.kind with
      | .kwVar => let _ ← accept (· = .kwVar); varDecl bound
      | .kwFun =>
          let _ ← accept (· = .kwFun)
          let (name, given) ← signature bound
          return .func name given (← block bound)
      | _ => stmt bound

end

-- One expression and nothing behind it.
def whole (bound : Nat) : Walk (Expr Unit) := do
  let value ← expr bound
  if ← atEnd then return value else failHere .endOfExpression

end Walk

end Treewalk
