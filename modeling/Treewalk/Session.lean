import Treewalk.Machine.Eval
import Treewalk.Token.Scan
import Treewalk.Tree.Program
import Treewalk.Tree.Render

/-!
A session: programs, prompt lines and requests for trees, one after another on one machine. Each step starts
with clean flags and adds the messages about its own mistakes. A step that is rejected before it runs writes
nothing and changes no frame, though the machine keeps the distances it recorded for a program that misuses names.
-/

set_option autoImplicit false

namespace Treewalk

structure Session where
  machine : Machine
  /-- All messages so far, oldest first. -/
  messages : List String
  /-- Whether the latest step was rejected. -/
  hadError : Bool
  /-- Whether the latest step failed while running. -/
  hadRuntimeError : Bool
  /-- Why the latest step could not write what it had to show. -/
  failure : Option String

inductive Step where
  | run
  | line
  | tree
deriving DecidableEq, Repr

namespace Session

def start (sink : Sink) (clock : Clock) : Session :=
  ⟨Machine.start defaultLimit sink clock, [], false, false, none⟩

def reset (session : Session) : Session :=
  { session with hadError := false, hadRuntimeError := false, failure := none }

-- Reports mistakes that were found before anything ran.
def reject (session : Session) (complaints : List String) : Session :=
  if complaints.isEmpty then session
  else { session with messages := session.messages ++ complaints, hadError := true }

def rejectScan (session : Session) (errors : List ScanError) : Session :=
  session.reject (errors.map ScanError.display)

def rejectParse (session : Session) (errors : List ParseError) : Session :=
  session.reject (errors.map ParseError.display)

-- Reports a fault that stopped a run.
def report (session : Session) (fault : Fault) : Session :=
  { session with messages := session.messages ++ [fault.display], hadRuntimeError := true }

-- Shows lines of text, up to one that the sink refuses.
def echo (session : Session) : List String → Session
  | [] => session
  | line :: rest => match session.machine.emit (line ++ "\n") with
    | (none, machine) => { session with machine := machine }.echo rest
    | (some reason, machine) => { session with machine := machine, failure := some reason }

/-- Runs a program, unless it misuses names. -/
def execute (fuel : Nat) (session : Session) (program : List (Stmt Unit)) : Option Session :=
  let (program, loaded) := session.machine.load program
  let (errors, ready) := loaded.analyse program
  if !errors.isEmpty then some ({ session with machine := ready }.reject (errors.map ScopeError.display))
  else match runProgram fuel program ready with
    | .done _ machine => some { session with machine := machine }
    | .fault fault machine => some ({ session with machine := machine }.report fault)
    | .outOfFuel => none

-- Shows the value of an expression, in which every name is a global one.
def evaluate (fuel : Nat) (session : Session) (expr : Expr Unit) : Option Session :=
  let (expr, loaded) := session.machine.loadExpr expr
  match eval fuel expr loaded with
  | .done value machine => some ({ session with machine := machine }.echo [value.display])
  | .fault fault machine => some ({ session with machine := machine }.report fault)
  | .outOfFuel => none

def runTokens (fuel : Nat) (session : Session) (tokens : List Token) : Option Session :=
  let parsed := readProgram tokens
  if parsed.errors.isEmpty then session.execute fuel parsed.result
  else some (session.rejectParse parsed.errors)

/-- A line that is no program is tried as an expression; if it is neither, the complaints about the program
are the ones to show. -/
def runLineTokens (fuel : Nat) (session : Session) (tokens : List Token) : Option Session :=
  let parsed := readProgram tokens
  if parsed.errors.isEmpty then session.execute fuel parsed.result
  else match (readExpression tokens).result with
    | some expr => session.evaluate fuel expr
    | none => some (session.rejectParse parsed.errors)

-- Shows the trees of all statements that can be read.
def showTrees (session : Session) (tokens : List Token) : Session :=
  let parsed := readProgram tokens
  (session.rejectParse parsed.errors).echo (parsed.result.map Stmt.render)

/-- One step on a text. There is no session behind a step that runs out of fuel. -/
def step (fuel : Nat) (kind : Step) (source : String) (session : Session) : Option Session :=
  let scanned := scan source
  if !scanned.errors.isEmpty then some (session.reset.rejectScan scanned.errors)
  else match kind with
    | .run => session.reset.runTokens fuel scanned.tokens
    | .line => session.reset.runLineTokens fuel scanned.tokens
    | .tree => some (session.reset.showTrees scanned.tokens)

end Session

end Treewalk
