import Treewalk.Frame
import Treewalk.Scope
import Treewalk.Sink

/-!
The state of a running program, and steps on it. A step ends with a value or a fault, each with the state it
leaves, or runs out of fuel and says nothing.
-/

set_option autoImplicit false

namespace Treewalk

-- Milliseconds at each reading of the clock, and how many readings were taken.
structure Clock where
  millis : Nat → Nat
  taken : Nat

-- A clock that goes on by one millisecond with each reading.
def Clock.ticking (start : Nat) : Clock := ⟨(start + ·), 0⟩

-- Nested calls that a program may make unless told otherwise.
def defaultLimit : Nat := 10000

structure Machine where
  heap : Heap
  /-- The current frame. -/
  frame : FrameId
  /-- Calls that are running. -/
  depth : Nat
  /-- Calls that may run at once. -/
  limit : Nat
  distances : Distances
  /-- The next unused number for uses of names. -/
  labels : NodeId
  /-- The next unused serial number for functions. -/
  closures : Nat
  sink : Sink
  clock : Clock

-- The frame of global variables.
def globalFrame : FrameId := 0

def Machine.start (limit : Nat) (sink : Sink) (clock : Clock) : Machine where
  heap := (Heap.empty.push none).install globalFrame "clock" .clock
  frame := globalFrame
  depth := 0
  limit := limit
  distances := ∅
  labels := 0
  closures := 0
  sink := sink
  clock := clock

/-- The value of a name: at its recorded distance, or among the globals. -/
def Machine.valueOf (machine : Machine) (label : NodeId) (name : String) : Except Cause Value :=
  match machine.distances[label]? with
  | some distance => machine.heap.lookupAt machine.frame distance name
  | none => machine.heap.lookup globalFrame name

-- Writes a text to the sink, and tells the words in which the sink refuses it.
def Machine.emit (machine : Machine) (text : String) : Option String × Machine :=
  let (refusal, sink) := machine.sink.offer text.toUTF8
  (refusal, { machine with sink := sink })

/-- Numbers the uses of names in a program with numbers not used before. -/
def Machine.load (machine : Machine) (program : List (Stmt Unit)) : List (Stmt NodeId) × Machine :=
  let (numbered, labels) := (Stmt.relabelAll NodeId.fresh program).run machine.labels
  (numbered, { machine with labels := labels })

def Machine.loadExpr (machine : Machine) (expr : Expr Unit) : Expr NodeId × Machine :=
  let (numbered, labels) := (expr.relabel NodeId.fresh).run machine.labels
  (numbered, { machine with labels := labels })

/-- Records the distances in a program, and lists the misuses of names in it. -/
def Machine.analyse (machine : Machine) (program : List (Stmt NodeId)) : List ScopeError × Machine :=
  let analysis := Analysis.ofProgram machine.distances program
  (analysis.errors, { machine with distances := analysis.distances })

inductive Outcome (α : Type) where
  | done (value : α) (machine : Machine)
  | fault (fault : Fault) (machine : Machine)
  | outOfFuel

def Run (α : Type) : Type := Machine → Outcome α

namespace Run

variable {α β : Type}

@[always_inline, inline] protected def pure (value : α) : Run α := fun machine => .done value machine

@[always_inline, inline] protected def bind (first : Run α) (next : α → Run β) : Run β := fun machine =>
  match first machine with
  | .done value machine => next value machine
  | .fault fault machine => .fault fault machine
  | .outOfFuel => .outOfFuel

@[always_inline]
instance : Monad Run where
  pure := Run.pure
  bind := Run.bind

def outOfFuel : Run α := fun _ => .outOfFuel

@[inline] def lift (result : Except Fault α) : Run α := fun machine =>
  match result with
  | .ok value => .done value machine
  | .error fault => .fault fault machine

/-- Changes the frames, or fails on a line and leaves them. -/
@[inline] def change (line : Int) (action : Heap → FrameId → Except Cause Heap) : Run Unit := fun machine =>
  match action machine.heap machine.frame with
  | .ok heap => .done () { machine with heap := heap }
  | .error cause => .fault ⟨cause, line⟩ machine

/-- Runs in another frame and goes back to the current one, however it ends. -/
@[inline] def inFrame (frame : FrameId) (body : Run α) : Run α := fun machine =>
  let before := machine.frame
  match body { machine with frame := frame } with
  | .done value machine => .done value { machine with frame := before }
  | .fault fault machine => .fault fault { machine with frame := before }
  | .outOfFuel => .outOfFuel

/-- Counts one call more before the body and one less behind it, however it ends. -/
@[inline] def deeper (body : Run α) : Run α := fun machine =>
  match body { machine with depth := machine.depth + 1 } with
  | .done value machine => .done value { machine with depth := machine.depth - 1 }
  | .fault fault machine => .fault fault { machine with depth := machine.depth - 1 }
  | .outOfFuel => .outOfFuel

-- A new frame inside another.
@[inline] def newFrame (enclosing : FrameId) : Run FrameId := fun machine =>
  .done machine.heap.size { machine with heap := machine.heap.push (some enclosing) }

-- A new frame inside the current one.
@[inline] def newInner : Run FrameId := fun machine => newFrame machine.frame machine

-- Writes a text, or fails on a line where the sink refuses it.
def write (line : Int) (text : String) : Run Unit := fun machine =>
  match machine.emit text with
  | (none, machine) => .done () machine
  | (some reason, machine) => .fault ⟨.outputFailed reason, line⟩ machine

-- Reads the clock, in seconds.
def readClock : Run Value := fun machine =>
  .done (.number (Float.ofNat (machine.clock.millis machine.clock.taken) / 1000.0))
    { machine with clock := { machine.clock with taken := machine.clock.taken + 1 } }

-- A function made by a declaration in the current frame.
@[inline] def newClosure (name : Token) (params : List Token) (body : List (Stmt NodeId)) : Run Value := fun machine =>
  .done (.closure ⟨machine.closures, name, params, body, machine.frame⟩)
    { machine with closures := machine.closures + 1 }

def lookup (label : NodeId) (name : Token) : Run Value := fun machine =>
  match machine.valueOf label name.lexeme with
  | .ok value => .done value machine
  | .error cause => .fault ⟨cause, name.line⟩ machine

-- Sets a name: at its recorded distance, or among the globals.
def store (label : NodeId) (name : Token) (value : Value) : Run Unit := fun machine =>
  match machine.distances[label]? with
  | some distance =>
      change name.line (fun heap frame => heap.updateAt frame distance name.lexeme value) machine
  | none => change name.line (fun heap _ => heap.update globalFrame name.lexeme value) machine

def define (name : Token) (value : Value) : Run Unit :=
  change name.line fun heap frame => heap.define frame name.lexeme value

def declare (name : Token) : Run Unit := change name.line fun heap frame => heap.declare frame name.lexeme

end Run

end Treewalk
