import Treewalk.Fault
import Treewalk.Value.Basic

/-!
Frames of variables. Frames are only ever added, and each lies inside an older one, so the chain of frames
out from a frame is no longer than its place among them. A name is found by walking out to the nearest
frame that binds it, or by jumping out a known number of frames.
-/

set_option autoImplicit false

namespace Treewalk

inductive Slot where
  | unassigned
  | holds (value : Value)
deriving Repr

structure Frame where
  enclosing : Option FrameId
  slots : List (String × Slot)
deriving Repr

def putSlot (name : String) (slot : Slot) : List (String × Slot) → List (String × Slot)
  | [] => [(name, slot)]
  | (other, old) :: rest =>
      if other = name then (name, slot) :: rest else (other, old) :: putSlot name slot rest

theorem lookup_put_here (name : String) (slot : Slot) (slots : List (String × Slot)) :
    (putSlot name slot slots).lookup name = some slot := by
  induction slots with
  | nil => simp [putSlot]
  | cons head rest ih =>
      obtain ⟨key, held⟩ := head
      by_cases same : key = name
      · simp [putSlot, same]
      · have apart : (name == key) = false := beq_false_of_ne (Ne.symm same)
        simp [putSlot, same, List.lookup_cons, ih, apart]

theorem lookup_put_elsewhere (name other : String) (slot : Slot) (slots : List (String × Slot))
    (different : other ≠ name) : (putSlot name slot slots).lookup other = slots.lookup other := by
  have apart : (other == name) = false := beq_false_of_ne different
  induction slots with
  | nil => simp [putSlot, List.lookup_cons, apart]
  | cons head rest ih =>
      obtain ⟨key, held⟩ := head
      by_cases same : key = name
      · simp [putSlot, same, List.lookup_cons, apart]
      · simp [putSlot, same, List.lookup_cons, ih]

def Frame.slot? (frame : Frame) (name : String) : Option Slot := frame.slots.lookup name

def Frame.put (frame : Frame) (name : String) (slot : Slot) : Frame :=
  ⟨frame.enclosing, putSlot name slot frame.slots⟩

/-- All frames made so far. -/
structure Heap where
  frames : Array Frame
deriving Repr

namespace Heap

def empty : Heap := ⟨#[]⟩

def size (heap : Heap) : Nat := heap.frames.size

-- Adds an empty frame. Its place is the size before.
def push (heap : Heap) (enclosing : Option FrameId) : Heap := ⟨heap.frames.push ⟨enclosing, []⟩⟩

def slot? (heap : Heap) (frame : FrameId) (name : String) : Option Slot :=
  heap.frames[frame]?.bind (·.slot? name)

def binds (heap : Heap) (frame : FrameId) (name : String) : Bool := (heap.slot? frame name).isSome

-- Sets a slot of a frame, whatever it held.
def put (heap : Heap) (frame : FrameId) (name : String) (slot : Slot) : Heap :=
  ⟨heap.frames.modify frame (·.put name slot)⟩

def enclosing? (heap : Heap) (frame : FrameId) : Option FrameId := heap.frames[frame]?.bind (·.enclosing)

/-- The frame a number of steps out. -/
def ancestor? (heap : Heap) : Nat → FrameId → Option FrameId
  | 0, frame => some frame
  | distance + 1, frame => (heap.enclosing? frame).bind (heap.ancestor? distance)

-- At most `count` frames from one outwards.
def chainWithin (heap : Heap) : Nat → FrameId → List FrameId
  | 0, _ => []
  | count + 1, frame => frame :: (heap.enclosing? frame).elim [] (heap.chainWithin count)

def chain (heap : Heap) (frame : FrameId) : List FrameId := heap.chainWithin (frame + 1) frame

/-- The nearest frame from one outwards that binds a name. -/
def home? (heap : Heap) (frame : FrameId) (name : String) : Option FrameId :=
  (heap.chain frame).find? (heap.binds · name)

-- The value of a name in one frame.
def read (heap : Heap) (frame : FrameId) (name : String) : Except Cause Value :=
  match heap.slot? frame name with
  | none => .error (.unbound name)
  | some .unassigned => .error (.unassigned name)
  | some (.holds value) => .ok value

/-- Binds a name that the frame does not bind yet. -/
@[inline] def bind (heap : Heap) (frame : FrameId) (name : String) (slot : Slot) : Except Cause Heap :=
  if heap.binds frame name then .error (.rebound name) else .ok (heap.put frame name slot)

@[inline] def define (heap : Heap) (frame : FrameId) (name : String) (value : Value) : Except Cause Heap :=
  heap.bind frame name (.holds value)

@[inline] def declare (heap : Heap) (frame : FrameId) (name : String) : Except Cause Heap :=
  heap.bind frame name .unassigned

-- Binds a name, replacing any binding the frame has.
def install (heap : Heap) (frame : FrameId) (name : String) (value : Value) : Heap :=
  heap.put frame name (.holds value)

def lookup (heap : Heap) (frame : FrameId) (name : String) : Except Cause Value :=
  match heap.home? frame name with
  | none => .error (.unbound name)
  | some home => heap.read home name

def lookupAt (heap : Heap) (frame : FrameId) (distance : Nat) (name : String) : Except Cause Value :=
  match heap.ancestor? distance frame with
  | none => .error (.unbound name)
  | some home => heap.read home name

@[inline] def update (heap : Heap) (frame : FrameId) (name : String) (value : Value) : Except Cause Heap :=
  match heap.home? frame name with
  | none => .error (.unbound name)
  | some home => .ok (heap.put home name (.holds value))

@[inline] def updateAt (heap : Heap) (frame : FrameId) (distance : Nat) (name : String) (value : Value) :
    Except Cause Heap :=
  match heap.ancestor? distance frame with
  | none => .error (.unbound name)
  | some home =>
      if heap.binds home name then .ok (heap.put home name (.holds value))
      else .error (.unbound name)

-- What the two operations that change frames do to every slot and every link.

theorem slot_put_here (heap : Heap) (frame : FrameId) (name : String) (slot : Slot)
    (made : frame < heap.size) : (heap.put frame name slot).slot? frame name = some slot := by
  obtain ⟨old, held⟩ : ∃ old, heap.frames[frame]? = some old := ⟨_, Array.getElem?_eq_getElem made⟩
  simp [slot?, put, Array.getElem?_modify, held, Frame.slot?, Frame.put, lookup_put_here]

theorem slot_put_elsewhere (heap : Heap) (frame other : FrameId) (name query : String) (slot : Slot)
    (different : other ≠ frame ∨ query ≠ name) :
    (heap.put frame name slot).slot? other query = heap.slot? other query := by
  simp only [slot?, put, Array.getElem?_modify]
  by_cases same : frame = other
  · have names : query ≠ name := different.resolve_left (fun apart => apart same.symm)
    subst same
    cases heap.frames[frame]? <;> simp [Frame.slot?, Frame.put, lookup_put_elsewhere _ _ _ _ names]
  · simp [same]

theorem enclosing_put (heap : Heap) (frame other : FrameId) (name : String) (slot : Slot) :
    (heap.put frame name slot).enclosing? other = heap.enclosing? other := by
  simp only [enclosing?, put, Array.getElem?_modify]
  by_cases same : frame = other
  · subst same
    cases heap.frames[frame]? <;> simp [Frame.put]
  · simp [same]

theorem size_put (heap : Heap) (frame : FrameId) (name : String) (slot : Slot) :
    (heap.put frame name slot).size = heap.size := by
  simp [size, put]

theorem slot_push (heap : Heap) (enclosing : Option FrameId) (frame : FrameId) (name : String) :
    (heap.push enclosing).slot? frame name = heap.slot? frame name := by
  simp only [slot?, push, Array.getElem?_push]
  by_cases fresh : frame = heap.frames.size
  · simp [fresh, Frame.slot?]
  · simp [fresh]

theorem enclosing_push_fresh (heap : Heap) (enclosing : Option FrameId) :
    (heap.push enclosing).enclosing? heap.size = enclosing := by
  simp [enclosing?, push, size]

theorem enclosing_push_older (heap : Heap) (enclosing : Option FrameId) (frame : FrameId)
    (older : frame < heap.size) : (heap.push enclosing).enclosing? frame = heap.enclosing? frame := by
  simp only [size] at older
  simp [enclosing?, push, Array.getElem?_push, Nat.ne_of_lt older]

theorem slot_unmade (heap : Heap) (frame : FrameId) (name : String) (unmade : ¬ frame < heap.size) :
    heap.slot? frame name = none := by
  have absent : heap.frames[frame]? = none := Array.getElem?_eq_none (Nat.le_of_not_gt unmade)
  simp [slot?, absent]

theorem enclosing_unmade (heap : Heap) (frame : FrameId) (unmade : ¬ frame < heap.size) :
    heap.enclosing? frame = none := by
  have absent : heap.frames[frame]? = none := Array.getElem?_eq_none (Nat.le_of_not_gt unmade)
  simp [enclosing?, absent]

theorem enclosing_made (heap : Heap) (frame parent : FrameId) (link : heap.enclosing? frame = some parent) :
    frame < heap.size := by
  by_cases made : frame < heap.size
  · exact made
  · rw [enclosing_unmade heap frame made] at link
    cases link

theorem size_push (heap : Heap) (enclosing : Option FrameId) :
    (heap.push enclosing).size = heap.size + 1 := by
  simp [size, push]

end Heap

end Treewalk
