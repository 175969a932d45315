import Treewalk.Proofs.Frames

/-!
What frames answer. A property that every value in the frames has is a property of every value that is looked up, and it
stays with the frames as long as only values with the property are put into them. An operation on a name that is refused
complains about that name.
-/

set_option autoImplicit false

namespace Treewalk

-- The complaints about a name.
inductive Cause.About (name : String) : Cause → Prop where
  | unbound : About name (.unbound name)
  | unassigned : About name (.unassigned name)
  | rebound : About name (.rebound name)

-- An operation on a name succeeds with something good, or complains about the name.
inductive Answers {α : Type} (name : String) (good : α → Prop) : Except Cause α → Prop where
  | ok (value : α) (fits : good value) : Answers name good (.ok value)
  | error (cause : Cause) (about : cause.About name) : Answers name good (.error cause)

theorem answers_ok {α : Type} {name : String} {good : α → Prop} {answer : Except Cause α} {value : α}
    (answers : Answers name good answer) (found : answer = .ok value) : good value := by
  cases answers with
  | ok other fits =>
      cases found
      exact fits
  | error => cases found

namespace Heap

-- Every value in the frames is good.
def Holds (good : Value → Prop) (heap : Heap) : Prop :=
  ∀ frame name value, heap.slot? frame name = some (.holds value) → good value

section

variable {good : Value → Prop} {heap : Heap} (held : heap.Holds good)

include held

theorem holds_push (enclosing : Option FrameId) : (heap.push enclosing).Holds good := by
  intro frame name value inside
  rw [slot_push] at inside
  exact held frame name value inside

theorem holds_put (frame : FrameId) (name : String) (slot : Slot) (fits : ∀ value, slot = .holds value → good value) :
    (heap.put frame name slot).Holds good := by
  intro other query value inside
  rcases Binding.held_put heap frame other name query slot (.holds value) inside with put | before
  · exact fits value put
  · exact held other query value before

theorem holds_put_value (frame : FrameId) (name : String) (value : Value) (fits : good value) :
    (heap.put frame name (.holds value)).Holds good :=
  holds_put held frame name _ fun _ same => Slot.holds.inj same ▸ fits

theorem read_answers (frame : FrameId) (name : String) : Answers name good (heap.read frame name) := by
  unfold read
  cases slot : heap.slot? frame name with
  | none => exact .error _ .unbound
  | some content =>
      cases content with
      | unassigned => exact .error _ .unassigned
      | holds value => exact .ok value (held frame name value slot)

theorem lookup_answers (frame : FrameId) (name : String) : Answers name good (heap.lookup frame name) := by
  unfold lookup
  cases heap.home? frame name with
  | none => exact .error _ .unbound
  | some home => exact read_answers held home name

theorem lookupAt_answers (frame : FrameId) (distance : Nat) (name : String) :
    Answers name good (heap.lookupAt frame distance name) := by
  unfold lookupAt
  cases heap.ancestor? distance frame with
  | none => exact .error _ .unbound
  | some home => exact read_answers held home name

theorem bind_answers (frame : FrameId) (name : String) (slot : Slot)
    (fits : ∀ value, slot = .holds value → good value) : Answers name (Holds good) (heap.bind frame name slot) := by
  unfold Heap.bind
  by_cases binds : heap.binds frame name = true
  · rw [if_pos binds]
    exact .error _ .rebound
  · rw [if_neg binds]
    exact .ok _ (holds_put held frame name slot fits)

theorem define_answers (frame : FrameId) (name : String) (value : Value) (fits : good value) :
    Answers name (Holds good) (heap.define frame name value) :=
  bind_answers held frame name _ fun _ same => Slot.holds.inj same ▸ fits

theorem declare_answers (frame : FrameId) (name : String) : Answers name (Holds good) (heap.declare frame name) :=
  bind_answers held frame name _ fun _ same => Slot.noConfusion same

theorem update_answers (frame : FrameId) (name : String) (value : Value) (fits : good value) :
    Answers name (Holds good) (heap.update frame name value) := by
  unfold update
  cases heap.home? frame name with
  | none => exact .error _ .unbound
  | some home => exact .ok _ (holds_put_value held home name value fits)

theorem updateAt_answers (frame : FrameId) (distance : Nat) (name : String) (value : Value) (fits : good value) :
    Answers name (Holds good) (heap.updateAt frame distance name value) := by
  unfold updateAt
  cases heap.ancestor? distance frame with
  | none => exact .error _ .unbound
  | some home =>
      by_cases binds : heap.binds home name = true
      · simp only [binds, if_true]
        exact .ok _ (holds_put_value held home name value fits)
      · simp only [binds]
        exact .error _ .unbound

end

end Heap

-- A use of a name, wherever it is looked up.
theorem valueOf_answers {good : Value → Prop} (machine : Machine) (held : machine.heap.Holds good) (label : NodeId)
    (name : String) : Answers name good (machine.valueOf label name) := by
  unfold Machine.valueOf
  cases machine.distances[label]? with
  | none => exact Heap.lookup_answers held globalFrame name
  | some distance => exact Heap.lookupAt_answers held machine.frame distance name

theorem holds_start {good : Value → Prop} (limit : Nat) (sink : Sink) (clock : Clock) (native : good .clock) :
    (Machine.start limit sink clock).heap.Holds good := by
  have empty : Heap.empty.Holds good := by
    intro frame name value inside
    simp [Heap.empty, Heap.slot?] at inside
  exact Heap.holds_put_value (Heap.holds_push empty none) globalFrame "clock" .clock native

end Treewalk
