import Treewalk.Proofs.Forests
import Treewalk.Proofs.Frames

/-!
Slots hold what was written into them last. All that a forest of frames is can be told from the actions that made it:
which frames there are and how they lie inside each other, which action wrote into which slot, and so what a slot holds
now. The frames themselves keep only the outcome, and agree with that account after every action.
-/

set_option autoImplicit false

namespace Treewalk

namespace Journal

-- What the actions so far tell, newest first: the number of frames, and the links between them.

def size : List Action → Nat
  | [] => 0
  | .make _ :: past => size past + 1
  | _ :: past => size past

def enclosing? : List Action → FrameId → Option FrameId
  | [], _ => none
  | .make parent :: past, frame => if frame = size past then parent else enclosing? past frame
  | _ :: past, frame => enclosing? past frame

def ancestor? (journal : List Action) : Nat → FrameId → Option FrameId
  | 0, frame => some frame
  | distance + 1, frame => (enclosing? journal frame).bind (ancestor? journal distance)

-- Some action wrote this into the slot. Whether an action writes depends on what was written before it.
def Wrote : List Action → FrameId → String → Slot → Prop
  | [], _, _, _ => False
  | action :: past, frame, name, slot =>
      action.Writes (ancestor? past) (fun home query => ∃ content, Wrote past home query content) frame name slot ∨
        Wrote past frame name slot

def Bound (journal : List Action) (frame : FrameId) (name : String) : Prop := ∃ slot, Wrote journal frame name slot

-- The last action that wrote into the slot wrote this.
def Last : List Action → FrameId → String → Slot → Prop
  | [], _, _, _ => False
  | action :: past, frame, name, slot =>
      action.Writes (ancestor? past) (Bound past) frame name slot ∨
        (∀ other, ¬ action.Writes (ancestor? past) (Bound past) frame name other) ∧ Last past frame name slot

-- The slot was declared, and nothing was written into it since.
def OnlyDeclared (journal : List Action) (frame : FrameId) (name : String) : Prop :=
  Wrote journal frame name .unassigned ∧ ∀ value, ¬ Wrote journal frame name (.holds value)

-- There is a slot for an action to write into. A frame can always be made.
def Finds (journal : List Action) : Action → Prop
  | .make _ | .install _ _ _ => True
  | .define frame name _ | .declare frame name => ¬ Bound journal frame name
  | .update frame name _ => ∃ distance home, ancestor? journal distance frame = some home ∧ Bound journal home name
  | .updateAt frame distance name _ => ∃ home, ancestor? journal distance frame = some home ∧ Bound journal home name

theorem bound_iff_last (journal : List Action) (frame : FrameId) (name : String) :
    Bound journal frame name ↔ ∃ slot, Last journal frame name slot := by
  induction journal with
  | nil => exact Iff.rfl
  | cons action past ih =>
      constructor
      · rintro ⟨slot, written⟩
        by_cases here : ∃ other, action.Writes (ancestor? past) (Bound past) frame name other
        · obtain ⟨other, writes⟩ := here
          exact ⟨other, .inl writes⟩
        · rcases written with writes | earlier
          · exact absurd ⟨slot, writes⟩ here
          · obtain ⟨other, last⟩ := ih.mp ⟨slot, earlier⟩
            exact ⟨other, .inr ⟨fun content writes => here ⟨content, writes⟩, last⟩⟩
      · rintro ⟨slot, writes | ⟨-, last⟩⟩
        · exact ⟨slot, .inl writes⟩
        · obtain ⟨other, earlier⟩ := ih.mpr ⟨slot, last⟩
          exact ⟨other, .inr earlier⟩

end Journal

section writes

variable {ancestor? : Nat → FrameId → Option FrameId} {bound : FrameId → String → Prop} {action : Action}
  {frame home : FrameId} {name query : String} {slot content : Slot}

-- An action writes into one slot, and one thing.
theorem writes_unique (writes : action.Writes ancestor? bound frame name slot)
    (again : action.Writes ancestor? bound home query content) : frame = home ∧ name = query ∧ slot = content := by
  cases writes with
  | define | declare | install =>
      cases again
      exact ⟨rfl, rfl, rfl⟩
  | update _ _ _ _ _ nearest =>
      cases again with
      | update _ _ _ _ _ other => exact ⟨nearest_unique nearest other, rfl, rfl⟩
  | updateAt _ _ _ _ _ reached =>
      cases again with
      | updateAt _ _ _ _ _ other => exact ⟨Option.some.inj (reached.symm.trans other), rfl, rfl⟩

-- Only declaring leaves a slot without a value, and only where there was none.
theorem writes_unassigned (writes : action.Writes ancestor? bound frame name .unassigned) : ¬ bound frame name := by
  cases writes with
  | declare _ _ unbound => exact unbound

end writes

namespace Journal

theorem last_written (action : Action) (past : List Action) (frame : FrameId) (name : String) (slot content : Slot)
    (writes : action.Writes (ancestor? past) (Bound past) frame name slot) :
    Last (action :: past) frame name content ↔ slot = content := by
  constructor
  · rintro (again | ⟨nothing, -⟩)
    · exact (writes_unique writes again).2.2
    · exact absurd writes (nothing slot)
  · exact fun same => .inl (same ▸ writes)

theorem last_unwritten (action : Action) (past : List Action) (frame : FrameId) (name : String) (slot : Slot)
    (nothing : ∀ other, ¬ action.Writes (ancestor? past) (Bound past) frame name other) :
    Last (action :: past) frame name slot ↔ Last past frame name slot := by
  constructor
  · rintro (writes | ⟨-, last⟩)
    · exact absurd writes (nothing slot)
    · exact last
  · exact fun last => .inr ⟨nothing, last⟩

theorem last_unassigned_iff (journal : List Action) (frame : FrameId) (name : String) :
    Last journal frame name .unassigned ↔ OnlyDeclared journal frame name := by
  induction journal with
  | nil => exact ⟨False.elim, fun only => only.1.elim⟩
  | cons action past ih =>
      constructor
      · rintro (writes | ⟨nothing, last⟩)
        · have unbound := writes_unassigned writes
          refine ⟨.inl writes, ?_⟩
          rintro value (other | earlier)
          · cases (writes_unique writes other).2.2
          · exact unbound ⟨_, earlier⟩
        · obtain ⟨declared, never⟩ := ih.mp last
          refine ⟨.inr declared, ?_⟩
          rintro value (writes | earlier)
          · exact nothing _ writes
          · exact never value earlier
      · rintro ⟨declared, never⟩
        by_cases here : action.Writes (ancestor? past) (Bound past) frame name .unassigned
        · exact .inl here
        · have last := ih.mpr ⟨declared.resolve_left here, fun value earlier => never value (.inr earlier)⟩
          refine .inr ⟨?_, last⟩
          intro other writes
          cases other with
          | unassigned => exact here writes
          | holds value => exact never value (.inl writes)

-- An action that makes no frame leaves the links as they are.
theorem links_other (action : Action) (past : List Action) (other : ∀ enclosing, action ≠ .make enclosing) :
    size (action :: past) = size past ∧ enclosing? (action :: past) = enclosing? past := by
  cases action with
  | make enclosing => exact absurd rfl (other enclosing)
  | define | declare | install | update | updateAt => exact ⟨rfl, rfl⟩

end Journal

namespace Heap

-- The forest agrees with what its actions tell.
structure Records (journal : List Action) (heap : Heap) : Prop where
  size : heap.size = Journal.size journal
  links : ∀ frame, heap.enclosing? frame = Journal.enclosing? journal frame
  slots : ∀ frame name slot, heap.slot? frame name = some slot ↔ Journal.Last journal frame name slot

section records

variable {journal : List Action} {heap : Heap} (records : heap.Records journal)

include records

theorem records_ancestor : heap.ancestor? = Journal.ancestor? journal := by
  funext distance
  induction distance with
  | zero => rfl
  | succ distance ih =>
      funext frame
      rw [ancestor?, Journal.ancestor?, records.links, ih]

theorem records_bound : heap.Bound = Journal.Bound journal := by
  funext frame name
  apply propext
  rw [Journal.bound_iff_last, Bound, binds, Option.isSome_iff_exists]
  exact exists_congr (records.slots frame name)

end records

theorem writes_made (heap : Heap) (action : Action) (known : action.Names heap.size) (frame : FrameId) (name : String)
    (slot : Slot) (writes : action.Writes heap.ancestor? heap.Bound frame name slot) : frame < heap.size := by
  cases writes with
  | define | declare | install => exact known frame rfl
  | update _ _ _ _ _ nearest => exact Binding.binds_made heap frame name nearest.binds
  | updateAt _ _ _ _ _ _ bound => exact Binding.binds_made heap frame name bound

-- Nothing is written where a frame is made, and the new frame has no slots.
theorem records_make (past : List Action) (heap : Heap) (records : heap.Records past) (enclosing : Option FrameId) :
    (heap.push enclosing).Records (.make enclosing :: past) := by
  constructor
  · rw [size_push, records.size, Journal.size]
  · intro frame
    rw [Journal.enclosing?, ← records.size]
    by_cases new : frame = heap.size
    · rw [if_pos new, new, enclosing_push_fresh]
    · rw [if_neg new, ← records.links]
      by_cases made : frame < heap.size
      · exact enclosing_push_older heap enclosing frame made
      · have unmade : ¬ frame < (heap.push enclosing).size := by
          rw [size_push]
          exact fun less => new (Nat.le_antisymm (Nat.le_of_lt_succ less) (Nat.le_of_not_gt made))
        rw [enclosing_unmade _ frame unmade, enclosing_unmade _ frame made]
  · intro frame name slot
    rw [slot_push, records.slots, Journal.last_unwritten]
    intro _ writes
    cases writes

theorem records_write (past : List Action) (heap : Heap) (records : heap.Records past) (action : Action)
    (frame : FrameId) (name : String) (slot : Slot) (writes : action.Writes heap.ancestor? heap.Bound frame name slot)
    (made : frame < heap.size) : (heap.put frame name slot).Records (action :: past) := by
  obtain ⟨size, links⟩ := Journal.links_other action past (by rintro _ rfl; cases writes)
  constructor
  · rw [size_put, records.size, size]
  · intro other
    rw [enclosing_put, records.links, links]
  · intro other query content
    rw [records_ancestor records, records_bound records] at writes
    by_cases here : other = frame ∧ query = name
    · obtain ⟨rfl, rfl⟩ := here
      rw [slot_put_here heap other query slot made, Journal.last_written action past other query slot content writes,
        Option.some.injEq]
    · rw [slot_put_elsewhere heap frame other name query slot (Classical.not_and_iff_not_or_not.mp here), records.slots,
        Journal.last_unwritten]
      intro thing again
      obtain ⟨sameFrame, sameName, -⟩ := writes_unique again writes
      exact here ⟨sameFrame, sameName⟩

theorem records_refusal (past : List Action) (heap : Heap) (records : heap.Records past) (action : Action) (cause : Cause)
    (refused : action.refusal? = some cause)
    (nothing : ∀ frame name slot, ¬ action.Writes heap.ancestor? heap.Bound frame name slot) :
    heap.Records (action :: past) := by
  obtain ⟨size, links⟩ := Journal.links_other action past (by rintro _ rfl; cases refused)
  constructor
  · rw [records.size, size]
  · intro frame
    rw [records.links, links]
  · intro frame name slot
    rw [records_ancestor records, records_bound records] at nothing
    rw [records.slots, Journal.last_unwritten action past frame name slot (nothing frame name)]

theorem arises_records (journal : List Action) (heap : Heap) (arises : Arises journal heap) : heap.Records journal := by
  induction arises with
  | empty =>
      refine ⟨rfl, fun frame => enclosing_unmade _ frame (Nat.not_lt_zero _), fun frame name slot => ?_⟩
      rw [slot_unmade _ frame name (Nat.not_lt_zero _)]
      exact ⟨fun held => (by cases held), False.elim⟩
  | act past heap action earlier known records =>
      have attempted := attempt_attempted heap (arises_older past heap earlier) action
      unfold perform
      generalize heap.attempt action = answer at attempted
      cases attempted with
      | made enclosing => exact records_make past heap records enclosing
      | wrote _ frame name slot writes =>
          exact records_write past heap records action frame name slot writes
            (writes_made heap action known frame name slot writes)
      | refused _ cause expected nothing => exact records_refusal past heap records action cause expected nothing

section outcomes

variable {journal : List Action} {heap : Heap} (records : heap.Records journal) (older : heap.LinksOlder)

include records

theorem finds_of_writes (action : Action) (frame : FrameId) (name : String) (slot : Slot)
    (writes : action.Writes heap.ancestor? heap.Bound frame name slot) : Journal.Finds journal action := by
  rw [records_ancestor records, records_bound records] at writes
  cases writes with
  | define _ _ _ unbound => exact unbound
  | declare _ _ unbound => exact unbound
  | install => trivial
  | update _ _ _ _ distance nearest => exact ⟨distance, frame, nearest.reached, nearest.binds⟩
  | updateAt _ _ _ _ _ reached bound => exact ⟨frame, reached, bound⟩

include older

-- Where some frame outwards binds the name, there is a nearest one.
theorem writes_of_finds (action : Action) (other : ∀ enclosing, action ≠ .make enclosing)
    (finds : Journal.Finds journal action) :
    ∃ frame name slot, action.Writes heap.ancestor? heap.Bound frame name slot := by
  cases action with
  | make enclosing => exact absurd rfl (other enclosing)
  | install frame name value => exact ⟨_, _, _, .install frame name value⟩
  | define frame name value =>
      rw [Journal.Finds, ← records_bound records] at finds
      exact ⟨_, _, _, .define frame name value finds⟩
  | declare frame name =>
      rw [Journal.Finds, ← records_bound records] at finds
      exact ⟨_, _, _, .declare frame name finds⟩
  | update frame name value =>
      rw [Journal.Finds, ← records_bound records, ← records_ancestor records] at finds
      obtain ⟨distance, far, reached, bound⟩ := finds
      obtain ⟨home, found⟩ := home_of_ancestor older name distance frame far reached bound
      obtain ⟨steps, nearest⟩ := nearest_of_home older name home frame found
      exact ⟨_, _, _, .update frame home name value steps nearest⟩
  | updateAt frame distance name value =>
      rw [Journal.Finds, ← records_bound records, ← records_ancestor records] at finds
      obtain ⟨home, reached, bound⟩ := finds
      exact ⟨_, _, _, .updateAt frame home distance name value reached bound⟩

theorem attempt_refused_iff (action : Action) (cause : Cause) :
    heap.attempt action = .error cause ↔ action.refusal? = some cause ∧ ¬ Journal.Finds journal action := by
  have attempted := attempt_attempted heap older action
  generalize heap.attempt action = answer at attempted
  cases attempted with
  | made enclosing => exact ⟨fun refused => (by cases refused), fun refused => (by cases refused.1)⟩
  | wrote _ frame name slot writes =>
      exact ⟨fun refused => (by cases refused),
        fun refused => absurd (finds_of_writes records action frame name slot writes) refused.2⟩
  | refused _ given expected nothing =>
      constructor
      · intro same
        cases same
        refine ⟨expected, fun finds => ?_⟩
        obtain ⟨frame, name, slot, writes⟩ :=
          writes_of_finds records older action (by rintro _ rfl; cases expected) finds
        exact nothing frame name slot writes
      · rintro ⟨same, -⟩
        rw [expected] at same
        cases same
        rfl

end outcomes

-- What reading a slot tells of it.

theorem read_ok_iff (heap : Heap) (frame : FrameId) (name : String) (value : Value) :
    heap.read frame name = .ok value ↔ heap.slot? frame name = some (.holds value) := by
  rw [read]
  cases heap.slot? frame name with
  | none => simp
  | some slot => cases slot <;> simp

theorem read_unassigned_iff (heap : Heap) (frame : FrameId) (name : String) :
    heap.read frame name = .error (.unassigned name) ↔ heap.slot? frame name = some .unassigned := by
  rw [read]
  cases heap.slot? frame name with
  | none => simp
  | some slot => cases slot <;> simp

theorem read_unbound_iff (heap : Heap) (frame : FrameId) (name : String) :
    heap.read frame name = .error (.unbound name) ↔ ¬ heap.Bound frame name := by
  rw [read, Bound, binds]
  cases heap.slot? frame name with
  | none => simp
  | some slot => cases slot <;> simp

-- Whatever was done to a forest, a slot at a distance reads as what was written into it last. Binding a name is refused
-- where it is bound, setting it where there is none to set, and what is refused changes nothing.
theorem slots_hold_last_writes (journal : List Action) (heap : Heap) (arises : Arises journal heap) :
    (∀ frame distance name,
      (∀ value, heap.lookupAt frame distance name = .ok value ↔
        ∃ home, Journal.ancestor? journal distance frame = some home ∧ Journal.Last journal home name (.holds value)) ∧
      (heap.lookupAt frame distance name = .error (.unassigned name) ↔
        ∃ home, Journal.ancestor? journal distance frame = some home ∧ Journal.OnlyDeclared journal home name) ∧
      (heap.lookupAt frame distance name = .error (.unbound name) ↔
        ∀ home, Journal.ancestor? journal distance frame = some home → ¬ Journal.Bound journal home name)) ∧
    ∀ action cause,
      (heap.attempt action = .error cause ↔ action.refusal? = some cause ∧ ¬ Journal.Finds journal action) ∧
      (heap.attempt action = .error cause → heap.perform action = heap) := by
  have records := arises_records journal heap arises
  have older := arises_older journal heap arises
  constructor
  · intro frame distance name
    rw [← records_ancestor records, ← records_bound records, lookupAt]
    cases reached : heap.ancestor? distance frame with
    | none => simp
    | some home =>
        simp only [read_ok_iff, read_unassigned_iff, read_unbound_iff, records.slots, Journal.last_unassigned_iff]
        simp
  · intro action cause
    refine ⟨attempt_refused_iff records older action cause, ?_⟩
    intro refused
    rw [perform, refused]

-- A name is declared again between its first declaration and its use, set from further in, and defined once too often.

def rewriting : List Action := .define 1 "a" .nil :: .update 2 "a" (.text "near") :: shadowing

def rewritten : Heap := (shadowed.perform (.update 2 "a" (.text "near"))).perform (.define 1 "a" .nil)

theorem rewritten_holds :
    Arises rewriting rewritten ∧
      (∃ home, Journal.ancestor? rewriting 1 2 = some home ∧ Journal.Last rewriting home "a" (.holds (.text "near"))) ∧
      (∃ home, Journal.ancestor? rewriting 2 2 = some home ∧ Journal.Last rewriting home "a" (.holds .nil)) ∧
      (∀ home, Journal.ancestor? rewriting 0 2 = some home → ¬ Journal.Bound rewriting home "a") ∧
      ¬ Journal.Finds rewriting (.declare 1 "a") ∧ rewritten.perform (.declare 1 "a") = rewritten := by
  have arises : Arises rewriting rewritten :=
    .act _ _ _ (.act _ _ _ shadowing_arises (by decide)) (by decide)
  obtain ⟨reads, attempts⟩ := slots_hold_last_writes rewriting rewritten arises
  have refused : rewritten.attempt (.declare 1 "a") = .error (.rebound "a") := rfl
  exact ⟨arises, ((reads 2 1 "a").1 (.text "near")).mp rfl, ((reads 2 2 "a").1 .nil).mp rfl, (reads 2 0 "a").2.2.mp rfl,
    ((attempts _ _).1.mp refused).2, (attempts _ _).2 refused⟩

end Heap

end Treewalk
