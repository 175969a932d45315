import Treewalk.Proofs.OwnWrites

/-!
Frames against the scopes of the analysis. Where a statement stands, the current frame binds what the innermost
scope declares and no more, and the frames around it bind at least what the scopes around declare. In an initializer
the innermost scope holds one name more, which the frame does not bind yet. A value is sound if it is no function or
one whose frame lies in the scopes its body was analysed in.
-/

set_option autoImplicit false

namespace Treewalk.Binding

structure Grows (before after : Heap) : Prop where
  size : before.size ≤ after.size
  enclosing : ∀ frame parent, before.enclosing? frame = some parent → after.enclosing? frame = some parent
  binds : ∀ frame name, before.binds frame name = true → after.binds frame name = true

theorem grows_refl (heap : Heap) : Grows heap heap :=
  ⟨Nat.le_refl _, fun _ _ link => link, fun _ _ bound => bound⟩

theorem grows_trans (first second third : Heap) (early : Grows first second) (late : Grows second third) :
    Grows first third :=
  ⟨Nat.le_trans early.size late.size, fun frame parent link => late.enclosing frame parent
    (early.enclosing frame parent link), fun frame name bound => late.binds frame name (early.binds frame name bound)⟩

theorem binds_made (heap : Heap) (frame : FrameId) (name : String) (bound : heap.binds frame name = true) :
    frame < heap.size := by
  by_cases made : frame < heap.size
  · exact made
  · have absent : heap.frames[frame]? = none := Array.getElem?_eq_none (Nat.le_of_not_gt made)
    simp [Heap.binds, Heap.slot?, absent] at bound

theorem binds_put_here (heap : Heap) (frame : FrameId) (name : String) (slot : Slot) (made : frame < heap.size) :
    (heap.put frame name slot).binds frame name = true := by
  rw [Heap.binds, Heap.slot_put_here heap frame name slot made]
  rfl

theorem binds_put_elsewhere (heap : Heap) (frame other : FrameId) (name query : String) (slot : Slot)
    (different : other ≠ frame ∨ query ≠ name) :
    (heap.put frame name slot).binds other query = heap.binds other query := by
  rw [Heap.binds, Heap.slot_put_elsewhere heap frame other name query slot different, Heap.binds]

theorem binds_put_bound (heap : Heap) (frame other : FrameId) (name query : String) (slot : Slot)
    (bound : heap.binds frame name = true) : (heap.put frame name slot).binds other query = heap.binds other query := by
  by_cases here : other = frame ∧ query = name
  · obtain ⟨rfl, rfl⟩ := here
    rw [bound, binds_put_here heap other query slot (binds_made heap other query bound)]
  · apply binds_put_elsewhere
    by_cases same : other = frame
    · exact .inr (fun names => here ⟨same, names⟩)
    · exact .inl same

-- What is held behind a change is what the change put there, or was held before.
theorem held_put (heap : Heap) (frame other : FrameId) (name query : String) (slot content : Slot)
    (held : (heap.put frame name slot).slot? other query = some content) :
    slot = content ∨ heap.slot? other query = some content := by
  by_cases here : other = frame ∧ query = name
  · obtain ⟨rfl, rfl⟩ := here
    by_cases made : other < heap.size
    · rw [Heap.slot_put_here heap other query slot made] at held
      exact .inl (Option.some.inj held)
    · rw [Heap.slot_unmade _ _ _ (by rw [Heap.size_put]; exact made)] at held
      cases held
  · rw [Heap.slot_put_elsewhere heap frame other name query slot (Classical.not_and_iff_not_or_not.mp here)] at held
    exact .inr held

theorem grows_put (heap : Heap) (frame : FrameId) (name : String) (slot : Slot) (made : frame < heap.size) :
    Grows heap (heap.put frame name slot) := by
  constructor
  · exact Nat.le_of_eq (Heap.size_put heap frame name slot).symm
  · intro other parent link
    rw [Heap.enclosing_put]
    exact link
  · intro other query bound
    by_cases here : other = frame ∧ query = name
    · obtain ⟨rfl, rfl⟩ := here
      exact binds_put_here heap other query slot made
    · rw [binds_put_elsewhere heap frame other name query slot]
      · exact bound
      · by_cases same : other = frame
        · exact .inr (fun names => here ⟨same, names⟩)
        · exact .inl same

theorem binds_push (heap : Heap) (enclosing : Option FrameId) (frame : FrameId) (name : String) :
    (heap.push enclosing).binds frame name = heap.binds frame name := by
  rw [Heap.binds, Heap.slot_push, Heap.binds]

theorem grows_push (heap : Heap) (enclosing : Option FrameId) : Grows heap (heap.push enclosing) := by
  constructor
  · rw [Heap.size_push]
    exact Nat.le_succ _
  · intro frame parent link
    rw [Heap.enclosing_push_older heap enclosing frame (Heap.enclosing_made heap frame parent link)]
    exact link
  · intro frame name bound
    rw [binds_push]
    exact bound

-- A use reads and sets its name in one frame: the one at its distance, or that of the globals.

theorem home_global (heap : Heap) (name : String) :
    heap.home? globalFrame name = if heap.binds globalFrame name then some globalFrame else none := by
  have chain : heap.chain globalFrame = [globalFrame] := by
    simp only [Heap.chain, Heap.chainWithin]
    cases heap.enclosing? globalFrame <;> rfl
  rw [Heap.home?, chain, List.find?_cons, List.find?_nil]
  cases heap.binds globalFrame name <;> rfl

section uses

variable (machine : Machine) (label : NodeId)

theorem valueOf_at (distance : Nat) (name : String) (home : FrameId)
    (recorded : machine.distances[label]? = some distance)
    (reached : machine.heap.ancestor? distance machine.frame = some home) :
    machine.valueOf label name = machine.heap.read home name := by
  simp only [Machine.valueOf, recorded, Heap.lookupAt, reached]

theorem valueOf_global (name : String) (unrecorded : machine.distances[label]? = none) :
    machine.valueOf label name = machine.heap.read globalFrame name := by
  simp only [Machine.valueOf, unrecorded, Heap.lookup, home_global]
  cases binds : machine.heap.binds globalFrame name with
  | true => rfl
  | false =>
      have unbound : machine.heap.slot? globalFrame name = none := by simpa [Heap.binds] using binds
      simp [Heap.read, unbound]

theorem store_at (distance : Nat) (name : Token) (value : Value) (home : FrameId)
    (recorded : machine.distances[label]? = some distance)
    (reached : machine.heap.ancestor? distance machine.frame = some home) :
    Run.store label name value machine =
      if machine.heap.binds home name.lexeme = true then
        .done () { machine with heap := machine.heap.put home name.lexeme (.holds value) }
      else .fault ⟨.unbound name.lexeme, name.line⟩ machine := by
  simp only [Run.store, recorded, Run.change, Heap.updateAt, reached]
  cases machine.heap.binds home name.lexeme <;> rfl

theorem store_global (name : Token) (value : Value) (unrecorded : machine.distances[label]? = none) :
    Run.store label name value machine =
      if machine.heap.binds globalFrame name.lexeme = true then
        .done () { machine with heap := machine.heap.put globalFrame name.lexeme (.holds value) }
      else .fault ⟨.unbound name.lexeme, name.line⟩ machine := by
  simp only [Run.store, unrecorded, Run.change, Heap.update, home_global]
  cases machine.heap.binds globalFrame name.lexeme <;> rfl

end uses

-- Scopes, innermost first, against frames from one outwards, which bind all that the scopes declare.
def Encloses (heap : Heap) : List Scope → FrameId → Prop
  | [], frame => frame = globalFrame
  | scope :: outer, frame =>
      frame ≠ globalFrame ∧ (∀ name, scope.declares name = true → heap.binds frame name = true) ∧
      ∃ parent, heap.enclosing? frame = some parent ∧ Encloses heap outer parent

-- Where an expression is evaluated: the innermost scope may declare a name whose value is being computed.
def Overlooks (heap : Heap) : List Scope → FrameId → Prop
  | [], frame => frame = globalFrame
  | scope :: outer, frame =>
      frame ≠ globalFrame ∧
      (∀ name, scope.declares name = true → (heap.binds frame name = true ↔ ¬ scope.lookup name = some false)) ∧
      ∃ parent, heap.enclosing? frame = some parent ∧ Encloses heap outer parent

-- Where a statement stands.
def Stands (heap : Heap) (scopes : List Scope) (frame : FrameId) : Prop :=
  Encloses heap scopes frame ∧ Scope.Ready scopes ∧
    ∀ scope ∈ scopes.head?, ∀ name, heap.binds frame name = scope.declares name

theorem encloses_grows (before after : Heap) (grows : Grows before after) (scopes : List Scope) : ∀ frame : FrameId,
    Encloses before scopes frame → Encloses after scopes frame := by
  induction scopes with
  | nil => exact fun _ root => root
  | cons scope outer ih =>
      rintro frame ⟨inner, bound, parent, link, encloses⟩
      exact ⟨inner, fun name declared => grows.binds frame name (bound name declared), parent,
        grows.enclosing frame parent link, ih parent encloses⟩

theorem overlooks_grows (before after : Heap) (scopes : List Scope) (frame : FrameId) (grows : Grows before after)
    (same : ∀ name, after.binds frame name = before.binds frame name) (overlooks : Overlooks before scopes frame) :
    Overlooks after scopes frame := by
  cases scopes with
  | nil => exact overlooks
  | cons scope outer =>
      obtain ⟨inner, bound, parent, link, encloses⟩ := overlooks
      refine ⟨inner, ?_, parent, grows.enclosing frame parent link, encloses_grows before after grows outer parent encloses⟩
      intro name declared
      rw [same name]
      exact bound name declared

theorem stands_grows (before after : Heap) (scopes : List Scope) (frame : FrameId) (grows : Grows before after)
    (same : ∀ name, after.binds frame name = before.binds frame name) (stands : Stands before scopes frame) :
    Stands after scopes frame := by
  obtain ⟨encloses, ready, exactly⟩ := stands
  refine ⟨encloses_grows before after grows scopes frame encloses, ready, ?_⟩
  intro scope innermost name
  rw [same name]
  exact exactly scope innermost name

theorem stands_overlooks (heap : Heap) (scopes : List Scope) (frame : FrameId) (stands : Stands heap scopes frame) :
    Overlooks heap scopes frame := by
  obtain ⟨encloses, ready, -⟩ := stands
  cases scopes with
  | nil => exact encloses
  | cons scope outer =>
      obtain ⟨inner, bound, parent, link, beyond⟩ := encloses
      exact ⟨inner, fun name declared => ⟨fun _ => ready name, fun _ => bound name declared⟩, parent, link, beyond⟩

-- In an initializer the variable is declared, and not bound yet.
theorem stands_initializer (heap : Heap) (name : Token) (scopes : List Scope) (frame : FrameId)
    (stands : Stands heap scopes frame) (single : ∀ inner ∈ scopes.head?, inner.declares name.lexeme = false) :
    Overlooks heap (Scope.declare name scopes) frame := by
  cases scopes with
  | nil => exact stands.1
  | cons scope outer =>
      obtain ⟨⟨inner, bound, parent, link, beyond⟩, ready, exactly⟩ := stands
      have undeclared : scope.declares name.lexeme = false := single scope rfl
      have declares : Scope.declare name (scope :: outer) = ((name.lexeme, false) :: scope) :: outer := by
        simp [Scope.declare, undeclared]
      rw [declares]
      refine ⟨inner, ?_, parent, link, beyond⟩
      intro other declared
      by_cases same : other = name.lexeme
      · subst same
        simp [exactly scope rfl, undeclared]
      · have apart : (other == name.lexeme) = false := beq_false_of_ne same
        have older : scope.declares other = true := by simpa [Scope.declares, List.lookup_cons, apart] using declared
        have settled := ready other
        simp only [List.lookup_cons, apart]
        exact ⟨fun _ => settled, fun _ => bound other older⟩

-- A declaration binds its name in the current frame.
theorem stands_bind (heap : Heap) (name : Token) (slot : Slot) (scopes : List Scope) (frame : FrameId)
    (stands : Stands heap scopes frame) (made : frame < heap.size)
    (single : ∀ inner ∈ scopes.head?, inner.declares name.lexeme = false) :
    Stands (heap.put frame name.lexeme slot) (Scope.bind name scopes) frame := by
  have grows := grows_put heap frame name.lexeme slot made
  obtain ⟨encloses, ready, exactly⟩ := stands
  refine ⟨?_, ready_bind name scopes ready, ?_⟩
  · cases scopes with
    | nil => exact encloses
    | cons scope outer =>
        obtain ⟨inner, bound, parent, link, beyond⟩ := encloses
        obtain ⟨after, scopes, declares⟩ := Scope.bind_undeclared name scope outer (single scope rfl)
        rw [scopes]
        refine ⟨inner, ?_, parent, grows.enclosing frame parent link, encloses_grows _ _ grows outer parent beyond⟩
        intro other declared
        by_cases same : other = name.lexeme
        · subst same
          exact binds_put_here heap frame name.lexeme slot made
        · have older : scope.declares other = true := by simpa [declares, same] using declared
          exact grows.binds frame other (bound other older)
  · cases scopes with
    | nil => exact fun _ innermost => nomatch innermost
    | cons scope outer =>
        obtain ⟨after, scopes, declares⟩ := Scope.bind_undeclared name scope outer (single scope rfl)
        rw [scopes]
        intro innermost same other
        cases same
        rw [declares]
        by_cases here : other = name.lexeme
        · subst here
          simp [binds_put_here heap frame name.lexeme slot made]
        · rw [binds_put_elsewhere heap frame frame name.lexeme other slot (.inr here), exactly scope rfl]
          simp [here]

-- A new frame, in which nothing is declared yet.
theorem stands_open (heap : Heap) (scopes : List Scope) (parent : FrameId) (rooted : globalFrame < heap.size)
    (encloses : Encloses heap scopes parent) : Stands (heap.push (some parent)) ([] :: scopes) heap.size := by
  have grows := grows_push heap (some parent)
  refine ⟨⟨Nat.ne_of_gt rooted, fun _ declared => (nomatch declared), parent, Heap.enclosing_push_fresh _ _,
    encloses_grows _ _ grows scopes parent encloses⟩, ready_open scopes, ?_⟩
  intro scope innermost name
  cases innermost
  rw [binds_push]
  have absent : heap.frames[heap.size]? = none := Array.getElem?_eq_none (Nat.le_refl _)
  rw [Heap.binds, Heap.slot?, absent]
  rfl

-- A declared name is found at its distance in a local frame, which binds it unless it waits for its value.
theorem encloses_distance (heap : Heap) (name : String) (scopes : List Scope) : ∀ (frame : FrameId) (distance : Nat),
    Encloses heap scopes frame → Scope.distance? scopes name = some distance →
    ∃ home, heap.ancestor? distance frame = some home ∧ home ≠ globalFrame ∧ heap.binds home name = true := by
  induction scopes with
  | nil => exact fun _ _ _ found => nomatch found
  | cons scope outer ih =>
      rintro frame distance ⟨inner, bound, parent, link, beyond⟩ found
      unfold Scope.distance? at found ih
      rw [List.findIdx?_cons] at found
      cases declared : scope.declares name with
      | true =>
          rw [declared, if_pos rfl] at found
          cases found
          exact ⟨frame, rfl, inner, bound name declared⟩
      | false =>
          rw [declared, if_neg Bool.false_ne_true] at found
          obtain ⟨steps, later, rfl⟩ := Option.map_eq_some_iff.mp found
          obtain ⟨home, reached, isLocal, binds⟩ := ih parent steps beyond later
          refine ⟨home, ?_, isLocal, binds⟩
          rw [Heap.ancestor?, link]
          exact reached

theorem overlooks_distance (heap : Heap) (name : String) (scopes : List Scope) (frame : FrameId) (distance : Nat)
    (overlooks : Overlooks heap scopes frame) (found : Scope.distance? scopes name = some distance) :
    ∃ home, heap.ancestor? distance frame = some home ∧ home ≠ globalFrame ∧
      (heap.binds home name = true ↔ ¬ Scope.pending scopes name) := by
  cases scopes with
  | nil => cases found
  | cons scope outer =>
      obtain ⟨inner, bound, parent, link, beyond⟩ := overlooks
      unfold Scope.distance? at found
      rw [List.findIdx?_cons] at found
      cases declared : scope.declares name with
      | true =>
          rw [declared, if_pos rfl] at found
          cases found
          exact ⟨frame, rfl, inner, bound name declared⟩
      | false =>
          rw [declared, if_neg Bool.false_ne_true] at found
          obtain ⟨steps, later, rfl⟩ := Option.map_eq_some_iff.mp found
          obtain ⟨home, reached, isLocal, binds⟩ := encloses_distance heap name outer parent steps beyond later
          have absent : scope.lookup name = none := by simpa [Scope.declares] using declared
          refine ⟨home, ?_, isLocal, ?_⟩
          · rw [Heap.ancestor?, link]
            exact reached
          · simp [binds, Scope.pending, absent]

end Treewalk.Binding
