import Treewalk.Frame

/-!
Forests of frames. A frame is made outside of all others or inside one that is there already, and names are bound and
set in frames; an action that fails leaves the forest as it was. So every link leads to an older frame, and a walk
outwards comes through the frames that jumps of none, one, two and more steps lead to. Walking out to the nearest frame
that binds a name is then the same as jumping to it.
-/

set_option autoImplicit false

namespace Treewalk

-- What may be done to a forest.
inductive Action where
  | make (enclosing : Option FrameId)
  | define (frame : FrameId) (name : String) (value : Value)
  | declare (frame : FrameId) (name : String)
  | install (frame : FrameId) (name : String) (value : Value)
  | update (frame : FrameId) (name : String) (value : Value)
  | updateAt (frame : FrameId) (distance : Nat) (name : String) (value : Value)

def Action.frame? : Action → Option FrameId
  | .make enclosing => enclosing
  | .define frame _ _ | .declare frame _ | .install frame _ _ | .update frame _ _ | .updateAt frame _ _ _ => some frame

-- The frame that an action names is among the first so many.
def Action.Names (size : Nat) (action : Action) : Prop := ∀ frame ∈ action.frame?, frame < size

instance (size : Nat) (action : Action) : Decidable (action.Names size) :=
  inferInstanceAs (Decidable (∀ frame ∈ action.frame?, frame < size))

-- Why an action is refused, if it ever is.
def Action.refusal? : Action → Option Cause
  | .make _ | .install _ _ _ => none
  | .define _ name _ | .declare _ name => some (.rebound name)
  | .update _ name _ | .updateAt _ _ name _ => some (.unbound name)

-- The first frame from one outwards that binds a name, and how many steps out it is.
structure NearestHome (ancestor? : Nat → FrameId → Option FrameId) (bound : FrameId → String → Prop) (frame : FrameId)
    (name : String) (distance : Nat) (home : FrameId) : Prop where
  reached : ancestor? distance frame = some home
  binds : bound home name
  first : ∀ closer other, closer < distance → ancestor? closer frame = some other → ¬ bound other name

theorem nearest_unique {ancestor? : Nat → FrameId → Option FrameId} {bound : FrameId → String → Prop} {frame home other : FrameId}
    {name : String} {distance further : Nat} (near : NearestHome ancestor? bound frame name distance home)
    (again : NearestHome ancestor? bound frame name further other) : home = other := by
  rcases Nat.lt_trichotomy distance further with less | same | more
  · exact absurd near.binds (again.first distance home less near.reached)
  · subst same
    exact Option.some.inj (near.reached.symm.trans again.reached)
  · exact absurd again.binds (near.first further other more again.reached)

-- An action writes something into a slot, given the links and the names bound before it.
inductive Action.Writes (ancestor? : Nat → FrameId → Option FrameId) (bound : FrameId → String → Prop) :
    Action → FrameId → String → Slot → Prop where
  | define (frame : FrameId) (name : String) (value : Value) (unbound : ¬ bound frame name) :
      Writes ancestor? bound (.define frame name value) frame name (.holds value)
  | declare (frame : FrameId) (name : String) (unbound : ¬ bound frame name) :
      Writes ancestor? bound (.declare frame name) frame name .unassigned
  | install (frame : FrameId) (name : String) (value : Value) :
      Writes ancestor? bound (.install frame name value) frame name (.holds value)
  | update (frame home : FrameId) (name : String) (value : Value) (distance : Nat)
      (nearest : NearestHome ancestor? bound frame name distance home) :
      Writes ancestor? bound (.update frame name value) home name (.holds value)
  | updateAt (frame home : FrameId) (distance : Nat) (name : String) (value : Value)
      (reached : ancestor? distance frame = some home) (binds : bound home name) :
      Writes ancestor? bound (.updateAt frame distance name value) home name (.holds value)

namespace Heap

def Bound (heap : Heap) (frame : FrameId) (name : String) : Prop := heap.binds frame name = true

instance (heap : Heap) (frame : FrameId) (name : String) : Decidable (heap.Bound frame name) :=
  inferInstanceAs (Decidable (_ = true))

def attempt (heap : Heap) : Action → Except Cause Heap
  | .make enclosing => .ok (heap.push enclosing)
  | .define frame name value => heap.define frame name value
  | .declare frame name => heap.declare frame name
  | .install frame name value => .ok (heap.install frame name value)
  | .update frame name value => heap.update frame name value
  | .updateAt frame distance name value => heap.updateAt frame distance name value

def perform (heap : Heap) (action : Action) : Heap :=
  match heap.attempt action with
  | .ok after => after
  | .error _ => heap

-- The forests that actions lead to, and the actions, newest first.
inductive Arises : List Action → Heap → Prop where
  | empty : Arises [] Heap.empty
  | act (past : List Action) (heap : Heap) (action : Action) (earlier : Arises past heap)
      (known : action.Names heap.size) : Arises (action :: past) (heap.perform action)

def LinksOlder (heap : Heap) : Prop := ∀ frame parent, heap.enclosing? frame = some parent → parent < frame

theorem ancestor_step (heap : Heap) (frame parent : FrameId) (link : heap.enclosing? frame = some parent) (distance : Nat) :
    heap.ancestor? (distance + 1) frame = heap.ancestor? distance parent := by
  rw [ancestor?, link, Option.bind_some]

theorem ancestor_outermost (heap : Heap) (frame : FrameId) (root : heap.enclosing? frame = none) (distance : Nat) :
    heap.ancestor? (distance + 1) frame = none := by
  rw [ancestor?, root, Option.bind_none]

section walking

variable {heap : Heap} (older : heap.LinksOlder)

include older

-- A chain is no longer than the place of its first frame, so more room adds nothing to it.
theorem chainWithin_room (count : Nat) : ∀ other frame, frame < count → frame < other →
    heap.chainWithin count frame = heap.chainWithin other frame := by
  induction count with
  | zero => exact fun _ _ less => absurd less (Nat.not_lt_zero _)
  | succ count ih =>
      intro other frame less room
      cases other with
      | zero => omega
      | succ other =>
          rw [chainWithin, chainWithin]
          cases link : heap.enclosing? frame with
          | none => rfl
          | some parent =>
              have before := older frame parent link
              exact congrArg (frame :: ·) (ih other parent (Nat.lt_of_lt_of_le before (Nat.le_of_lt_succ less))
                (Nat.lt_of_lt_of_le before (Nat.le_of_lt_succ room)))

-- One step of the walk.
theorem home_walk (frame : FrameId) (name : String) :
    heap.home? frame name =
      if heap.binds frame name = true then some frame else (heap.enclosing? frame).bind (heap.home? · name) := by
  rw [home?, chain, chainWithin, List.find?_cons]
  cases heap.binds frame name with
  | true => rfl
  | false =>
      cases link : heap.enclosing? frame with
      | none => rfl
      | some parent =>
          have before := older frame parent link
          simp only [Option.elim_some, Option.bind_some, Bool.false_eq_true, if_false]
          rw [home?, chain, chainWithin_room older frame (parent + 1) parent before (Nat.lt_succ_self parent)]

-- The walk finds a name that is bound anywhere further out.
theorem home_of_ancestor (name : String) (distance : Nat) : ∀ frame other, heap.ancestor? distance frame = some other →
    heap.Bound other name → ∃ home, heap.home? frame name = some home := by
  induction distance with
  | zero =>
      intro frame other reached bound
      cases reached
      have here : heap.binds frame name = true := bound
      exact ⟨frame, by rw [home_walk older, if_pos here]⟩
  | succ distance ih =>
      intro frame other reached bound
      by_cases here : heap.binds frame name = true
      · exact ⟨frame, by rw [home_walk older, if_pos here]⟩
      · cases link : heap.enclosing? frame with
        | none =>
            rw [ancestor_outermost heap frame link] at reached
            cases reached
        | some parent =>
            rw [ancestor_step heap frame parent link] at reached
            obtain ⟨home, found⟩ := ih parent other reached bound
            exact ⟨home, by rw [home_walk older, if_neg here, link, Option.bind_some, found]⟩

-- The walk ends at the least distance.
theorem nearest_of_home (name : String) (home frame : FrameId) : heap.home? frame name = some home →
    ∃ distance, NearestHome heap.ancestor? heap.Bound frame name distance home := by
  induction frame using Nat.strongRecOn with
  | ind frame ih =>
      intro found
      rw [home_walk older] at found
      by_cases here : heap.binds frame name = true
      · rw [if_pos here] at found
        cases found
        exact ⟨0, rfl, here, fun closer _ less => absurd less (Nat.not_lt_zero closer)⟩
      · rw [if_neg here] at found
        obtain ⟨parent, link, found⟩ := Option.bind_eq_some_iff.mp found
        obtain ⟨distance, nearest⟩ := ih parent (older frame parent link) found
        have reached : heap.ancestor? (distance + 1) frame = some home := by
          rw [ancestor_step heap frame parent link]
          exact nearest.reached
        refine ⟨distance + 1, reached, nearest.binds, ?_⟩
        intro closer other less between
        cases closer with
        | zero =>
            cases between
            exact here
        | succ closer =>
            rw [ancestor_step heap frame parent link] at between
            exact nearest.first closer other (Nat.lt_of_succ_lt_succ less) between

theorem home_iff_nearest (frame home : FrameId) (name : String) :
    heap.home? frame name = some home ↔ ∃ distance, NearestHome heap.ancestor? heap.Bound frame name distance home := by
  constructor
  · exact nearest_of_home older name home frame
  · rintro ⟨distance, nearest⟩
    obtain ⟨found, walked⟩ := home_of_ancestor older name distance frame home nearest.reached nearest.binds
    obtain ⟨steps, other⟩ := nearest_of_home older name found frame walked
    rw [walked, nearest_unique other nearest]

end walking

-- How an attempt ends: a frame is made, or one slot is written, or nothing could be written and the action is refused.
inductive Attempted (heap : Heap) : Action → Except Cause Heap → Prop where
  | made (enclosing : Option FrameId) : Attempted heap (.make enclosing) (.ok (heap.push enclosing))
  | wrote (action : Action) (frame : FrameId) (name : String) (slot : Slot)
      (writes : action.Writes heap.ancestor? heap.Bound frame name slot) :
      Attempted heap action (.ok (heap.put frame name slot))
  | refused (action : Action) (cause : Cause) (expected : action.refusal? = some cause)
      (nothing : ∀ frame name slot, ¬ action.Writes heap.ancestor? heap.Bound frame name slot) :
      Attempted heap action (.error cause)

theorem attempt_attempted (heap : Heap) (older : heap.LinksOlder) (action : Action) :
    heap.Attempted action (heap.attempt action) := by
  cases action with
  | make enclosing => exact .made enclosing
  | install frame name value => exact .wrote _ frame name _ (.install frame name value)
  | define frame name value =>
      rw [attempt, define, Heap.bind]
      by_cases bound : heap.binds frame name = true
      · rw [if_pos bound]
        refine .refused _ _ rfl ?_
        intro _ _ _ writes
        cases writes with
        | define _ _ _ unbound => exact unbound bound
      · rw [if_neg bound]
        exact .wrote _ frame name _ (.define frame name value bound)
  | declare frame name =>
      rw [attempt, declare, Heap.bind]
      by_cases bound : heap.binds frame name = true
      · rw [if_pos bound]
        refine .refused _ _ rfl ?_
        intro _ _ _ writes
        cases writes with
        | declare _ _ unbound => exact unbound bound
      · rw [if_neg bound]
        exact .wrote _ frame name _ (.declare frame name bound)
  | update frame name value =>
      rw [attempt, update]
      cases found : heap.home? frame name with
      | none =>
          refine .refused _ _ rfl ?_
          intro home _ _ writes
          cases writes with
          | update _ _ _ _ distance nearest =>
              rw [(home_iff_nearest older frame home name).mpr ⟨distance, nearest⟩] at found
              cases found
      | some home =>
          obtain ⟨distance, nearest⟩ := nearest_of_home older name home frame found
          exact .wrote _ home name _ (.update frame home name value distance nearest)
  | updateAt frame distance name value =>
      rw [attempt, updateAt]
      cases reached : heap.ancestor? distance frame with
      | none =>
          refine .refused _ _ rfl ?_
          intro home _ _ writes
          cases writes with
          | updateAt _ _ _ _ _ there =>
              rw [reached] at there
              cases there
      | some home =>
          by_cases bound : heap.binds home name = true
          · simp only [if_pos bound]
            exact .wrote _ home name _ (.updateAt frame home distance name value reached bound)
          · simp only [if_neg bound]
            refine .refused _ _ rfl ?_
            intro other _ _ writes
            cases writes with
            | updateAt _ _ _ _ _ there binds =>
                rw [reached] at there
                cases there
                exact bound binds

theorem arises_older (journal : List Action) (heap : Heap) (arises : Arises journal heap) : heap.LinksOlder := by
  induction arises with
  | empty =>
      intro frame parent link
      cases enclosing_made _ frame parent link
  | act past heap action earlier known older =>
      have attempted := attempt_attempted heap older action
      unfold perform
      generalize heap.attempt action = answer at attempted
      cases attempted with
      | made enclosing =>
          intro frame parent link
          by_cases made : frame < heap.size
          · rw [enclosing_push_older heap enclosing frame made] at link
            exact older frame parent link
          · have new : frame = heap.size := by
              have bounded := enclosing_made _ frame parent link
              rw [size_push] at bounded
              exact Nat.le_antisymm (Nat.le_of_lt_succ bounded) (Nat.le_of_not_gt made)
            rw [new, enclosing_push_fresh] at link
            rw [new]
            exact known parent link
      | wrote _ home name slot =>
          intro frame parent link
          rw [enclosing_put] at link
          exact older frame parent link
      | refused => exact older

-- Where the nearest frame with a name is so many steps out, walking and jumping so far read the same and set the same.
-- Where no frame outwards has it, neither finds it, however far one jumps, and nothing is set.
theorem walking_agrees_with_jumping (journal : List Action) (heap : Heap) (arises : Arises journal heap) (frame : FrameId)
    (name : String) (value : Value) :
    (∀ distance home, NearestHome heap.ancestor? heap.Bound frame name distance home →
      heap.lookup frame name = heap.lookupAt frame distance name ∧
      ∃ after, heap.update frame name value = .ok after ∧ heap.updateAt frame distance name value = .ok after) ∧
    ((∀ distance other, heap.ancestor? distance frame = some other → ¬ heap.Bound other name) →
      heap.lookup frame name = .error (.unbound name) ∧ heap.update frame name value = .error (.unbound name) ∧
      heap.perform (.update frame name value) = heap ∧
      ∀ distance, heap.lookupAt frame distance name = .error (.unbound name) ∧
        heap.updateAt frame distance name value = .error (.unbound name) ∧
        heap.perform (.updateAt frame distance name value) = heap) := by
  have older := arises_older journal heap arises
  constructor
  · intro distance home nearest
    have found := (home_iff_nearest older frame home name).mpr ⟨distance, nearest⟩
    have bound : heap.binds home name = true := nearest.binds
    constructor
    · rw [lookup, lookupAt, found, nearest.reached]
    · refine ⟨heap.put home name (.holds value), ?_, ?_⟩
      · rw [update, found]
      · simp only [updateAt, nearest.reached, if_pos bound]
  · intro nowhere
    have missing : heap.home? frame name = none := by
      cases found : heap.home? frame name with
      | none => rfl
      | some home =>
          obtain ⟨distance, nearest⟩ := nearest_of_home older name home frame found
          exact absurd nearest.binds (nowhere distance home nearest.reached)
    have kept : heap.update frame name value = .error (.unbound name) := by rw [update, missing]
    refine ⟨by rw [lookup, missing], kept, by rw [perform, attempt, kept], ?_⟩
    intro distance
    have far : heap.lookupAt frame distance name = .error (.unbound name) ∧
        heap.updateAt frame distance name value = .error (.unbound name) := by
      rw [lookupAt, updateAt]
      cases reached : heap.ancestor? distance frame with
      | none => exact ⟨rfl, rfl⟩
      | some other =>
          have unbound : heap.binds other name = false := Bool.eq_false_iff.mpr (nowhere distance other reached)
          have empty : heap.slot? other name = none := by simpa [binds] using unbound
          simp [read, empty, unbound]
    exact ⟨far.1, far.2, by rw [perform, attempt, far.2]⟩

-- Three frames inside each other. The outer one binds a name, and the middle one declares it again.

def shadowing : List Action :=
  [.declare 1 "a", .define 0 "a" .nil, .make (some 1), .make (some 0), .make none]

def shadowed : Heap := shadowing.foldr (fun action heap => heap.perform action) Heap.empty

theorem shadowing_arises : Arises shadowing shadowed := by
  refine .act _ _ _ (.act _ _ _ (.act _ _ _ (.act _ _ _ (.act _ _ _ .empty ?_) ?_) ?_) ?_) ?_
  all_goals decide

theorem shadowed_agrees :
    NearestHome shadowed.ancestor? shadowed.Bound 2 "a" 1 1 ∧ shadowed.lookup 2 "a" = .error (.unassigned "a") ∧
      shadowed.lookupAt 2 1 "a" = .error (.unassigned "a") ∧
      (∃ after, shadowed.update 2 "a" .nil = .ok after ∧ shadowed.updateAt 2 1 "a" .nil = .ok after) ∧
      (∀ distance other, shadowed.ancestor? distance 2 = some other → ¬ shadowed.Bound other "b") ∧
      shadowed.lookup 2 "b" = .error (.unbound "b") ∧ shadowed.lookupAt 2 9 "b" = .error (.unbound "b") := by
  have nearest : NearestHome shadowed.ancestor? shadowed.Bound 2 "a" 1 1 := by
    refine ⟨rfl, by decide, ?_⟩
    intro closer other less reached
    cases Nat.lt_one_iff.mp less
    cases reached
    decide
  have nowhere (distance : Nat) (other : FrameId) (reached : shadowed.ancestor? distance 2 = some other) :
      ¬ shadowed.Bound other "b" := by
    rcases distance with _ | _ | _ | distance
    all_goals cases reached
    all_goals decide
  obtain ⟨same, sets⟩ := (walking_agrees_with_jumping shadowing shadowed shadowing_arises 2 "a" .nil).1 1 1 nearest
  obtain ⟨missing, -, -, far⟩ := (walking_agrees_with_jumping shadowing shadowed shadowing_arises 2 "b" .nil).2 nowhere
  have read : shadowed.lookupAt 2 1 "a" = .error (.unassigned "a") := rfl
  exact ⟨nearest, same.trans read, read, sets, nowhere, missing, (far 9).1⟩

end Heap

end Treewalk
