import Treewalk.Proofs.Frames
import Treewalk.Proofs.Manners
import Treewalk.Proofs.Operators

/-!
How frames stand for cells. A world gives the cell of each name that a local frame binds. The machine and the
state match in a world if frames and cells hold the same values; a function is the same if its frame is linked
to its names through the scopes that were open at its declaration.
-/

set_option autoImplicit false

namespace Treewalk.Lexical

abbrev World := FrameId → String → Option Cell

-- What is recorded about all programs so far, and whether variables that wait for their values refuse others.
structure Ledger where
  distances : Distances
  labels : Nat
  refuses : Bool

-- The manner in which the machine runs: no statement is taken for a counting loop.
def Ledger.manner (ledger : Ledger) : Manner := ⟨ledger.refuses, fun _ => none⟩

theorem manner_loops (ledger : Ledger) (stmt : Stmt Unit) : ledger.manner.loops stmt = none := rfl

def Ledger.Has (ledger : Ledger) (mention : Mention NodeId) : Prop := mention.Settled ledger.distances ledger.labels

-- Scopes, innermost first, against frames from one outwards and the names known there. The frames may bind more
-- than the scopes declare: names that came later.
def Linked (heap : Heap) (world : World) : List Scope → FrameId → Names → Prop
  | [], frame, names => frame = globalFrame ∧ names = []
  | scope :: outer, frame, names =>
      frame ≠ globalFrame ∧ frame < heap.size ∧
      (∀ name, scope.declares name = true → ∃ cell, world frame name = some cell ∧ names.lookup name = some cell) ∧
      ∃ parent beyond, heap.enclosing? frame = some parent ∧ Linked heap world outer parent beyond ∧
        ∀ name, scope.declares name = false → names.lookup name = beyond.lookup name

structure Growth (before : Heap) (world : World) (after : Heap) (later : World) : Prop where
  size : before.size ≤ after.size
  enclosing : ∀ frame parent, before.enclosing? frame = some parent → after.enclosing? frame = some parent
  cells : ∀ frame name cell, world frame name = some cell → later frame name = some cell

theorem growth_refl (heap : Heap) (world : World) : Growth heap world heap world :=
  ⟨Nat.le_refl _, fun _ _ link => link, fun _ _ _ held => held⟩

theorem growth_trans (first second third : Heap) (world later last : World) (early : Growth first world second later)
    (late : Growth second later third last) : Growth first world third last :=
  ⟨Nat.le_trans early.size late.size, fun frame parent link => late.enclosing frame parent
    (early.enclosing frame parent link), fun frame name cell held => late.cells frame name cell
    (early.cells frame name cell held)⟩

theorem growth_put (heap : Heap) (world : World) (frame : FrameId) (name : String) (slot : Slot) :
    Growth heap world (heap.put frame name slot) world := by
  constructor
  · exact Nat.le_of_eq (Heap.size_put heap frame name slot).symm
  · intro other parent link
    rw [Heap.enclosing_put]
    exact link
  · exact fun _ _ _ held => held

theorem growth_push (heap : Heap) (world : World) (enclosing : Option FrameId) :
    Growth heap world (heap.push enclosing) world := by
  have grows := Binding.grows_push heap enclosing
  exact ⟨grows.size, grows.enclosing, fun _ _ _ held => held⟩

theorem linked_grows (before after : Heap) (world later : World) (growth : Growth before world after later)
    (scopes : List Scope) : ∀ (frame : FrameId) (names : Names), Linked before world scopes frame names →
    Linked after later scopes frame names := by
  induction scopes with
  | nil => exact fun _ _ linked => linked
  | cons scope outer ih =>
      rintro frame names ⟨inner, made, bound, parent, beyond, link, linked, passed⟩
      refine ⟨inner, Nat.lt_of_lt_of_le made growth.size, ?_, parent, beyond, growth.enclosing frame parent link,
        ih parent beyond linked, passed⟩
      intro name declared
      obtain ⟨cell, held, known⟩ := bound name declared
      exact ⟨cell, growth.cells frame name cell held, known⟩

-- A declared name is found at its distance, in a local frame, and stands for that frame's cell.
theorem linked_at (heap : Heap) (world : World) (name : String) (scopes : List Scope) :
    ∀ (frame : FrameId) (names : Names) (distance : Nat), Linked heap world scopes frame names →
    Scope.distance? scopes name = some distance →
    ∃ home cell, heap.ancestor? distance frame = some home ∧ home ≠ globalFrame ∧ home < heap.size ∧
      world home name = some cell ∧ names.lookup name = some cell := by
  induction scopes with
  | nil => exact fun _ _ _ _ found => nomatch found
  | cons scope outer ih =>
      rintro frame names distance ⟨inner, made, bound, parent, beyond, link, linked, passed⟩ found
      unfold Scope.distance? at found ih
      rw [List.findIdx?_cons] at found
      cases declared : scope.declares name with
      | true =>
          rw [declared, if_pos rfl] at found
          cases found
          obtain ⟨cell, held, known⟩ := bound name declared
          exact ⟨frame, cell, rfl, inner, made, held, known⟩
      | false =>
          rw [declared, if_neg Bool.false_ne_true] at found
          obtain ⟨steps, later, rfl⟩ := Option.map_eq_some_iff.mp found
          obtain ⟨home, cell, reached, homeInner, homeMade, held, known⟩ := ih parent beyond steps linked later
          refine ⟨home, cell, ?_, homeInner, homeMade, held, ?_⟩
          · rw [Heap.ancestor?, link]
            exact reached
          · rw [passed name declared]
            exact known

theorem linked_global (heap : Heap) (world : World) (name : String) (scopes : List Scope) :
    ∀ (frame : FrameId) (names : Names), Linked heap world scopes frame names →
    Scope.distance? scopes name = none → names.lookup name = none := by
  induction scopes with
  | nil =>
      rintro frame names ⟨-, rfl⟩ -
      rfl
  | cons scope outer ih =>
      rintro frame names ⟨-, -, -, parent, beyond, -, linked, passed⟩ missing
      unfold Scope.distance? at missing ih
      rw [List.findIdx?_cons] at missing
      cases declared : scope.declares name with
      | true => simp [declared] at missing
      | false =>
          rw [declared, if_neg Bool.false_ne_true, Option.map_eq_none_iff] at missing
          rw [passed name declared]
          exact ih parent beyond linked missing

-- Statements that were analysed in these scopes and whose declarations stand in lists. Their local initializers do not
-- assign to their own variable, unless that is refused.
structure Fits (ledger : Ledger) (inFunction inner : Bool) (scopes : List Scope) (stmt : Stmt NodeId) : Prop where
  settled : ∀ mention ∈ stmt.mentions inFunction scopes, ledger.Has mention
  placed : stmt.strip.placed = true
  plain : ledger.refuses = false → stmt.strip.ownWrites inner = []

structure FitsAll (ledger : Ledger) (inFunction inner : Bool) (scopes : List Scope) (stmts : List (Stmt NodeId)) :
    Prop where
  settled : ∀ mention ∈ Stmt.mentionsAll inFunction scopes stmts, ledger.Has mention
  placed : Stmt.placedAll (Stmt.stripAll stmts) = true
  plain : ledger.refuses = false → Stmt.ownWritesAll inner (Stmt.stripAll stmts) = []

structure SameClosure (ledger : Ledger) (heap : Heap) (world : World) (closure : Closure)
    (mirror : Closure Unit Names) : Prop where
  serial : closure.serial = mirror.serial
  name : closure.name = mirror.name
  params : closure.params = mirror.params
  body : Stmt.stripAll closure.body = mirror.body
  home : ∃ scopes, Linked heap world scopes closure.home mirror.home ∧
    (∀ mention ∈ bindingMentions ([] :: scopes) closure.params, ledger.Has mention) ∧
    FitsAll ledger true true (Scope.bindAll ([] :: scopes) closure.params) closure.body

def Same (ledger : Ledger) (heap : Heap) (world : World) : Treewalk.Value → Value → Prop
  | .datum left, .datum right => left = right
  | .closure left, .closure right => SameClosure ledger heap world left right
  | .clock, .clock => True
  | _, _ => False

def SameSlot (ledger : Ledger) (heap : Heap) (world : World) : Option Slot → Option (Option Value) → Prop
  | none, none => True
  | some .unassigned, some none => True
  | some (.holds left), some (some right) => Same ledger heap world left right
  | _, _ => False

theorem same_alike (ledger : Ledger) (heap : Heap) (world : World) (value : Treewalk.Value) (mirror : Value)
    (same : Same ledger heap world value mirror) : value.Alike mirror := by
  cases value <;> cases mirror <;> try exact same
  case closure.closure closure mirror =>
    exact ⟨same.serial, congrArg Token.lexeme same.name, congrArg List.length same.params⟩

variable (ledger : Ledger) (before after : Heap) (world later : World)

theorem same_grows (growth : Growth before world after later) (value : Treewalk.Value) (mirror : Value)
    (same : Same ledger before world value mirror) : Same ledger after later value mirror := by
  cases value <;> cases mirror <;> try exact same
  case closure.closure closure mirror =>
    obtain ⟨serial, name, params, body, scopes, linked, settled, fits⟩ := same
    exact ⟨serial, name, params, body, scopes,
      linked_grows before after world later growth scopes closure.home mirror.home linked, settled, fits⟩

theorem sameSlot_grows (growth : Growth before world after later) (slot : Option Slot)
    (mirror : Option (Option Value)) (same : SameSlot ledger before world slot mirror) :
    SameSlot ledger after later slot mirror := by
  rcases slot with _ | _ | value <;> rcases mirror with _ | _ | mirror <;> try exact same
  exact same_grows ledger before after world later growth value mirror same

theorem sameSlot_isSome (slot : Option Slot) (mirror : Option (Option Value))
    (same : SameSlot ledger before world slot mirror) : slot.isSome = mirror.isSome := by
  rcases slot with _ | _ | value <;> rcases mirror with _ | _ | mirror <;> first | rfl | exact same.elim

structure Matched (ledger : Ledger) (world : World) (machine : Machine) (state : State) : Prop where
  distances : machine.distances = ledger.distances
  labels : machine.labels = ledger.labels
  depth : machine.depth = state.depth
  limit : machine.limit = state.limit
  closures : machine.closures = state.closures
  sink : machine.sink = state.sink
  clock : machine.clock = state.clock
  rooted : globalFrame < machine.heap.size
  globals : ∀ name, SameSlot ledger machine.heap world (machine.heap.slot? globalFrame name) (state.globals name)
  outside : ∀ name, world globalFrame name = none
  bound : ∀ frame name, frame ≠ globalFrame → (world frame name).isSome = machine.heap.binds frame name
  held : ∀ frame name cell, world frame name = some cell → cell < state.fresh ∧
    SameSlot ledger machine.heap world (machine.heap.slot? frame name) (some (state.cells cell))
  distinct : ∀ frame name frame' name' cell, world frame name = some cell → world frame' name' = some cell →
    frame = frame' ∧ name = name'

variable (machine : Machine) (state : State)

theorem matched_push (enclosing : Option FrameId) (matched : Matched ledger world machine state) :
    Matched ledger world { machine with heap := machine.heap.push enclosing } state := by
  have growth := growth_push machine.heap world enclosing
  constructor
  case rooted => exact Nat.lt_of_lt_of_le matched.rooted growth.size
  case globals =>
    intro name
    rw [Heap.slot_push]
    exact sameSlot_grows ledger _ _ world world growth _ _ (matched.globals name)
  case bound =>
    intro frame name inner
    rw [matched.bound frame name inner, Heap.binds, Heap.binds, Heap.slot_push]
  case held =>
    intro frame name cell held
    obtain ⟨used, same⟩ := matched.held frame name cell held
    rw [Heap.slot_push]
    exact ⟨used, sameSlot_grows ledger _ _ world world growth _ _ same⟩
  all_goals first
    | exact matched.distances | exact matched.labels | exact matched.depth | exact matched.limit
    | exact matched.closures | exact matched.sink | exact matched.clock | exact matched.outside
    | exact matched.distinct

-- A global gets a new content.
theorem matched_setGlobal (name : String) (slot : Slot) (content : Option Value)
    (matched : Matched ledger world machine state)
    (same : SameSlot ledger machine.heap world (some slot) (some content)) :
    Matched ledger world { machine with heap := machine.heap.put globalFrame name slot }
      (state.setGlobal name content) := by
  have growth := growth_put machine.heap world globalFrame name slot
  constructor
  case rooted => exact Nat.lt_of_lt_of_le matched.rooted growth.size
  case globals =>
    intro other
    by_cases here : other = name
    · subst here
      rw [Heap.slot_put_here _ _ _ _ matched.rooted]
      simp only [State.setGlobal, if_true]
      exact sameSlot_grows ledger _ _ world world growth _ _ same
    · rw [Heap.slot_put_elsewhere _ _ _ _ _ _ (.inr here)]
      simp only [State.setGlobal, here, if_false]
      exact sameSlot_grows ledger _ _ world world growth _ _ (matched.globals other)
  case bound =>
    intro frame other inner
    rw [matched.bound frame other inner, Heap.binds, Heap.binds, Heap.slot_put_elsewhere _ _ _ _ _ _ (.inl inner)]
  case held =>
    intro frame other cell held
    have inner : frame ≠ globalFrame := by
      intro root
      rw [root, matched.outside] at held
      cases held
    obtain ⟨used, same⟩ := matched.held frame other cell held
    rw [Heap.slot_put_elsewhere _ _ _ _ _ _ (.inl inner)]
    exact ⟨used, sameSlot_grows ledger _ _ world world growth _ _ same⟩
  all_goals first
    | exact matched.distances | exact matched.labels | exact matched.depth | exact matched.limit
    | exact matched.closures | exact matched.sink | exact matched.clock | exact matched.outside
    | exact matched.distinct

theorem bound_made (frame : FrameId) (name : String) (cell : Cell) (matched : Matched ledger world machine state)
    (held : world frame name = some cell) : frame < machine.heap.size := by
  obtain ⟨-, same⟩ := matched.held frame name cell held
  by_cases made : frame < machine.heap.size
  · exact made
  · have absent : machine.heap.frames[frame]? = none := Array.getElem?_eq_none (Nat.le_of_not_gt made)
    rw [Heap.slot?, absent] at same
    exact same.elim

-- A cell gets a new content, in the frame that stands for it.
theorem matched_setCell (frame : FrameId) (name : String) (cell : Cell) (slot : Slot) (content : Option Value)
    (matched : Matched ledger world machine state) (held : world frame name = some cell)
    (same : SameSlot ledger machine.heap world (some slot) (some content)) :
    Matched ledger world { machine with heap := machine.heap.put frame name slot } (state.setCell cell content) := by
  have growth := growth_put machine.heap world frame name slot
  have made := bound_made ledger world machine state frame name cell matched held
  have inner : frame ≠ globalFrame := by
    intro root
    rw [root, matched.outside] at held
    cases held
  constructor
  case rooted => exact Nat.lt_of_lt_of_le matched.rooted growth.size
  case globals =>
    intro other
    rw [Heap.slot_put_elsewhere _ _ _ _ _ _ (.inl (Ne.symm inner))]
    exact sameSlot_grows ledger _ _ world world growth _ _ (matched.globals other)
  case bound =>
    intro other query otherInner
    rw [matched.bound other query otherInner, Heap.binds, Heap.binds]
    by_cases here : other = frame ∧ query = name
    · obtain ⟨rfl, rfl⟩ := here
      have binds := matched.bound other query inner
      rw [held, Heap.binds] at binds
      rw [Heap.slot_put_here _ _ _ _ made, ← binds]
      rfl
    · rw [Heap.slot_put_elsewhere _ _ _ _ _ _ (by grind)]
  case held =>
    intro other query otherCell otherHeld
    obtain ⟨used, otherSame⟩ := matched.held other query otherCell otherHeld
    refine ⟨used, ?_⟩
    by_cases here : otherCell = cell
    · subst here
      obtain ⟨rfl, rfl⟩ := matched.distinct other query frame name otherCell otherHeld held
      rw [Heap.slot_put_here _ _ _ _ made]
      simp only [State.setCell, if_true]
      exact sameSlot_grows ledger _ _ world world growth _ _ same
    · have apart : other ≠ frame ∨ query ≠ name := by
        by_cases frames : other = frame
        · right
          intro names
          rw [frames, names, held] at otherHeld
          exact here (Option.some.inj otherHeld).symm
        · exact .inl frames
      rw [Heap.slot_put_elsewhere _ _ _ _ _ _ apart]
      simp only [State.setCell, here, if_false]
      exact sameSlot_grows ledger _ _ world world growth _ _ otherSame
  all_goals first
    | exact matched.distances | exact matched.labels | exact matched.depth | exact matched.limit
    | exact matched.closures | exact matched.sink | exact matched.clock | exact matched.outside
    | exact matched.distinct

-- The world in which a frame's name stands for a cell.
def World.extend (world : World) (frame : FrameId) (name : String) (cell : Cell) : World :=
  fun other query => if other = frame ∧ query = name then some cell else world other query

theorem extend_here (frame : FrameId) (name : String) (cell : Cell) :
    world.extend frame name cell frame name = some cell := by
  simp [World.extend]

theorem extend_elsewhere (frame other : FrameId) (name query : String) (cell : Cell)
    (apart : ¬ (other = frame ∧ query = name)) : world.extend frame name cell other query = world other query := by
  simp only [World.extend, apart, if_false]

theorem growth_extend (heap : Heap) (frame : FrameId) (name : String) (cell : Cell) (slot : Slot)
    (free : world frame name = none) :
    Growth heap world (heap.put frame name slot) (world.extend frame name cell) := by
  have growth := growth_put heap world frame name slot
  refine ⟨growth.size, growth.enclosing, ?_⟩
  intro other query otherCell held
  rw [extend_elsewhere]
  · exact held
  · rintro ⟨rfl, rfl⟩
    rw [free] at held
    cases held

-- A frame binds a name for the first time, which takes a fresh cell.
theorem matched_newCell (frame : FrameId) (name : String) (slot : Slot) (content : Option Value)
    (matched : Matched ledger world machine state) (inner : frame ≠ globalFrame) (made : frame < machine.heap.size)
    (free : world frame name = none)
    (same : SameSlot ledger (machine.heap.put frame name slot) (world.extend frame name state.fresh) (some slot)
      (some content)) :
    Matched ledger (world.extend frame name state.fresh)
      { machine with heap := machine.heap.put frame name slot } (state.newCell content) := by
  have growth := growth_extend world machine.heap frame name state.fresh slot free
  have older : ∀ other query cell, world other query = some cell → cell ≠ state.fresh := by
    intro other query cell held fresh
    have used := (matched.held other query cell held).1
    rw [fresh] at used
    exact Nat.lt_irrefl _ used
  constructor
  case rooted => exact Nat.lt_of_lt_of_le matched.rooted growth.size
  case globals =>
    intro other
    rw [Heap.slot_put_elsewhere _ _ _ _ _ _ (.inl (Ne.symm inner))]
    exact sameSlot_grows ledger _ _ _ _ growth _ _ (matched.globals other)
  case outside =>
    intro query
    rw [extend_elsewhere _ _ _ _ _ _ (fun here => inner here.1.symm)]
    exact matched.outside query
  case bound =>
    intro other query otherInner
    by_cases here : other = frame ∧ query = name
    · obtain ⟨rfl, rfl⟩ := here
      rw [extend_here, Heap.binds, Heap.slot_put_here _ _ _ _ made]
      rfl
    · rw [extend_elsewhere _ _ _ _ _ _ here, matched.bound other query otherInner, Heap.binds, Heap.binds,
        Heap.slot_put_elsewhere _ _ _ _ _ _ (by grind)]
  case held =>
    intro other query cell held
    by_cases here : other = frame ∧ query = name
    · obtain ⟨rfl, rfl⟩ := here
      rw [extend_here] at held
      cases held
      rw [Heap.slot_put_here _ _ _ _ made]
      simp only [State.newCell, State.setCell, if_true]
      exact ⟨Nat.lt_succ_self _, same⟩
    · rw [extend_elsewhere _ _ _ _ _ _ here] at held
      obtain ⟨used, otherSame⟩ := matched.held other query cell held
      rw [Heap.slot_put_elsewhere _ _ _ _ _ _ (by grind)]
      simp only [State.newCell, State.setCell, older other query cell held, if_false]
      exact ⟨Nat.lt_succ_of_lt used, sameSlot_grows ledger _ _ _ _ growth _ _ otherSame⟩
  case distinct =>
    intro first query second query' cell heldFirst heldSecond
    by_cases hereFirst : first = frame ∧ query = name
    · by_cases hereSecond : second = frame ∧ query' = name
      · exact ⟨hereFirst.1.trans hereSecond.1.symm, hereFirst.2.trans hereSecond.2.symm⟩
      · obtain ⟨rfl, rfl⟩ := hereFirst
        rw [extend_here] at heldFirst
        rw [extend_elsewhere _ _ _ _ _ _ hereSecond] at heldSecond
        exact absurd (Option.some.inj heldFirst).symm (older second query' cell heldSecond)
    · rw [extend_elsewhere _ _ _ _ _ _ hereFirst] at heldFirst
      by_cases hereSecond : second = frame ∧ query' = name
      · obtain ⟨rfl, rfl⟩ := hereSecond
        rw [extend_here] at heldSecond
        exact absurd (Option.some.inj heldSecond).symm (older first query cell heldFirst)
      · rw [extend_elsewhere _ _ _ _ _ _ hereSecond] at heldSecond
        exact matched.distinct first query second query' cell heldFirst heldSecond
  all_goals first
    | exact matched.distances | exact matched.labels | exact matched.depth | exact matched.limit
    | exact matched.closures | exact matched.sink | exact matched.clock

end Treewalk.Lexical
