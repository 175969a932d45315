import Treewalk.Proofs.Cells
import Treewalk.Proofs.Restoring

/-!
Runs of the machine against runs with names and cells. From matching states both end alike: with the same value,
the same fault, or out of fuel. Frames and cells only grow on the way, and of the frames there before only the
current one may get new names.
-/

set_option autoImplicit false

namespace Treewalk.Lexical

-- A state that was reached from a matching one. The frames in `changed` may bind more names than before.
structure Reached (ledger : Ledger) (changed : FrameId → Prop) (world : World) (machine : Machine) (later : World)
    (after : Machine) (state : State) : Prop where
  matched : Matched ledger later after state
  growth : Growth machine.heap world after.heap later
  keeps : ∀ frame, frame < machine.heap.size → ¬ changed frame → ∀ name, later frame name = world frame name
  frame : after.frame = machine.frame

def noFrame (_ : FrameId) : Prop := False

-- Both runs end alike. The result relates what they give, in the world and with the frames at the end.
inductive Simulates {α β : Type} (ledger : Ledger) (changed : FrameId → Prop) (world : World) (machine : Machine)
    (result : World → Heap → α → β → Prop) : Treewalk.Outcome α → Outcome β → Prop where
  | done (value : α) (mirror : β) (later : World) (after : Machine) (state : State)
      (reached : Reached ledger changed world machine later after state)
      (holds : result later after.heap value mirror) :
      Simulates ledger changed world machine result (.done value after) (.done mirror state)
  | fault (fault : Fault) (later : World) (after : Machine) (state : State) (frame : after.frame = machine.frame)
      (matched : Matched ledger later after state) :
      Simulates ledger changed world machine result (.fault fault after) (.fault fault state)
  | outOfFuel : Simulates ledger changed world machine result .outOfFuel .outOfFuel

theorem run_assoc {α β γ : Type} (first : Treewalk.Run α) (second : α → Treewalk.Run β) (third : β → Treewalk.Run γ) :
    (first >>= fun value => second value >>= third) = (first >>= second) >>= third := by
  funext machine
  change Treewalk.Run.bind first (fun value => Treewalk.Run.bind (second value) third) machine =
    Treewalk.Run.bind (Treewalk.Run.bind first second) third machine
  unfold Treewalk.Run.bind
  cases first machine <;> rfl

theorem mirror_assoc {α β γ : Type} (first : Run α) (second : α → Run β) (third : β → Run γ) :
    (first >>= fun value => second value >>= third) = (first >>= second) >>= third := by
  funext state
  change Run.bind first (fun value => Run.bind (second value) third) state =
    Run.bind (Run.bind first second) third state
  unfold Run.bind
  cases first state <;> rfl

section rules

variable {α β γ δ : Type} (ledger : Ledger) (changed : FrameId → Prop) (world : World) (machine : Machine)
  (state : State)

theorem reached_refl (matched : Matched ledger world machine state) :
    Reached ledger changed world machine world machine state :=
  ⟨matched, growth_refl _ _, fun _ _ _ _ => rfl, rfl⟩

theorem reached_trans (middle last : World) (between after : Machine) (state' : State)
    (early : Reached ledger changed world machine middle between state)
    (late : Reached ledger changed middle between last after state') :
    Reached ledger changed world machine last after state' := by
  constructor
  · exact late.matched
  · exact growth_trans _ _ _ _ _ _ early.growth late.growth
  · intro frame made unchanged name
    rw [late.keeps frame (Nat.lt_of_lt_of_le made early.growth.size) unchanged name]
    exact early.keeps frame made unchanged name
  · exact late.frame.trans early.frame

theorem simulates_pure (result : World → Heap → α → β → Prop) (value : α) (mirror : β)
    (matched : Matched ledger world machine state) (holds : result world machine.heap value mirror) :
    Simulates ledger changed world machine result ((pure value : Treewalk.Run α) machine)
      ((pure mirror : Run β) state) :=
  .done value mirror world machine state (reached_refl ledger changed world machine state matched) holds

-- What a later state simulates, the earlier one does.
theorem simulates_after (result : World → Heap → α → β → Prop) (later : World) (after : Machine)
    (outcome : Treewalk.Outcome α) (mirror : Outcome β)
    (reached : Reached ledger changed world machine later after state)
    (rest : Simulates ledger changed later after result outcome mirror) :
    Simulates ledger changed world machine result outcome mirror := by
  cases rest with
  | done value mirror last final state' reached' holds =>
      exact .done value mirror last final state'
        (reached_trans ledger changed world machine state later last after final state' reached reached') holds
  | fault fault last final state' frame matched =>
      exact .fault fault last final state' (frame.trans reached.frame) matched
  | outOfFuel => exact .outOfFuel

theorem simulates_bind (middle : World → Heap → α → β → Prop) (result : World → Heap → γ → δ → Prop)
    (first : Treewalk.Run α) (next : α → Treewalk.Run γ) (mirrorFirst : Run β) (mirrorNext : β → Run δ)
    (start : Simulates ledger changed world machine middle (first machine) (mirrorFirst state))
    (goOn : ∀ later after state' value mirror, Reached ledger changed world machine later after state' →
      middle later after.heap value mirror →
      Simulates ledger changed later after result (next value after) (mirrorNext mirror state')) :
    Simulates ledger changed world machine result ((first >>= next) machine) ((mirrorFirst >>= mirrorNext) state) := by
  change Simulates ledger changed world machine result (Treewalk.Run.bind first next machine)
    (Run.bind mirrorFirst mirrorNext state)
  unfold Treewalk.Run.bind Run.bind
  generalize first machine = outcome at start
  generalize mirrorFirst state = mirrored at start
  cases start with
  | done value mirror later after state' reached holds =>
      exact simulates_after ledger changed world machine state' result later after _ _ reached
        (goOn later after state' value mirror reached holds)
  | fault fault later after state' frame matched => exact .fault fault later after state' frame matched
  | outOfFuel => exact .outOfFuel

theorem simulates_weaken (fewer : FrameId → Prop) (result weaker : World → Heap → α → β → Prop)
    (outcome : Treewalk.Outcome α) (mirror : Outcome β)
    (simulates : Simulates ledger fewer world machine result outcome mirror)
    (more : ∀ frame, fewer frame → changed frame)
    (weakens : ∀ later after state value mirror, Reached ledger fewer world machine later after state →
      result later after.heap value mirror → weaker later after.heap value mirror) :
    Simulates ledger changed world machine weaker outcome mirror := by
  cases simulates with
  | done value mirror later after state reached holds =>
      have kept : Reached ledger changed world machine later after state :=
        ⟨reached.matched, reached.growth,
          fun frame made unchanged => reached.keeps frame made (fun less => unchanged (more frame less)), reached.frame⟩
      exact .done value mirror later after state kept (weakens later after state value mirror reached holds)
  | fault fault later after state frame matched => exact .fault fault later after state frame matched
  | outOfFuel => exact .outOfFuel

-- Where only the mirror goes on.
theorem simulates_then (middle : World → Heap → α → β → Prop) (result : World → Heap → α → δ → Prop)
    (outcome : Treewalk.Outcome α) (mirrorFirst : Run β) (mirrorNext : β → Run δ)
    (start : Simulates ledger changed world machine middle outcome (mirrorFirst state))
    (goOn : ∀ later after state' value mirror, Reached ledger changed world machine later after state' →
      middle later after.heap value mirror →
      Simulates ledger changed later after result (.done value after) (mirrorNext mirror state')) :
    Simulates ledger changed world machine result outcome ((mirrorFirst >>= mirrorNext) state) := by
  change Simulates ledger changed world machine result outcome (Run.bind mirrorFirst mirrorNext state)
  unfold Run.bind
  generalize mirrorFirst state = mirrored at start
  cases start with
  | done value mirror later after state' reached holds =>
      exact simulates_after ledger changed world machine state' result later after _ _ reached
        (goOn later after state' value mirror reached holds)
  | fault fault later after state' frame matched => exact .fault fault later after state' frame matched
  | outOfFuel => exact .outOfFuel

-- What changes no frame changes at most some.
theorem simulates_unchanged (result : World → Heap → α → β → Prop) (outcome : Treewalk.Outcome α) (mirror : Outcome β)
    (simulates : Simulates ledger noFrame world machine result outcome mirror) :
    Simulates ledger changed world machine result outcome mirror :=
  simulates_weaken ledger changed world machine noFrame result result outcome mirror simulates (fun _ => False.elim)
    (fun _ _ _ _ _ _ holds => holds)

end rules

-- Where a statement stands: outside of all local scopes, or in a frame that binds exactly what the innermost
-- scope declares.
def Stands (heap : Heap) (world : World) (frame : FrameId) : List Scope → Place → Prop
  | [], .outermost => frame = globalFrame
  | scope :: outer, .inner names =>
      Linked heap world (scope :: outer) frame names ∧ ∀ name, (world frame name).isSome = scope.declares name
  | _, _ => False

theorem stands_linked (heap : Heap) (world : World) (frame : FrameId) (scopes : List Scope) (place : Place)
    (stands : Stands heap world frame scopes place) : Linked heap world scopes frame place.names := by
  cases scopes with
  | nil =>
      cases place with
      | outermost => exact ⟨stands, rfl⟩
      | inner names => exact stands.elim
  | cons scope outer =>
      cases place with
      | outermost => exact stands.elim
      | inner names => exact stands.1

def Place.isInner : Place → Bool
  | .outermost => false
  | .inner _ => true

theorem stands_isEmpty (heap : Heap) (world : World) (frame : FrameId) (scopes : List Scope) (place : Place)
    (stands : Stands heap world frame scopes place) : scopes.isEmpty = !place.isInner := by
  cases scopes <;> cases place <;> first | rfl | exact stands.elim

-- What an expression sees: the names, and perhaps a variable that waits for its value and is not in the frame yet.
structure Sees (heap : Heap) (world : World) (scopes : List Scope) (frame : FrameId) (names : Names)
    (waiting : Option String) : Prop where
  linked : Linked heap world scopes frame names
  free : ∀ name, waiting = some name → frame ≠ globalFrame ∧ frame < heap.size ∧ world frame name = none

theorem stands_sees (heap : Heap) (world : World) (frame : FrameId) (scopes : List Scope) (place : Place)
    (stands : Stands heap world frame scopes place) : Sees heap world scopes frame place.names none :=
  ⟨stands_linked heap world frame scopes place stands, fun _ waits => by cases waits⟩

-- A use as it was recorded: in these scopes, or for a variable that waits for its value, which may only be assigned.
def Ledger.Meets (ledger : Ledger) (scopes : List Scope) (waiting : Option String) (use : Use NodeId) : Prop :=
  if ledger.refuses && waiting == some use.name.lexeme then use.writes = true ∧ ledger.distances[use.label]? = some 0
  else ledger.Has (.use use scopes)

theorem meets_has (ledger : Ledger) (scopes : List Scope) (use : Use NodeId) (has : ledger.Has (.use use scopes)) :
    ledger.Meets scopes none use := by
  simpa [Ledger.Meets] using has

theorem meets_read (ledger : Ledger) (scopes : List Scope) (waiting : Option String) (label : NodeId) (name : Token)
    (meets : ledger.Meets scopes waiting ⟨label, name, false⟩) : ledger.Has (.use ⟨label, name, false⟩ scopes) := by
  unfold Ledger.Meets at meets
  split at meets
  · cases meets.1
  · exact meets

section steps

variable (ledger : Ledger) (world later : World) (machine after : Machine) (state state' : State)

theorem reached_linked (scopes : List Scope) (names : Names) (changed : FrameId → Prop)
    (reached : Reached ledger changed world machine later after state)
    (linked : Linked machine.heap world scopes machine.frame names) :
    Linked after.heap later scopes after.frame names := by
  rw [reached.frame]
  exact linked_grows _ _ _ _ reached.growth scopes machine.frame names linked

theorem reached_stands (scopes : List Scope) (place : Place)
    (reached : Reached ledger noFrame world machine later after state)
    (stands : Stands machine.heap world machine.frame scopes place) :
    Stands after.heap later after.frame scopes place := by
  cases scopes with
  | nil =>
      cases place with
      | outermost => exact reached.frame.trans stands
      | inner names => exact stands.elim
  | cons scope outer =>
      cases place with
      | outermost => exact stands.elim
      | inner names =>
          obtain ⟨linked, exactly⟩ := stands
          have made : machine.frame < machine.heap.size := linked.2.1
          refine ⟨reached_linked ledger world later machine after state (scope :: outer) names noFrame reached linked, ?_⟩
          intro name
          rw [reached.frame, reached.keeps machine.frame made id name]
          exact exactly name

theorem reached_sees (scopes : List Scope) (names : Names) (waiting : Option String)
    (reached : Reached ledger noFrame world machine later after state)
    (sees : Sees machine.heap world scopes machine.frame names waiting) :
    Sees after.heap later scopes after.frame names waiting := by
  refine ⟨reached_linked ledger world later machine after state scopes names noFrame reached sees.linked, ?_⟩
  intro name waits
  obtain ⟨inner, made, free⟩ := sees.free name waits
  rw [reached.frame, reached.keeps machine.frame made id name]
  exact ⟨inner, Nat.lt_of_lt_of_le made reached.growth.size, free⟩

-- A name read at its distance, or among the globals.
theorem lookup_simulates (label : NodeId) (name : Token) (scopes : List Scope) (names : Names)
    (matched : Matched ledger world machine state) (linked : Linked machine.heap world scopes machine.frame names)
    (settled : ledger.Has (.use ⟨label, name, false⟩ scopes)) :
    Simulates ledger noFrame world machine (fun later heap => Same ledger heap later)
      (Treewalk.Run.lookup label name machine) (lookup names name state) := by
  have recorded : machine.distances[label]? = Scope.distance? scopes name.lexeme := by
    rw [matched.distances]
    exact settled.2.1
  have slots : ∃ home, machine.valueOf label name.lexeme = machine.heap.read home name.lexeme ∧
      SameSlot ledger machine.heap world (machine.heap.slot? home name.lexeme) (state.content names name.lexeme) := by
    unfold State.content
    cases distance : Scope.distance? scopes name.lexeme with
    | some steps =>
        obtain ⟨home, cell, reached, -, -, held, known⟩ := linked_at _ _ _ _ _ _ _ linked distance
        refine ⟨home, Binding.valueOf_at machine label steps name.lexeme home (recorded.trans distance) reached, ?_⟩
        rw [known]
        exact (matched.held home name.lexeme cell held).2
    | none =>
        rw [linked_global _ _ _ _ _ _ linked distance]
        exact ⟨globalFrame, Binding.valueOf_global machine label name.lexeme (recorded.trans distance),
          matched.globals name.lexeme⟩
  obtain ⟨home, reads, same⟩ := slots
  unfold Treewalk.Run.lookup lookup
  rw [reads, Heap.read]
  revert same
  rcases machine.heap.slot? home name.lexeme with _ | _ | value <;>
    rcases state.content names name.lexeme with _ | _ | mirror <;> intro same <;> try exact same.elim
  · exact .fault _ world machine state rfl matched
  · exact .fault _ world machine state rfl matched
  · exact .done value mirror world machine state (reached_refl ledger noFrame world machine state matched) same

-- A change of the frames in matching states, which keeps the world.
theorem reached_put (frame : FrameId) (name : String) (slot : Slot)
    (matched : Matched ledger world { machine with heap := machine.heap.put frame name slot } state) :
    Reached ledger noFrame world machine world { machine with heap := machine.heap.put frame name slot } state :=
  ⟨matched, growth_put machine.heap world frame name slot, fun _ _ _ _ => rfl, rfl⟩

-- A name set at its distance, or among the globals.
theorem store_simulates (label : NodeId) (name : Token) (scopes : List Scope) (names : Names)
    (value : Treewalk.Value) (mirror : Value) (matched : Matched ledger world machine state)
    (linked : Linked machine.heap world scopes machine.frame names)
    (settled : ledger.Has (.use ⟨label, name, true⟩ scopes)) (same : Same ledger machine.heap world value mirror) :
    Simulates ledger noFrame world machine (fun _ _ _ _ => True)
      (Treewalk.Run.store label name value machine) (store names name mirror state) := by
  have recorded : machine.distances[label]? = Scope.distance? scopes name.lexeme := by
    rw [matched.distances]
    exact settled.2.1
  unfold store
  cases distance : Scope.distance? scopes name.lexeme with
  | some steps =>
      obtain ⟨home, cell, reached, inner, -, held, known⟩ := linked_at _ _ _ _ _ _ _ linked distance
      have binds : machine.heap.binds home name.lexeme = true := by
        rw [← matched.bound home name.lexeme inner, held]
        rfl
      have stored := matched_setCell ledger world machine state home name.lexeme cell (.holds value) (some mirror)
        matched held same
      rw [Binding.store_at machine label steps name value home (recorded.trans distance) reached, binds, known]
      exact .done () () world _ _ (reached_put ledger world machine _ home name.lexeme (.holds value) stored) trivial
  | none =>
      have bound := sameSlot_isSome ledger machine.heap world _ _ (matched.globals name.lexeme)
      have binds : machine.heap.binds globalFrame name.lexeme = (state.globals name.lexeme).isSome := bound
      rw [linked_global _ _ _ _ _ _ linked distance]
      rw [Binding.store_global machine label name value (recorded.trans distance), binds]
      dsimp only
      cases (state.globals name.lexeme).isSome with
      | true =>
          have stored := matched_setGlobal ledger world machine state name.lexeme (.holds value) (some mirror) matched
            same
          exact .done () () world _ _ (reached_put ledger world machine _ globalFrame name.lexeme (.holds value) stored)
            trivial
      | false => exact .fault _ world machine state rfl matched

-- The same for a name that may be that of a variable without its value, which the current frame does not bind.
theorem assign_store_simulates (label : NodeId) (name : Token) (scopes : List Scope) (names : Names)
    (waiting : Option String) (value : Treewalk.Value) (mirror : Value) (matched : Matched ledger world machine state)
    (sees : Sees machine.heap world scopes machine.frame names waiting)
    (meets : ledger.Meets scopes waiting ⟨label, name, true⟩) (same : Same ledger machine.heap world value mirror) :
    Simulates ledger noFrame world machine (fun _ _ _ _ => True)
      (Treewalk.Run.store label name value machine) (ledger.manner.store waiting names name mirror state) := by
  unfold Manner.store Ledger.manner
  unfold Ledger.Meets at meets
  by_cases refused : (ledger.refuses && waiting == some name.lexeme) = true
  · rw [if_pos refused] at meets ⊢
    rw [Bool.and_eq_true, beq_iff_eq] at refused
    obtain ⟨inner, -, free⟩ := sees.free name.lexeme refused.2
    have recorded : machine.distances[label]? = some 0 := by
      rw [matched.distances]
      exact meets.2
    have binds : machine.heap.binds machine.frame name.lexeme = false := by
      rw [← matched.bound machine.frame name.lexeme inner, free]
      rfl
    rw [Binding.store_at machine label 0 name value machine.frame recorded rfl, binds]
    exact .fault _ world machine state rfl matched
  · rw [if_neg refused] at meets ⊢
    exact store_simulates ledger world machine state label name scopes names value mirror matched sees.linked meets same

-- A name declared in a local scope has a cell of its own from there on.
theorem stands_extend (heap : Heap) (frame : FrameId) (name : Token) (slot : Slot) (cell : Cell) (scopes : List Scope)
    (names : Names) (stands : Stands heap world frame scopes (.inner names))
    (settled : ledger.Has (.binding name scopes)) :
    world frame name.lexeme = none ∧ frame ≠ globalFrame ∧ frame < heap.size ∧
    Stands (heap.put frame name.lexeme slot) (world.extend frame name.lexeme cell) frame (Scope.bind name scopes)
      (.inner ((name.lexeme, cell) :: names)) := by
  cases scopes with
  | nil => exact stands.elim
  | cons inner outer =>
      have undeclared : inner.declares name.lexeme = false := settled inner rfl
      obtain ⟨⟨isLocal, made, bound, parent, beyond, link, linked, passed⟩, exactly⟩ := stands
      have free : world frame name.lexeme = none := by
        have missing := exactly name.lexeme
        rw [undeclared] at missing
        exact Option.isSome_eq_false_iff.mp missing |> Option.isNone_iff_eq_none.mp
      have growth := growth_extend world heap frame name.lexeme cell slot free
      obtain ⟨scope, scopes, declares⟩ := Scope.bind_undeclared name inner outer undeclared
      rw [scopes]
      refine ⟨free, isLocal, made, ⟨isLocal, Nat.lt_of_lt_of_le made growth.size, ?_, parent, beyond,
        growth.enclosing frame parent link, linked_grows _ _ _ _ growth outer parent beyond linked, ?_⟩, ?_⟩
      · intro other declared
        by_cases here : other = name.lexeme
        · subst here
          exact ⟨cell, extend_here world frame name.lexeme cell, by simp⟩
        · have older : inner.declares other = true := by simpa [declares, here] using declared
          obtain ⟨otherCell, held, known⟩ := bound other older
          refine ⟨otherCell, growth.cells frame other otherCell held, ?_⟩
          have apart : (other == name.lexeme) = false := beq_false_of_ne here
          simpa [List.lookup_cons, apart] using known
      · intro other undeclaredOther
        rw [declares, Bool.or_eq_false_iff] at undeclaredOther
        rw [List.lookup_cons, undeclaredOther.1]
        exact passed other undeclaredOther.2
      · intro other
        rw [declares]
        by_cases here : other = name.lexeme
        · subst here
          simp [extend_here]
        · rw [extend_elsewhere world frame frame name.lexeme other cell (fun both => here both.2), exactly other]
          simp [here]

-- A declaration, outside of all local scopes or in one.
theorem declare_simulates (name : Token) (slot : Slot) (content : Option Value) (scopes : List Scope) (place : Place)
    (matched : Matched ledger world machine state)
    (stands : Stands machine.heap world machine.frame scopes place) (settled : ledger.Has (.binding name scopes))
    (same : SameSlot ledger machine.heap world (some slot) (some content)) :
    Simulates ledger (· = machine.frame) world machine
      (fun later heap _ after => Stands heap later machine.frame (Scope.bind name scopes) after)
      (Treewalk.Run.change name.line (fun heap frame => heap.bind frame name.lexeme slot) machine)
      (declare place name content state) := by
  unfold Treewalk.Run.change Heap.bind declare
  cases place with
  | outermost =>
      cases scopes with
      | cons scope outer => exact stands.elim
      | nil =>
          have root : machine.frame = globalFrame := stands
          have bound := sameSlot_isSome ledger machine.heap world _ _ (matched.globals name.lexeme)
          have binds : machine.heap.binds machine.frame name.lexeme = (state.globals name.lexeme).isSome := by
            rw [root]
            exact bound
          dsimp only
          rw [binds]
          cases (state.globals name.lexeme).isSome with
          | true => exact .fault _ world machine state rfl matched
          | false =>
              have stored := matched_setGlobal ledger world machine state name.lexeme slot content matched same
              rw [← root] at stored
              have reached := reached_put ledger world machine _ machine.frame name.lexeme slot stored
              exact .done () Place.outermost world _ _ ⟨reached.matched, reached.growth,
                fun frame made _ => reached.keeps frame made id, reached.frame⟩ root
  | inner names =>
      obtain ⟨free, inner, made, standsAfter⟩ := stands_extend ledger world machine.heap machine.frame name slot
        state.fresh scopes names stands settled
      have binds : machine.heap.binds machine.frame name.lexeme = false := by
        rw [← matched.bound machine.frame name.lexeme inner, free]
        rfl
      have growth := growth_extend world machine.heap machine.frame name.lexeme state.fresh slot free
      have stored := matched_newCell ledger world machine state machine.frame name.lexeme slot content matched inner made
        free (sameSlot_grows ledger _ _ _ _ growth _ _ same)
      simp only [binds]
      refine .done () _ (world.extend machine.frame name.lexeme state.fresh) _ _ ⟨stored, growth, ?_, rfl⟩ standsAfter
      intro frame _ unchanged other
      exact extend_elsewhere world machine.frame frame name.lexeme other state.fresh (fun both => unchanged both.1)

-- A new function, in the frame and with the names of its declaration.
theorem newClosure_simulates (changed : FrameId → Prop) (name : Token) (params : List Token)
    (body : List (Stmt NodeId)) (scopes : List Scope) (names : Names) (matched : Matched ledger world machine state)
    (linked : Linked machine.heap world scopes machine.frame names)
    (bindings : ∀ mention ∈ bindingMentions ([] :: scopes) params, ledger.Has mention)
    (fits : FitsAll ledger true true (Scope.bindAll ([] :: scopes) params) body) :
    Simulates ledger changed world machine (fun later heap => Same ledger heap later)
      (Treewalk.Run.newClosure name params body machine) (newClosure name params (Stmt.stripAll body) names state) := by
  have counted : Matched ledger world { machine with closures := machine.closures + 1 }
      { state with closures := state.closures + 1 } :=
    { matched with closures := congrArg (· + 1) matched.closures }
  exact .done _ _ world _ _ ⟨counted, growth_refl _ _, fun _ _ _ _ => rfl, rfl⟩
    ⟨matched.closures, rfl, rfl, rfl, scopes, linked, bindings, fits⟩

theorem declareFunction_inner (name : Token) (params : List Token) (body : List (Stmt Unit)) (names : Names) :
    declareFunction (.inner names) name params body state =
      .done (.inner ((name.lexeme, state.fresh) :: names))
        ({ state with closures := state.closures + 1 }.newCell
          (some (.closure ⟨state.closures, name, params, body, (name.lexeme, state.fresh) :: names⟩))) := by
  simp only [declareFunction, bind, Run.bind, declare, newClosure, store, Place.names, List.lookup_cons, beq_self_eq_true,
    pure, Run.pure, State.newCell, State.setCell]
  congr 2
  funext cell
  split <;> rfl

-- A function is declared outside of all local scopes or in one, where it knows its own name.
theorem declareFunction_simulates (name : Token) (params : List Token) (body : List (Stmt NodeId))
    (scopes : List Scope) (place : Place) (matched : Matched ledger world machine state)
    (stands : Stands machine.heap world machine.frame scopes place) (settled : ledger.Has (.binding name scopes))
    (bindings : ∀ mention ∈ bindingMentions ([] :: Scope.bind name scopes) params, ledger.Has mention)
    (fits : FitsAll ledger true true (Scope.bindAll ([] :: Scope.bind name scopes) params) body) :
    Simulates ledger (· = machine.frame) world machine
      (fun later heap _ after => Stands heap later machine.frame (Scope.bind name scopes) after)
      ((Treewalk.Run.newClosure name params body >>= Treewalk.Run.define name) machine)
      (declareFunction place name params (Stmt.stripAll body) state) := by
  cases place with
  | outermost =>
      cases scopes with
      | cons scope outer => exact stands.elim
      | nil =>
          have linked : Linked machine.heap world [] machine.frame [] := ⟨stands, rfl⟩
          apply simulates_bind ledger _ world machine state _ _ _ _ (newClosure name params (Stmt.stripAll body) [])
            (fun closure => declare .outermost name (some closure))
          · exact newClosure_simulates ledger world machine state _ name params body [] [] matched linked bindings fits
          · intro later after state' value mirror reached same
            have root : Stands after.heap later after.frame [] .outermost := reached.frame.trans stands
            have declared := declare_simulates ledger later after state' name (.holds value) (some mirror) []
              .outermost reached.matched root settled same
            rw [reached.frame] at declared
            exact declared
  | inner names =>
      -- The machine makes the function first and binds it then; its names hold the cell that it will be in.
      let closure : Closure := ⟨machine.closures, name, params, body, machine.frame⟩
      let mirror : Closure Unit Names :=
        ⟨state.closures, name, params, Stmt.stripAll body, (name.lexeme, state.fresh) :: names⟩
      obtain ⟨free, inner, made, standsAfter⟩ := stands_extend ledger world machine.heap machine.frame name
        (.holds (.closure closure)) state.fresh scopes names stands settled
      have binds : machine.heap.binds machine.frame name.lexeme = false := by
        rw [← matched.bound machine.frame name.lexeme inner, free]
        rfl
      have counted : Matched ledger world { machine with closures := machine.closures + 1 }
          { state with closures := state.closures + 1 } :=
        { matched with closures := congrArg (· + 1) matched.closures }
      have growth := growth_extend world machine.heap machine.frame name.lexeme state.fresh (.holds (.closure closure))
        free
      have same : SameClosure ledger (machine.heap.put machine.frame name.lexeme (.holds (.closure closure)))
          (world.extend machine.frame name.lexeme state.fresh) closure mirror :=
        ⟨matched.closures, rfl, rfl, rfl, Scope.bind name scopes, stands_linked _ _ _ _ _ standsAfter, bindings, fits⟩
      have stored := matched_newCell ledger world _ _ machine.frame name.lexeme (.holds (.closure closure))
        (some (.closure mirror)) counted inner made free same
      have ran : (Treewalk.Run.newClosure name params body >>= Treewalk.Run.define name) machine =
          .done () { machine with
            closures := machine.closures + 1
            heap := machine.heap.put machine.frame name.lexeme (.holds (.closure closure)) } := by
        change Treewalk.Run.change name.line (fun heap frame => heap.bind frame name.lexeme (.holds (.closure closure)))
          { machine with closures := machine.closures + 1 } = _
        simp [Treewalk.Run.change, Heap.bind, binds]
      rw [ran, declareFunction_inner]
      refine .done _ _ (world.extend machine.frame name.lexeme state.fresh) _ _ ⟨stored, growth, ?_, rfl⟩ standsAfter
      intro frame _ unchanged other
      exact extend_elsewhere world machine.frame frame name.lexeme other state.fresh (fun both => unchanged both.1)

theorem write_simulates (changed : FrameId → Prop) (line : Int) (text : String)
    (matched : Matched ledger world machine state) :
    Simulates ledger changed world machine (fun _ _ _ _ => True) (Treewalk.Run.write line text machine)
      (write line text state) := by
  unfold Treewalk.Run.write write Machine.emit
  rw [matched.sink]
  cases state.sink.offer text.toUTF8 with
  | mk refusal sink =>
      have written : Matched ledger world { machine with sink := sink } { state with sink := sink } :=
        { matched with sink := rfl }
      cases refusal with
      | none => exact .done () () world _ _ ⟨written, growth_refl _ _, fun _ _ _ _ => rfl, rfl⟩ trivial
      | some reason => exact .fault _ world _ _ rfl written

theorem readClock_simulates (matched : Matched ledger world machine state) :
    Simulates ledger noFrame world machine (fun later heap => Same ledger heap later)
      (Treewalk.Run.readClock machine) (readClock state) := by
  have taken : Matched ledger world { machine with clock := { machine.clock with taken := machine.clock.taken + 1 } }
      { state with clock := { state.clock with taken := state.clock.taken + 1 } } :=
    { matched with clock := by rw [matched.clock] }
  unfold Treewalk.Run.readClock readClock
  refine .done _ _ world _ _ ⟨taken, growth_refl _ _, fun _ _ _ _ => rfl, rfl⟩ ?_
  rw [matched.clock]
  exact rfl

theorem checkCall_simulates (line : Int) (callee : Treewalk.Value) (mirror : Value) (count : Nat)
    (matched : Matched ledger world machine state) (same : Same ledger machine.heap world callee mirror) :
    Simulates ledger noFrame world machine (fun _ _ _ _ => callee.arity? = some count)
      (Treewalk.checkCall line callee count machine) (checkCall line mirror count state) := by
  unfold Treewalk.checkCall checkCall
  rw [← Value.alike_arity callee mirror (same_alike ledger machine.heap world callee mirror same), matched.limit,
    matched.depth]
  cases callee.arity? with
  | none => exact .fault _ world machine state rfl matched
  | some arity =>
      by_cases counts : arity = count
      · by_cases full : state.limit ≤ state.depth
        · simp only [counts, ne_eq, not_true, if_false, full, if_true]
          exact .fault _ world machine state rfl matched
        · simp only [counts, ne_eq, not_true, if_false, full]
          exact .done () () world machine state (reached_refl ledger noFrame world machine state matched) trivial
      · simp only [ne_eq, counts, not_false_eq_true, if_true]
        exact .fault _ world machine state rfl matched

-- The mirror goes back to the number of calls it had. The machine counts one less, which is the same number since the
-- body leaves it as it was.
theorem deeper_simulates {α β : Type} (result : World → Heap → α → β → Prop) (body : Treewalk.Run α) (mirror : Run β)
    (matched : Matched ledger world machine state) (restores : body.Restores)
    (inside : ∀ machine' state', machine' = { machine with depth := machine.depth + 1 } →
      Matched ledger world machine' state' →
      state' = { state with depth := state.depth + 1 } →
      Simulates ledger noFrame world machine' result (body machine') (mirror state')) :
    Simulates ledger noFrame world machine result (Treewalk.Run.deeper body machine) (deeper mirror state) := by
  have counted : Matched ledger world { machine with depth := machine.depth + 1 }
      { state with depth := state.depth + 1 } :=
    { matched with depth := congrArg (· + 1) matched.depth }
  have simulates := inside _ _ rfl counted rfl
  have kept := restores { machine with depth := machine.depth + 1 }
  have less (after : Machine) (same : after.control = { machine with depth := machine.depth + 1 : Machine }.control) :
      after.depth - 1 = state.depth := by
    have depth : after.depth = machine.depth + 1 := congrArg Control.depth same
    rw [depth, ← matched.depth, Nat.add_sub_cancel]
  unfold Treewalk.Run.deeper deeper
  generalize body { machine with depth := machine.depth + 1 } = outcome at simulates kept
  generalize mirror { state with depth := state.depth + 1 } = mirrored at simulates
  cases simulates with
  | done value mirror later after state' reached holds =>
      have restored : Matched ledger later { after with depth := after.depth - 1 } { state' with depth := state.depth } :=
        { reached.matched with depth := less after kept }
      exact .done value mirror later _ _ ⟨restored, reached.growth, reached.keeps, reached.frame⟩ holds
  | fault fault later after state' frame matched' =>
      have restored : Matched ledger later { after with depth := after.depth - 1 } { state' with depth := state.depth } :=
        { matched' with depth := less after kept }
      exact .fault fault later _ _ frame restored
  | outOfFuel => exact .outOfFuel

-- A new frame inside one that is linked to the names: nothing is declared in it yet.
theorem stands_inner (parent : FrameId) (scopes : List Scope) (names : Names)
    (matched : Matched ledger world machine state) (linked : Linked machine.heap world scopes parent names) :
    Stands (machine.heap.push (some parent)) world machine.heap.size ([] :: scopes) (.inner names) := by
  have growth := growth_push machine.heap world (some parent)
  have isLocal : machine.heap.size ≠ globalFrame := Nat.ne_of_gt matched.rooted
  refine ⟨⟨isLocal, ?_, ?_, parent, names, Heap.enclosing_push_fresh _ _,
    linked_grows _ _ _ _ growth scopes parent names linked, fun _ _ => rfl⟩, ?_⟩
  · rw [Heap.size_push]
    exact Nat.lt_succ_self _
  · intro name declared
    cases declared
  · intro name
    have absent : machine.heap.frames[machine.heap.size]? = none := Array.getElem?_eq_none (Nat.le_refl _)
    rw [matched.bound machine.heap.size name isLocal, Heap.binds, Heap.slot?, absent]
    rfl

-- What runs in a new frame changes none of those before.
theorem inner_simulates {α β : Type} (result : World → Heap → α → β → Prop) (parent : FrameId) (body : Treewalk.Run α)
    (mirror : Run β) (matched : Matched ledger world machine state)
    (inside : ∀ machine', machine' =
        { machine with heap := machine.heap.push (some parent), frame := machine.heap.size } →
      Matched ledger world machine' state →
      Simulates ledger (· = machine'.frame) world machine' result (body machine') (mirror state)) :
    Simulates ledger noFrame world machine result
      (Treewalk.Run.inFrame machine.heap.size body { machine with heap := machine.heap.push (some parent) })
      (mirror state) := by
  have pushed := matched_push ledger world machine state (some parent) matched
  have entered : Matched ledger world { machine with
      heap := machine.heap.push (some parent)
      frame := machine.heap.size } state := { pushed with }
  have simulates := inside _ rfl entered
  have growth := growth_push machine.heap world (some parent)
  unfold Treewalk.Run.inFrame
  dsimp only
  generalize body { machine with heap := machine.heap.push (some parent), frame := machine.heap.size } = outcome
    at simulates
  generalize mirror state = mirrored at simulates
  cases simulates with
  | done value mirror later after state' reached holds =>
      have back : Matched ledger later { after with frame := machine.frame } state' := { reached.matched with }
      refine .done value mirror later _ _ ⟨back, growth_trans _ _ _ _ _ _ growth reached.growth, ?_, rfl⟩ holds
      intro frame made _ name
      exact reached.keeps frame (Nat.lt_of_lt_of_le made growth.size) (Nat.ne_of_lt made) name
  | fault fault later after state' frame matched' =>
      exact .fault fault later _ _ rfl { matched' with }
  | outOfFuel => exact .outOfFuel

def SameAll (ledger : Ledger) (heap : Heap) (world : World) : List Treewalk.Value → List Value → Prop
  | [], [] => True
  | value :: values, mirror :: mirrors => Same ledger heap world value mirror ∧ SameAll ledger heap world values mirrors
  | _, _ => False

theorem sameAll_grows (before after : Heap) (growth : Growth before world after later) (values : List Treewalk.Value) :
    ∀ mirrors : List Value, SameAll ledger before world values mirrors → SameAll ledger after later values mirrors := by
  induction values with
  | nil =>
      intro mirrors same
      cases mirrors with
      | nil => trivial
      | cons => exact same.elim
  | cons value values ih =>
      intro mirrors same
      cases mirrors with
      | nil => exact same.elim
      | cons mirror mirrors =>
          exact ⟨same_grows ledger before after world later growth value mirror same.1, ih mirrors same.2⟩

theorem sameAll_length (heap : Heap) (values : List Treewalk.Value) : ∀ mirrors : List Value,
    SameAll ledger heap world values mirrors → values.length = mirrors.length := by
  induction values with
  | nil =>
      intro mirrors same
      cases mirrors with
      | nil => rfl
      | cons => exact same.elim
  | cons value values ih =>
      intro mirrors same
      cases mirrors with
      | nil => exact same.elim
      | cons mirror mirrors => exact congrArg (· + 1) (ih mirrors same.2)

end steps

-- Parameters are declared in the frame of the call, one after another.
theorem bindParams_simulates (ledger : Ledger) (params : List Token) : ∀ (arguments : List Treewalk.Value)
    (mirrors : List Value) (scopes : List Scope) (names : Names) (world : World) (machine : Machine) (state : State),
    Matched ledger world machine state → Stands machine.heap world machine.frame scopes (.inner names) →
    (∀ mention ∈ bindingMentions scopes params, ledger.Has mention) →
    SameAll ledger machine.heap world arguments mirrors → params.length = arguments.length →
    Simulates ledger (· = machine.frame) world machine
      (fun later heap _ names' => Stands heap later machine.frame (Scope.bindAll scopes params) (.inner names'))
      (Treewalk.bindParams params arguments machine) (bindParams names params mirrors state) := by
  induction params with
  | nil =>
      intro arguments mirrors scopes names world machine state matched stands _ _ _
      exact .done _ _ world machine state (reached_refl ledger _ world machine state matched) stands
  | cons param params ih =>
      intro arguments mirrors scopes names world machine state matched stands settled same counts
      cases arguments with
      | nil => cases counts
      | cons argument arguments =>
          cases mirrors with
          | nil => exact same.elim
          | cons mirror mirrors =>
              apply simulates_bind ledger _ world machine state _ _ _ _ (declare (.inner names) param (some mirror))
                (fun after => bindParams after.names params mirrors)
              · exact declare_simulates ledger world machine state param (.holds argument) (some mirror) scopes
                  (.inner names) matched stands (settled _ List.mem_cons_self) same.1
              · intro later after state' _ place reached stands'
                rw [← reached.frame] at stands' ⊢
                cases place with
                | outermost =>
                    have empty := stands_isEmpty _ _ _ _ _ stands'
                    rw [Scope.bind_isEmpty, stands_isEmpty _ _ _ _ _ stands] at empty
                    cases empty
                | inner names' =>
                    exact ih arguments mirrors (Scope.bind param scopes) names' later after state' reached.matched
                      stands' (fun mention inside => settled mention (List.mem_cons_of_mem _ inside))
                      (sameAll_grows ledger world later _ _ reached.growth arguments mirrors same.2)
                      (Nat.succ.inj counts)

end Treewalk.Lexical
