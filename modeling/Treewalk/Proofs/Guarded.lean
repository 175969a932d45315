import Treewalk.Proofs.Frames
import Treewalk.Proofs.Trace

/-!
Runs in which every resolved use finds its frame. From an orderly machine a run keeps the machine orderly, adds frames
and names and takes none away, and of the frames there before only the current one may get new names. At every moment
of the run a use with a recorded distance is at that distance from a local frame, which binds the name unless the use
is an assignment inside the initializer of that very name.
-/

set_option autoImplicit false

namespace Treewalk.Binding

-- What is known about the uses in all programs so far: distances, and the assignments in own initializers.
structure Register where
  distances : Distances
  labels : Nat
  own : Use NodeId → Prop

def Register.Tells (register : Register) : Mention NodeId → Prop
  | .use use scopes => register.own use ↔ use.writes = true ∧ Scope.pending scopes use.name.lexeme
  | _ => True

def Register.Has (register : Register) (mention : Mention NodeId) : Prop :=
  mention.Settled register.distances register.labels ∧ register.Tells mention

-- Statements that were analysed in these scopes and whose declarations stand in lists.
structure Fits (register : Register) (inFunction : Bool) (scopes : List Scope) (stmt : Stmt NodeId) : Prop where
  settled : ∀ mention ∈ stmt.mentions inFunction scopes, register.Has mention
  placed : stmt.strip.placed = true

structure FitsAll (register : Register) (inFunction : Bool) (scopes : List Scope) (stmts : List (Stmt NodeId)) :
    Prop where
  settled : ∀ mention ∈ Stmt.mentionsAll inFunction scopes stmts, register.Has mention
  placed : Stmt.placedAll (Stmt.stripAll stmts) = true

def Sound (register : Register) (heap : Heap) : Value → Prop
  | .closure closure =>
      ∃ scopes, Encloses heap scopes closure.home ∧
        (∀ mention ∈ bindingMentions ([] :: scopes) closure.params, register.Has mention) ∧
        FitsAll register true (Scope.bindAll ([] :: scopes) closure.params) closure.body
  | _ => True

structure Orderly (register : Register) (machine : Machine) : Prop where
  distances : machine.distances = register.distances
  labels : machine.labels = register.labels
  rooted : globalFrame < machine.heap.size
  held : ∀ frame name value, machine.heap.slot? frame name = some (.holds value) → Sound register machine.heap value

-- A machine that was reached from an orderly one. The frames in `changed` may bind more names than before.
structure Advanced (register : Register) (changed : FrameId → Prop) (machine after : Machine) : Prop where
  orderly : Orderly register after
  grows : Grows machine.heap after.heap
  keeps : ∀ frame, frame < machine.heap.size → ¬ changed frame →
    ∀ name, after.heap.binds frame name = machine.heap.binds frame name
  frame : after.frame = machine.frame

-- The frame that a use with a recorded distance means, and whether it binds the name.
def Found (register : Register) (moment : Moment) : Prop :=
  ∀ use, moment.use? = some use → ∀ distance, moment.machine.distances[use.label]? = some distance →
    ∃ home, moment.machine.heap.ancestor? distance moment.machine.frame = some home ∧ home ≠ globalFrame ∧
      (moment.machine.heap.binds home use.name.lexeme = true ↔ ¬ register.own use)

-- The use of a name that is bound nowhere: a global one, or an assignment in the initializer of its own variable.
def Missing (register : Register) (name : String) (line : Int) (moment : Moment) : Prop :=
  ∃ use, moment.use? = some use ∧ use.name.lexeme = name ∧ use.name.line = line ∧
    (moment.machine.distances[use.label]? = none ∨ register.own use)

inductive Ends {α : Type} (register : Register) (changed : FrameId → Prop) (machine : Machine)
    (result : Heap → α → Prop) (moments : List Moment) : Outcome α → Prop where
  | done (value : α) (after : Machine) (advanced : Advanced register changed machine after)
      (holds : result after.heap value) : Ends register changed machine result moments (.done value after)
  | fault (fault : Fault) (after : Machine) (orderly : Orderly register after) (frame : after.frame = machine.frame)
      (missing : ∀ name, fault.cause = .unbound name →
        ∃ moment ∈ moments.getLast?, Missing register name fault.line moment) :
      Ends register changed machine result moments (.fault fault after)
  | outOfFuel : Ends register changed machine result moments .outOfFuel

structure Guarded {α : Type} (register : Register) (changed : FrameId → Prop) (machine : Machine)
    (result : Heap → α → Prop) (ran : List Moment × Outcome α) : Prop where
  found : ∀ moment ∈ ran.1, Found register moment
  ends : Ends register changed machine result ran.1 ran.2

def noFrame (_ : FrameId) : Prop := False

section rules

variable {α β : Type} (register : Register) (changed : FrameId → Prop) (machine : Machine)

theorem advanced_refl (orderly : Orderly register machine) : Advanced register changed machine machine :=
  ⟨orderly, grows_refl _, fun _ _ _ _ => rfl, rfl⟩

theorem advanced_trans (between after : Machine) (early : Advanced register changed machine between)
    (late : Advanced register changed between after) : Advanced register changed machine after := by
  constructor
  · exact late.orderly
  · exact grows_trans _ _ _ early.grows late.grows
  · intro frame made unchanged name
    rw [late.keeps frame (Nat.lt_of_lt_of_le made early.grows.size) unchanged name]
    exact early.keeps frame made unchanged name
  · exact late.frame.trans early.frame

theorem guarded_pure (result : Heap → α → Prop) (value : α) (orderly : Orderly register machine)
    (holds : result machine.heap value) :
    Guarded register changed machine result ((pure value : Traced α) machine) :=
  ⟨fun _ inside => (nomatch inside), .done value machine (advanced_refl register changed machine orderly) holds⟩

theorem guarded_outOfFuel (result : Heap → α → Prop) :
    Guarded register changed machine result (Traced.quiet (Run.outOfFuel (α := α)) machine) :=
  ⟨fun _ inside => (nomatch inside), .outOfFuel⟩

theorem guarded_bind (middle : Heap → α → Prop) (result : Heap → β → Prop) (first : Traced α) (next : α → Traced β)
    (start : Guarded register changed machine middle (first machine))
    (goOn : ∀ after value, Advanced register changed machine after → middle after.heap value →
      Guarded register changed after result (next value after)) :
    Guarded register changed machine result ((first >>= next) machine) := by
  change Guarded register changed machine result (Traced.bind first next machine)
  unfold Traced.bind
  obtain ⟨found, ends⟩ := start
  generalize first machine = ran at found ends
  obtain ⟨moments, outcome⟩ := ran
  cases ends with
  | done value after advanced holds =>
      have rest := goOn after value advanced holds
      constructor
      · intro moment inside
        rcases List.mem_append.mp inside with early | late
        · exact found moment early
        · exact rest.found moment late
      · obtain ⟨-, ends⟩ := rest
        dsimp only
        generalize next value after = ran at ends
        obtain ⟨later, outcome⟩ := ran
        cases ends with
        | done value last advanced' holds =>
            exact .done value last (advanced_trans register changed machine after last advanced advanced') holds
        | fault fault last orderly frame missing =>
            refine .fault fault last orderly (frame.trans advanced.frame) ?_
            intro name unbound
            obtain ⟨moment, isLast, missed⟩ := missing name unbound
            refine ⟨moment, ?_, missed⟩
            rw [List.getLast?_append, isLast]
            rfl
        | outOfFuel => exact .outOfFuel
  | fault fault after orderly frame missing => exact ⟨found, .fault fault after orderly frame missing⟩
  | outOfFuel => exact ⟨found, .outOfFuel⟩

-- A moment on the record before a run.
theorem guarded_mark (result : Heap → α → Prop) (moment : Machine → Moment) (next : Traced α)
    (found : Found register (moment machine)) (rest : Guarded register changed machine result (next machine)) :
    Guarded register changed machine result ((Traced.mark moment >>= fun _ => next) machine) := by
  obtain ⟨later, ends⟩ := rest
  constructor
  · intro other inside
    rcases List.mem_cons.mp inside with rfl | inRest
    · exact found
    · exact later other inRest
  · change Ends register changed machine result (moment machine :: (next machine).1) (next machine).2
    generalize next machine = ran at ends
    obtain ⟨moments, outcome⟩ := ran
    cases ends with
    | done value after advanced holds => exact .done value after advanced holds
    | fault fault after orderly frame missing =>
        refine .fault fault after orderly frame ?_
        intro name unbound
        obtain ⟨last, isLast, missed⟩ := missing name unbound
        refine ⟨last, ?_, missed⟩
        rw [List.getLast?_cons, isLast]
        rfl
    | outOfFuel => exact .outOfFuel

theorem guarded_weaken (fewer : FrameId → Prop) (result weaker : Heap → α → Prop) (ran : List Moment × Outcome α)
    (guarded : Guarded register fewer machine result ran) (more : ∀ frame, fewer frame → changed frame)
    (weakens : ∀ after value, Advanced register fewer machine after → result after.heap value →
      weaker after.heap value) : Guarded register changed machine weaker ran := by
  obtain ⟨found, ends⟩ := guarded
  refine ⟨found, ?_⟩
  obtain ⟨moments, outcome⟩ := ran
  cases ends with
  | done value after advanced holds =>
      have kept : Advanced register changed machine after := ⟨advanced.orderly, advanced.grows,
        fun frame made unchanged => advanced.keeps frame made (fun less => unchanged (more frame less)), advanced.frame⟩
      exact .done value after kept (weakens after value advanced holds)
  | fault fault after orderly frame missing => exact .fault fault after orderly frame missing
  | outOfFuel => exact .outOfFuel

-- What changes no frame changes at most some.
theorem guarded_unchanged (result : Heap → α → Prop) (ran : List Moment × Outcome α)
    (guarded : Guarded register noFrame machine result ran) : Guarded register changed machine result ran :=
  guarded_weaken register changed machine noFrame result result ran guarded (fun _ => False.elim)
    (fun _ _ _ holds => holds)

-- A step without a record, which fails in no case for want of a binding.
theorem guarded_done (result : Heap → α → Prop) (run : Run α) (value : α) (after : Machine)
    (ran : run machine = .done value after) (advanced : Advanced register changed machine after)
    (holds : result after.heap value) : Guarded register changed machine result (Traced.quiet run machine) := by
  refine ⟨fun _ inside => (nomatch inside), ?_⟩
  change Ends register changed machine result [] (run machine)
  rw [ran]
  exact .done value after advanced holds

theorem guarded_fault (result : Heap → α → Prop) (run : Run α) (fault : Fault) (after : Machine)
    (ran : run machine = .fault fault after) (orderly : Orderly register after) (frame : after.frame = machine.frame)
    (known : ∀ name, fault.cause ≠ .unbound name) :
    Guarded register changed machine result (Traced.quiet run machine) := by
  refine ⟨fun _ inside => (nomatch inside), ?_⟩
  change Ends register changed machine result [] (run machine)
  rw [ran]
  exact .fault fault after orderly frame (fun name unbound => absurd unbound (known name))

end rules

section values

variable (register : Register) (machine : Machine)

theorem sound_grows (before after : Heap) (grows : Grows before after) (value : Value)
    (sound : Sound register before value) : Sound register after value := by
  cases value with
  | datum | clock => trivial
  | closure closure =>
      obtain ⟨scopes, encloses, bindings, fits⟩ := sound
      exact ⟨scopes, encloses_grows before after grows scopes closure.home encloses, bindings, fits⟩

theorem orderly_push (enclosing : Option FrameId) (orderly : Orderly register machine) :
    Orderly register { machine with heap := machine.heap.push enclosing } := by
  have grows := grows_push machine.heap enclosing
  refine ⟨orderly.distances, orderly.labels, Nat.lt_of_lt_of_le orderly.rooted grows.size, ?_⟩
  intro frame name value held
  rw [Heap.slot_push] at held
  exact sound_grows register _ _ grows value (orderly.held frame name value held)

theorem orderly_put (frame : FrameId) (name : String) (slot : Slot) (orderly : Orderly register machine)
    (made : frame < machine.heap.size)
    (sound : ∀ value, slot = .holds value → Sound register (machine.heap.put frame name slot) value) :
    Orderly register { machine with heap := machine.heap.put frame name slot } := by
  have grows := grows_put machine.heap frame name slot made
  refine ⟨orderly.distances, orderly.labels, Nat.lt_of_lt_of_le orderly.rooted grows.size, ?_⟩
  intro other query value held
  rcases held_put machine.heap frame other name query slot (.holds value) held with put | before
  · exact sound value put
  · exact sound_grows register _ _ grows value (orderly.held other query value before)

-- A name that is bound already gets a new value.
theorem advanced_put (frame : FrameId) (name : String) (value : Value) (orderly : Orderly register machine)
    (bound : machine.heap.binds frame name = true) (sound : Sound register machine.heap value) :
    Advanced register noFrame machine { machine with heap := machine.heap.put frame name (.holds value) } := by
  have made := binds_made machine.heap frame name bound
  have grows := grows_put machine.heap frame name (.holds value) made
  constructor
  · apply orderly_put register machine frame name (.holds value) orderly made
    intro stored same
    cases same
    exact sound_grows register _ _ grows value sound
  · exact grows
  · intro other _ _ query
    exact binds_put_bound machine.heap frame other name query (.holds value) bound
  · rfl

theorem read_sound (frame : FrameId) (name : String) (value : Value) (orderly : Orderly register machine)
    (read : machine.heap.read frame name = .ok value) : Sound register machine.heap value := by
  unfold Heap.read at read
  rcases held : machine.heap.slot? frame name with _ | _ | stored <;> rw [held] at read
  · cases read
  · cases read
  · cases read
    exact orderly.held frame name value held

theorem read_unbound (heap : Heap) (frame : FrameId) (name query : String)
    (read : heap.read frame name = .error (.unbound query)) : heap.binds frame name = false ∧ query = name := by
  unfold Heap.read at read
  rcases held : heap.slot? frame name with _ | _ | stored <;> rw [held] at read
  · cases read
    exact ⟨by simp [Heap.binds, held], rfl⟩
  · cases read
  · cases read

end values

section names

variable (register : Register) (machine : Machine) (scopes : List Scope)

-- A use in scopes that the current frame overlooks is at its distance from the right frame.
theorem use_found (use : Use NodeId) (moment : Moment) (ofUse : moment.use? = some use)
    (now : moment.machine = machine) (orderly : Orderly register machine)
    (overlooks : Overlooks machine.heap scopes machine.frame) (has : register.Has (.use use scopes)) :
    Found register moment := by
  intro other same distance recorded
  cases ofUse.symm.trans same
  rw [now] at recorded ⊢
  obtain ⟨⟨-, settled, reads⟩, told⟩ := has
  rw [orderly.distances, settled] at recorded
  obtain ⟨home, reached, isLocal, binds⟩ :=
    overlooks_distance machine.heap use.name.lexeme scopes machine.frame distance overlooks recorded
  refine ⟨home, reached, isLocal, binds.trans (not_congr ?_)⟩
  constructor
  · intro early
    refine told.mpr ⟨?_, early⟩
    cases writes : use.writes with
    | true => rfl
    | false => exact absurd early (reads writes)
  · intro own
    exact (told.mp own).2

theorem found_other (moment : Moment) (noUse : moment.use? = none) : Found register moment := by
  intro use same
  rw [noUse] at same
  cases same

-- The end of a run with one moment on the record, a use that may miss its name.
theorem guarded_use {α : Type} (result : Heap → α → Prop) (use : Use NodeId) (moment : Machine → Moment) (run : Run α)
    (found : Found register (moment machine)) (ofUse : (moment machine).use? = some use)
    (now : (moment machine).machine = machine)
    (done : ∀ value after, run machine = .done value after →
      Advanced register noFrame machine after ∧ result after.heap value)
    (fault : ∀ fault after, run machine = .fault fault after → after = machine ∧ fault.line = use.name.line ∧
      ∀ name, fault.cause = .unbound name →
        name = use.name.lexeme ∧ (machine.distances[use.label]? = none ∨ register.own use))
    (orderly : Orderly register machine) :
    Guarded register noFrame machine result ((Traced.mark moment >>= fun _ => Traced.quiet run) machine) := by
  constructor
  · intro other inside
    cases List.mem_singleton.mp inside
    exact found
  · change Ends register noFrame machine result [moment machine] (run machine)
    cases ran : run machine with
    | done value after =>
        obtain ⟨advanced, holds⟩ := done value after ran
        exact .done value after advanced holds
    | fault failed after =>
        obtain ⟨same, line, missing⟩ := fault failed after ran
        subst same
        refine .fault failed after orderly rfl ?_
        intro name unbound
        obtain ⟨lexeme, why⟩ := missing name unbound
        refine ⟨moment after, rfl, use, ofUse, lexeme.symm, line.symm, ?_⟩
        rw [now]
        exact why
    | outOfFuel => exact .outOfFuel

theorem lookup_guarded (label : NodeId) (name : Token) (orderly : Orderly register machine)
    (overlooks : Overlooks machine.heap scopes machine.frame)
    (has : register.Has (.use ⟨label, name, false⟩ scopes)) :
    Guarded register noFrame machine (Sound register)
      ((Traced.mark (.evaluates (.var label name)) >>= fun _ => Traced.quiet (Run.lookup label name)) machine) := by
  have found := use_found register machine scopes ⟨label, name, false⟩ (.evaluates (.var label name) machine) rfl rfl
    orderly overlooks has
  have reads : ∃ home, machine.valueOf label name.lexeme = machine.heap.read home name.lexeme ∧
      (machine.distances[label]? = none ∨ machine.heap.binds home name.lexeme = true) := by
    cases recorded : machine.distances[label]? with
    | some distance =>
        obtain ⟨home, reached, -, binds⟩ := found _ rfl distance recorded
        have plain : ¬ register.own ⟨label, name, false⟩ := fun own => nomatch (has.2.mp own).1
        exact ⟨home, valueOf_at machine label distance name.lexeme home recorded reached, .inr (binds.mpr plain)⟩
    | none => exact ⟨globalFrame, valueOf_global machine label name.lexeme recorded, .inl rfl⟩
  obtain ⟨home, valued, bound⟩ := reads
  apply guarded_use register machine (Sound register) ⟨label, name, false⟩ _ _ found rfl rfl _ _ orderly
  · intro value after ran
    unfold Run.lookup at ran
    rw [valued] at ran
    cases read : machine.heap.read home name.lexeme with
    | ok stored =>
        rw [read] at ran
        cases ran
        exact ⟨advanced_refl register noFrame machine orderly,
          read_sound register machine home name.lexeme value orderly read⟩
    | error cause =>
        rw [read] at ran
        cases ran
  · intro fault after ran
    unfold Run.lookup at ran
    rw [valued] at ran
    cases read : machine.heap.read home name.lexeme with
    | ok stored =>
        rw [read] at ran
        cases ran
    | error cause =>
        rw [read] at ran
        cases ran
        refine ⟨rfl, rfl, ?_⟩
        rintro query rfl
        obtain ⟨unbound, same⟩ := read_unbound machine.heap home name.lexeme query read
        refine ⟨same, .inl (bound.resolve_right ?_)⟩
        simp [unbound]

theorem store_guarded (label : NodeId) (name : Token) (value : Value) (orderly : Orderly register machine)
    (overlooks : Overlooks machine.heap scopes machine.frame)
    (has : register.Has (.use ⟨label, name, true⟩ scopes)) (sound : Sound register machine.heap value) :
    Guarded register noFrame machine (fun _ _ => True)
      ((Traced.mark (.stores label name) >>= fun _ => Traced.quiet (Run.store label name value)) machine) := by
  have found := use_found register machine scopes ⟨label, name, true⟩ (.stores label name machine) rfl rfl
    orderly overlooks has
  have stores : ∃ home, Run.store label name value machine =
      (if machine.heap.binds home name.lexeme = true then
        .done () { machine with heap := machine.heap.put home name.lexeme (.holds value) }
      else .fault ⟨.unbound name.lexeme, name.line⟩ machine) ∧
      (machine.heap.binds home name.lexeme = false →
        machine.distances[label]? = none ∨ register.own ⟨label, name, true⟩) := by
    cases recorded : machine.distances[label]? with
    | some distance =>
        obtain ⟨home, reached, -, binds⟩ := found _ rfl distance recorded
        refine ⟨home, store_at machine label distance name value home recorded reached, fun unbound => .inr ?_⟩
        by_cases own : register.own ⟨label, name, true⟩
        · exact own
        · exact absurd (unbound.symm.trans (binds.mpr own)) Bool.false_ne_true
    | none => exact ⟨globalFrame, store_global machine label name value recorded, fun _ => .inl rfl⟩
  obtain ⟨home, stored, unbound⟩ := stores
  apply guarded_use register machine (fun _ _ => True) ⟨label, name, true⟩ _ _ found rfl rfl _ _ orderly
  · intro _ after ran
    rw [stored] at ran
    cases bound : machine.heap.binds home name.lexeme with
    | true =>
        rw [bound, if_pos rfl] at ran
        cases ran
        exact ⟨advanced_put register machine home name.lexeme value orderly bound sound, trivial⟩
    | false =>
        rw [bound, if_neg Bool.false_ne_true] at ran
        cases ran
  · intro fault after ran
    rw [stored] at ran
    cases bound : machine.heap.binds home name.lexeme with
    | true =>
        rw [bound, if_pos rfl] at ran
        cases ran
    | false =>
        rw [bound, if_neg Bool.false_ne_true] at ran
        cases ran
        refine ⟨rfl, rfl, ?_⟩
        intro query same
        cases same
        exact ⟨rfl, unbound bound⟩

end names

section steps

variable (register : Register) (machine : Machine)

theorem overlooks_made (scopes : List Scope) (orderly : Orderly register machine)
    (overlooks : Overlooks machine.heap scopes machine.frame) : machine.frame < machine.heap.size := by
  cases scopes with
  | nil =>
      have root : machine.frame = globalFrame := overlooks
      rw [root]
      exact orderly.rooted
  | cons scope outer =>
      obtain ⟨-, -, parent, link, -⟩ := overlooks
      exact Heap.enclosing_made machine.heap machine.frame parent link

theorem stands_made (scopes : List Scope) (orderly : Orderly register machine)
    (stands : Stands machine.heap scopes machine.frame) : machine.frame < machine.heap.size :=
  overlooks_made register machine scopes orderly (stands_overlooks machine.heap scopes machine.frame stands)

-- A name that the current frame does not bind yet is bound there.
theorem advanced_bind (name : String) (slot : Slot) (orderly : Orderly register machine)
    (made : machine.frame < machine.heap.size)
    (sound : ∀ value, slot = .holds value → Sound register (machine.heap.put machine.frame name slot) value) :
    Advanced register (· = machine.frame) machine
      { machine with heap := machine.heap.put machine.frame name slot } := by
  constructor
  · exact orderly_put register machine machine.frame name slot orderly made sound
  · exact grows_put machine.heap machine.frame name slot made
  · intro frame _ unchanged other
    exact binds_put_elsewhere machine.heap machine.frame frame name other slot (.inl unchanged)
  · rfl

theorem declare_guarded (name : Token) (slot : Slot) (scopes : List Scope) (orderly : Orderly register machine)
    (stands : Stands machine.heap scopes machine.frame) (has : register.Has (.binding name scopes))
    (sound : ∀ value, slot = .holds value → Sound register machine.heap value) :
    Guarded register (· = machine.frame) machine
      (fun heap _ => Stands heap (Scope.bind name scopes) machine.frame)
      (Traced.quiet (Run.change name.line (fun heap frame => heap.bind frame name.lexeme slot)) machine) := by
  have made := stands_made register machine scopes orderly stands
  cases binds : machine.heap.binds machine.frame name.lexeme with
  | true =>
      have ran : Run.change name.line (fun heap frame => heap.bind frame name.lexeme slot) machine =
          .fault ⟨.rebound name.lexeme, name.line⟩ machine := by
        simp [Run.change, Heap.bind, binds]
      exact guarded_fault register _ machine _ _ _ machine ran orderly rfl (fun _ same => Cause.noConfusion same)
  | false =>
      have ran : Run.change name.line (fun heap frame => heap.bind frame name.lexeme slot) machine =
          .done () { machine with heap := machine.heap.put machine.frame name.lexeme slot } := by
        simp [Run.change, Heap.bind, binds]
      have grows := grows_put machine.heap machine.frame name.lexeme slot made
      apply guarded_done register _ machine _ _ () _ ran
      · apply advanced_bind register machine name.lexeme slot orderly made
        exact fun value same => sound_grows register _ _ grows value (sound value same)
      · exact stands_bind machine.heap name slot scopes machine.frame stands made has.1

-- A function is made and then bound to its name, which its own scopes declare.
theorem declareFunction_guarded (name : Token) (params : List Token) (body : List (Stmt NodeId))
    (scopes : List Scope) (orderly : Orderly register machine) (stands : Stands machine.heap scopes machine.frame)
    (has : register.Has (.binding name scopes))
    (bindings : ∀ mention ∈ bindingMentions ([] :: Scope.bind name scopes) params, register.Has mention)
    (fits : FitsAll register true (Scope.bindAll ([] :: Scope.bind name scopes) params) body) :
    Guarded register (· = machine.frame) machine
      (fun heap _ => Stands heap (Scope.bind name scopes) machine.frame)
      (Traced.quiet (Run.newClosure name params body >>= Run.define name) machine) := by
  have made := stands_made register machine scopes orderly stands
  let closure : Closure := ⟨machine.closures, name, params, body, machine.frame⟩
  have counted : Orderly register { machine with closures := machine.closures + 1 } := { orderly with }
  cases binds : machine.heap.binds machine.frame name.lexeme with
  | true =>
      have ran : (Run.newClosure name params body >>= Run.define name) machine =
          .fault ⟨.rebound name.lexeme, name.line⟩ { machine with closures := machine.closures + 1 } := by
        change Run.change name.line (fun heap frame => heap.bind frame name.lexeme (.holds (.closure closure)))
          { machine with closures := machine.closures + 1 } = _
        simp [Run.change, Heap.bind, binds]
      exact guarded_fault register _ machine _ _ _ _ ran counted rfl (fun _ same => Cause.noConfusion same)
  | false =>
      have ran : (Run.newClosure name params body >>= Run.define name) machine =
          .done () { machine with
            closures := machine.closures + 1
            heap := machine.heap.put machine.frame name.lexeme (.holds (.closure closure)) } := by
        change Run.change name.line (fun heap frame => heap.bind frame name.lexeme (.holds (.closure closure)))
          { machine with closures := machine.closures + 1 } = _
        simp [Run.change, Heap.bind, binds]
      have standsAfter := stands_bind machine.heap name (.holds (.closure closure)) scopes machine.frame stands made has.1
      apply guarded_done register _ machine _ _ () _ ran
      · have advanced := advanced_bind register { machine with closures := machine.closures + 1 } name.lexeme
          (.holds (.closure closure)) counted made (by
            intro value same
            cases same
            exact ⟨Scope.bind name scopes, standsAfter.1, bindings, fits⟩)
        exact ⟨advanced.orderly, advanced.grows, advanced.keeps, advanced.frame⟩
      · exact standsAfter

theorem write_guarded (changed : FrameId → Prop) (line : Int) (text : String) (orderly : Orderly register machine) :
    Guarded register changed machine (fun _ _ => True) (Traced.quiet (Run.write line text) machine) := by
  cases offered : machine.sink.offer text.toUTF8 with
  | mk refusal sink =>
      have written : Orderly register { machine with sink := sink } := { orderly with }
      cases refusal with
      | none =>
          have ran : Run.write line text machine = .done () { machine with sink := sink } := by
            simp only [Run.write, Machine.emit, offered]
          exact guarded_done register changed machine _ _ () _ ran ⟨written, grows_refl _, fun _ _ _ _ => rfl, rfl⟩
            trivial
      | some reason =>
          have ran : Run.write line text machine = .fault ⟨.outputFailed reason, line⟩ { machine with sink := sink } := by
            simp only [Run.write, Machine.emit, offered]
          exact guarded_fault register changed machine _ _ _ _ ran written rfl (fun _ same => nomatch same)

theorem readClock_guarded (orderly : Orderly register machine) :
    Guarded register noFrame machine (Sound register) (Traced.quiet Run.readClock machine) :=
  guarded_done register noFrame machine _ _ _ _ rfl ⟨{ orderly with }, grows_refl _, fun _ _ _ _ => rfl, rfl⟩ trivial

theorem checkCall_guarded (line : Int) (callee : Value) (count : Nat) (orderly : Orderly register machine) :
    Guarded register noFrame machine (fun _ _ => callee.arity? = some count)
      (Traced.quiet (checkCall line callee count) machine) := by
  cases takes : callee.arity? with
  | none =>
      have ran : checkCall line callee count machine = .fault ⟨.notCallable, line⟩ machine := by
        simp only [checkCall, takes]
      exact guarded_fault register noFrame machine _ _ _ _ ran orderly rfl (fun _ same => nomatch same)
  | some arity =>
      by_cases counts : arity = count
      · by_cases full : machine.limit ≤ machine.depth
        · have ran : checkCall line callee count machine = .fault ⟨.tooDeep, line⟩ machine := by
            simp [checkCall, takes, counts, full]
          exact guarded_fault register noFrame machine _ _ _ _ ran orderly rfl (fun _ same => nomatch same)
        · have ran : checkCall line callee count machine = .done () machine := by
            simp [checkCall, takes, counts, full]
          exact guarded_done register noFrame machine _ _ () _ ran (advanced_refl register noFrame machine orderly)
            (congrArg some counts)
      · have ran : checkCall line callee count machine = .fault ⟨.wrongArity arity count, line⟩ machine := by
          simp [checkCall, takes, counts]
        exact guarded_fault register noFrame machine _ _ _ _ ran orderly rfl (fun _ same => nomatch same)

theorem deeper_guarded {α : Type} (result : Heap → α → Prop) (body : Traced α) (orderly : Orderly register machine)
    (inside : ∀ machine', machine' = { machine with depth := machine.depth + 1 } → Orderly register machine' →
      Guarded register noFrame machine' result (body machine')) :
    Guarded register noFrame machine result (Traced.deeper body machine) := by
  obtain ⟨found, ends⟩ := inside _ rfl { orderly with }
  unfold Traced.deeper
  dsimp only
  refine ⟨found, ?_⟩
  generalize body { machine with depth := machine.depth + 1 } = ran at ends
  obtain ⟨moments, outcome⟩ := ran
  cases ends with
  | done value after advanced holds =>
      exact .done value _ ⟨{ advanced.orderly with }, advanced.grows, advanced.keeps, advanced.frame⟩ holds
  | fault fault after orderly' frame missing => exact .fault fault _ { orderly' with } frame missing
  | outOfFuel => exact .outOfFuel

-- What runs in a new frame changes none of those before.
theorem inner_guarded {α : Type} (result : Heap → α → Prop) (parent : FrameId) (body : Traced α)
    (orderly : Orderly register machine)
    (inside : ∀ machine', machine' =
        { machine with heap := machine.heap.push (some parent), frame := machine.heap.size } →
      Orderly register machine' → Guarded register (· = machine'.frame) machine' result (body machine')) :
    Guarded register noFrame machine result
      (Traced.inFrame machine.heap.size body { machine with heap := machine.heap.push (some parent) }) := by
  have pushed := orderly_push register machine (some parent) orderly
  have grows := grows_push machine.heap (some parent)
  obtain ⟨found, ends⟩ := inside _ rfl { pushed with }
  unfold Traced.inFrame
  dsimp only
  refine ⟨found, ?_⟩
  generalize body { machine with heap := machine.heap.push (some parent), frame := machine.heap.size } = ran at ends
  obtain ⟨moments, outcome⟩ := ran
  cases ends with
  | done value after advanced holds =>
      refine .done value _ ⟨{ advanced.orderly with }, grows_trans _ _ _ grows advanced.grows, ?_, rfl⟩ holds
      intro frame made _ name
      rw [← binds_push machine.heap (some parent) frame name]
      exact advanced.keeps frame (Nat.lt_of_lt_of_le made grows.size) (Nat.ne_of_lt made) name
  | fault fault after orderly' frame missing => exact .fault fault _ { orderly' with } rfl missing
  | outOfFuel => exact .outOfFuel

end steps

-- Parameters are declared in the frame of the call, one after another.
theorem bindParams_guarded (register : Register) (params : List Token) : ∀ (arguments : List Value)
    (scopes : List Scope) (machine : Machine), Orderly register machine →
    Stands machine.heap scopes machine.frame →
    (∀ mention ∈ bindingMentions scopes params, register.Has mention) →
    (∀ argument ∈ arguments, Sound register machine.heap argument) → params.length = arguments.length →
    Guarded register (· = machine.frame) machine
      (fun heap _ => Stands heap (Scope.bindAll scopes params) machine.frame)
      (Traced.quiet (bindParams params arguments) machine) := by
  induction params with
  | nil =>
      intro arguments scopes machine orderly stands _ _ _
      exact guarded_done register _ machine _ _ () machine rfl (advanced_refl register _ machine orderly) stands
  | cons param params ih =>
      intro arguments scopes machine orderly stands has sound counts
      cases arguments with
      | nil => cases counts
      | cons argument arguments =>
          rw [bindParams, Traced.quiet_bind]
          apply guarded_bind register _ machine (fun heap _ => Stands heap (Scope.bind param scopes) machine.frame)
          · apply declare_guarded register machine param (.holds argument) scopes orderly stands
              (has _ List.mem_cons_self)
            intro value same
            cases same
            exact sound argument List.mem_cons_self
          · intro after _ advanced stands'
            rw [← advanced.frame] at stands' ⊢
            exact ih arguments (Scope.bind param scopes) after advanced.orderly stands'
              (fun mention inside => has mention (List.mem_cons_of_mem _ inside))
              (fun value inside => sound_grows register _ _ advanced.grows value
                (sound value (List.mem_cons_of_mem _ inside)))
              (Nat.succ.inj counts)

end Treewalk.Binding
