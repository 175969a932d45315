import Treewalk.Proofs.History
import Treewalk.Proofs.Restoring

/-!
What runs do to the frames. Frames are added and names are added to them, and nothing is ever taken away: a frame keeps
its link and its names, and a slot with a value goes on to have one. Names are added by declarations only, and only to
the frame that is current there. So an expression adds none to the frames before it, whatever it calls, and a statement
adds some only to the current frame and only if it declares outside of all blocks in it.
-/

set_option autoImplicit false

namespace Treewalk

variable {ν : Type}

-- A declaration, or a branch or loop body that is one, as far as no block comes in between.
inductive Stmt.DeclaresHere : Stmt ν → Prop where
  | var (name : Token) (value : Option (Expr ν)) : DeclaresHere (.var name value)
  | func (name : Token) (params : List Token) (body : List (Stmt ν)) : DeclaresHere (.func name params body)
  | yes (condition : Expr ν) (yes : Stmt ν) (no : Option (Stmt ν)) (declares : yes.DeclaresHere) :
      DeclaresHere (.branch condition yes no)
  | no (condition : Expr ν) (yes no : Stmt ν) (declares : no.DeclaresHere) :
      DeclaresHere (.branch condition yes (some no))
  | loop (condition : Expr ν) (body : Stmt ν) (declares : body.DeclaresHere) : DeclaresHere (.loop condition body)

namespace Heap

-- The frames before may have come to the frames after. Only frames in `extended` have more names than before, apart from
-- those that are new.
structure Permits (extended : FrameId → Prop) (before after : Heap) : Prop where
  size : before.size ≤ after.size
  enclosing : ∀ frame, frame < before.size → after.enclosing? frame = before.enclosing? frame
  names : ∀ frame name, before.binds frame name = true → after.binds frame name = true
  held : ∀ frame name value, before.slot? frame name = some (.holds value) →
    ∃ other, after.slot? frame name = some (.holds other)
  added : ∀ frame, frame < before.size → ¬ extended frame → ∀ name, after.binds frame name = before.binds frame name

section

variable {extended : FrameId → Prop}

theorem permits_refl (heap : Heap) : Permits extended heap heap :=
  ⟨Nat.le_refl _, fun _ _ => rfl, fun _ _ bound => bound, fun _ _ value held => ⟨value, held⟩, fun _ _ _ _ => rfl⟩

theorem permits_trans {first second third : Heap} (early : Permits extended first second)
    (late : Permits extended second third) : Permits extended first third := by
  constructor
  · exact Nat.le_trans early.size late.size
  · intro frame made
    rw [late.enclosing frame (Nat.lt_of_lt_of_le made early.size), early.enclosing frame made]
  · exact fun frame name bound => late.names frame name (early.names frame name bound)
  · intro frame name value held
    obtain ⟨other, between⟩ := early.held frame name value held
    exact late.held frame name other between
  · intro frame made kept name
    rw [late.added frame (Nat.lt_of_lt_of_le made early.size) kept, early.added frame made kept]

theorem permits_mono {more : FrameId → Prop} {before after : Heap} (implies : ∀ frame, extended frame → more frame)
    (permits : Permits extended before after) : Permits more before after :=
  { permits with added := fun frame made kept => permits.added frame made fun less => kept (implies frame less) }

theorem permits_push (heap : Heap) (enclosing : Option FrameId) : Permits extended heap (heap.push enclosing) := by
  constructor
  · rw [size_push]
    exact Nat.le_succ _
  · exact fun frame made => enclosing_push_older heap enclosing frame made
  · intro frame name bound
    rw [Binding.binds_push]
    exact bound
  · intro frame name value held
    rw [slot_push]
    exact ⟨value, held⟩
  · exact fun frame _ _ name => Binding.binds_push heap enclosing frame name

-- What happens in a new frame is no change of a frame that was there before.
theorem permits_inside {heap after : Heap} {enclosing : Option FrameId}
    (inside : Permits (· = heap.size) (heap.push enclosing) after) : Permits extended heap after := by
  have both := permits_trans (permits_push heap enclosing) inside
  exact { both with added := fun frame made _ => both.added frame made (Nat.ne_of_lt made) }

-- A name that the frame did not bind.
theorem permits_bind (heap : Heap) (frame : FrameId) (name : String) (slot : Slot)
    (unbound : heap.binds frame name = false) (here : extended frame) :
    Permits extended heap (heap.put frame name slot) := by
  have apart (other : FrameId) (query : String) (bound : heap.binds other query = true) :
      other ≠ frame ∨ query ≠ name := by
    rw [← Classical.not_and_iff_not_or_not]
    rintro ⟨rfl, rfl⟩
    rw [unbound] at bound
    cases bound
  constructor
  · exact Nat.le_of_eq (size_put heap frame name slot).symm
  · exact fun other _ => enclosing_put heap frame other name slot
  · intro other query bound
    rw [Binding.binds_put_elsewhere heap frame other name query slot (apart other query bound)]
    exact bound
  · intro other query value held
    have bound : heap.binds other query = true := by rw [binds, held]; rfl
    rw [slot_put_elsewhere heap frame other name query slot (apart other query bound)]
    exact ⟨value, held⟩
  · intro other _ kept query
    exact Binding.binds_put_elsewhere heap frame other name query slot
      (.inl fun same => kept (same ▸ here))

-- A new value for a name that the frame binds.
theorem permits_set (heap : Heap) (frame : FrameId) (name : String) (value : Value)
    (bound : heap.binds frame name = true) : Permits extended heap (heap.put frame name (.holds value)) := by
  constructor
  · exact Nat.le_of_eq (size_put heap frame name _).symm
  · exact fun other _ => enclosing_put heap frame other name _
  · intro other query before
    rw [Binding.binds_put_bound heap frame other name query _ bound]
    exact before
  · intro other query old held
    by_cases here : other = frame ∧ query = name
    · obtain ⟨rfl, rfl⟩ := here
      exact ⟨value, slot_put_here heap other query _ (Binding.binds_made heap other query bound)⟩
    · rw [slot_put_elsewhere heap frame other name query _ (Classical.not_and_iff_not_or_not.mp here)]
      exact ⟨old, held⟩
  · exact fun other _ _ query => Binding.binds_put_bound heap frame other name query _ bound

end

-- An operation that succeeds has put one slot. A name is bound where it was not bound, and set where it was.

theorem bind_puts (heap after : Heap) (frame : FrameId) (name : String) (slot : Slot)
    (changed : heap.bind frame name slot = .ok after) :
    heap.binds frame name = false ∧ after = heap.put frame name slot := by
  unfold Heap.bind at changed
  by_cases bound : heap.binds frame name = true
  · rw [if_pos bound] at changed
    cases changed
  · rw [if_neg bound] at changed
    cases changed
    exact ⟨Bool.eq_false_iff.mpr bound, rfl⟩

theorem update_puts (heap after : Heap) (frame : FrameId) (name : String) (value : Value)
    (updated : heap.update frame name value = .ok after) :
    ∃ home, heap.binds home name = true ∧ after = heap.put home name (.holds value) := by
  unfold update at updated
  cases found : heap.home? frame name with
  | none =>
      rw [found] at updated
      cases updated
  | some home =>
      rw [found] at updated
      cases updated
      exact ⟨home, List.find?_some (p := (heap.binds · name)) found, rfl⟩

theorem updateAt_puts (heap after : Heap) (frame : FrameId) (distance : Nat) (name : String) (value : Value)
    (updated : heap.updateAt frame distance name value = .ok after) :
    ∃ home, heap.binds home name = true ∧ after = heap.put home name (.holds value) := by
  unfold updateAt at updated
  cases found : heap.ancestor? distance frame with
  | none =>
      rw [found] at updated
      cases updated
  | some home =>
      rw [found] at updated
      by_cases bound : heap.binds home name = true
      · simp only [bound, if_true] at updated
        cases updated
        exact ⟨home, bound, rfl⟩
      · simp only [bound] at updated
        cases updated

end Heap

namespace Run

variable {α β : Type}

-- However the run ends, it is back in the frame where it started, and of the frames there before at most that one has
-- more names, if the run may declare any.
def Permits (declares : Prop) (run : Run α) : Prop :=
  ∀ machine after, (run machine).machine? = some after →
    after.frame = machine.frame ∧
      Heap.Permits (fun frame => frame = machine.frame ∧ declares) machine.heap after.heap

section rules

variable {declares : Prop}

theorem permits_unchanged (run : Run α)
    (unchanged : ∀ machine after, (run machine).machine? = some after →
      after.frame = machine.frame ∧ after.heap = machine.heap) : run.Permits declares := by
  intro machine after ended
  obtain ⟨frame, heap⟩ := unchanged machine after ended
  rw [heap]
  exact ⟨frame, Heap.permits_refl _⟩

theorem permits_pure (value : α) : Permits declares (pure value) := by
  apply permits_unchanged
  intro machine after ended
  cases ended
  exact ⟨rfl, rfl⟩

theorem permits_outOfFuel : Permits declares (outOfFuel : Run α) := by
  intro machine after ended
  cases ended

theorem permits_mono {more : Prop} (implies : declares → more) {run : Run α} (permits : run.Permits declares) :
    run.Permits more := by
  intro machine after ended
  obtain ⟨frame, changed⟩ := permits machine after ended
  exact ⟨frame, Heap.permits_mono (fun _ here => ⟨here.1, implies here.2⟩) changed⟩

theorem permits_bind {first : Run α} {next : α → Run β} (start : first.Permits declares)
    (goOn : ∀ value, (next value).Permits declares) : Permits declares (first >>= next) := by
  intro machine after ended
  change (Run.bind first next machine).machine? = some after at ended
  simp only [Run.bind] at ended
  have early := start machine
  cases ran : first machine with
  | done value between =>
      rw [ran] at ended early
      obtain ⟨frame, changed⟩ := early between rfl
      obtain ⟨frame', changed'⟩ := goOn value between after ended
      rw [frame] at frame' changed'
      exact ⟨frame', Heap.permits_trans changed changed'⟩
  | fault fault between =>
      rw [ran] at ended early
      exact early after ended
  | outOfFuel =>
      rw [ran] at ended
      cases ended

-- A body that runs in a new frame may declare there what it likes.
theorem permits_entered {within : Prop} {body : Run α} (inside : body.Permits within) (machine after : Machine)
    (enclosing : FrameId)
    (ended : (inFrame machine.heap.size body { machine with heap := machine.heap.push (some enclosing) }).machine? =
      some after) :
    after.frame = machine.frame ∧
      Heap.Permits (fun frame => frame = machine.frame ∧ declares) machine.heap after.heap := by
  have entered := inside { machine with heap := machine.heap.push (some enclosing), frame := machine.heap.size }
  simp only [inFrame] at ended
  cases ran : body { machine with heap := machine.heap.push (some enclosing), frame := machine.heap.size } with
  | done _ last | fault _ last =>
      rw [ran] at ended entered
      cases ended
      refine ⟨rfl, Heap.permits_inside (Heap.permits_mono ?_ (entered last rfl).2)⟩
      exact fun frame here => here.1
  | outOfFuel =>
      rw [ran] at ended
      cases ended

theorem permits_inNew {within : Prop} (enclosing : FrameId) {body : Run α} (inside : body.Permits within) :
    Permits declares (newFrame enclosing >>= fun frame => inFrame frame body) :=
  fun machine after ended => permits_entered inside machine after enclosing ended

theorem permits_inInner {within : Prop} {body : Run α} (inside : body.Permits within) :
    Permits declares (newInner >>= fun frame => inFrame frame body) :=
  fun machine after ended => permits_entered inside machine after machine.frame ended

theorem permits_deeper {body : Run α} (inside : body.Permits declares) : Permits declares (deeper body) := by
  intro machine after ended
  have entered := inside { machine with depth := machine.depth + 1 }
  simp only [deeper] at ended
  cases ran : body { machine with depth := machine.depth + 1 } with
  | done _ last | fault _ last =>
      rw [ran] at ended entered
      cases ended
      exact entered last rfl
  | outOfFuel =>
      rw [ran] at ended
      cases ended

end rules

-- The single steps of the machine.

section steps

variable {declares : Prop}

theorem permits_change (line : Int) (action : Heap → FrameId → Except Cause Heap)
    (permits : ∀ heap frame after, action heap frame = .ok after →
      Heap.Permits (fun other => other = frame ∧ declares) heap after) : Permits declares (change line action) := by
  intro machine after ended
  simp only [change] at ended
  cases changed : action machine.heap machine.frame with
  | ok heap =>
      rw [changed] at ended
      cases ended
      exact ⟨rfl, permits _ _ _ changed⟩
  | error cause =>
      rw [changed] at ended
      cases ended
      exact ⟨rfl, Heap.permits_refl _⟩

theorem permits_binding (name : Token) (slot : Slot) :
    Permits True (change name.line fun heap frame => heap.bind frame name.lexeme slot) := by
  apply permits_change
  intro heap frame after changed
  obtain ⟨unbound, rfl⟩ := Heap.bind_puts heap after frame name.lexeme slot changed
  exact Heap.permits_bind heap frame name.lexeme slot unbound ⟨rfl, trivial⟩

theorem permits_define (name : Token) (value : Value) : Permits True (define name value) :=
  permits_binding name (.holds value)

theorem permits_declare (name : Token) : Permits True (declare name) := permits_binding name .unassigned

theorem permits_store (label : NodeId) (name : Token) (value : Value) : Permits declares (store label name value) := by
  intro machine
  unfold store
  cases machine.distances[label]? with
  | none =>
      apply permits_change name.line fun heap _ => heap.update globalFrame name.lexeme value
      intro heap _ after updated
      obtain ⟨home, bound, rfl⟩ := Heap.update_puts heap after globalFrame name.lexeme value updated
      exact Heap.permits_set heap home name.lexeme value bound
  | some distance =>
      apply permits_change name.line fun heap frame => heap.updateAt frame distance name.lexeme value
      intro heap frame after updated
      obtain ⟨home, bound, rfl⟩ := Heap.updateAt_puts heap after frame distance name.lexeme value updated
      exact Heap.permits_set heap home name.lexeme value bound

theorem permits_lookup (label : NodeId) (name : Token) : Permits declares (lookup label name) := by
  apply permits_unchanged
  intro machine after ended
  simp only [lookup] at ended
  cases found : machine.valueOf label name.lexeme <;> rw [found] at ended <;> cases ended <;> exact ⟨rfl, rfl⟩

theorem permits_lift (result : Except Fault α) : Permits declares (lift result) := by
  apply permits_unchanged
  intro machine after ended
  cases result <;> cases ended <;> exact ⟨rfl, rfl⟩

theorem permits_write (line : Int) (text : String) : Permits declares (write line text) := by
  apply permits_unchanged
  intro machine after ended
  simp only [write, Machine.emit] at ended
  generalize machine.sink.offer text.toUTF8 = offered at ended
  obtain ⟨refusal, sink⟩ := offered
  cases refusal <;> cases ended <;> exact ⟨rfl, rfl⟩

theorem permits_checkCall (line : Int) (callee : Value) (count : Nat) :
    Permits declares (checkCall line callee count) := by
  apply permits_unchanged
  intro machine after ended
  have checked := checkCall_checked line callee count machine
  generalize checkCall line callee count machine = outcome at checked ended
  cases checked <;> cases ended <;> exact ⟨rfl, rfl⟩

theorem permits_readClock : Permits declares readClock := by
  apply permits_unchanged
  intro machine after ended
  cases ended
  exact ⟨rfl, rfl⟩

theorem permits_newClosure (name : Token) (params : List Token) (body : List (Stmt NodeId)) :
    Permits declares (newClosure name params body) := by
  apply permits_unchanged
  intro machine after ended
  cases ended
  exact ⟨rfl, rfl⟩

theorem permits_bindParams (params : List Token) : ∀ arguments : List Value, Permits True (bindParams params arguments) := by
  induction params with
  | nil => exact fun _ => permits_pure ()
  | cons param params ih =>
      intro arguments
      cases arguments with
      | nil => exact permits_pure ()
      | cons argument arguments => exact permits_bind (permits_define param argument) fun _ => ih arguments

end steps

end Run

open Run

structure PermitsWithin (fuel : Nat) : Prop where
  eval : ∀ expr, (eval fuel expr).Permits False
  evalAll : ∀ exprs, (evalAll fuel exprs).Permits False
  invoke : ∀ callee arguments, (invoke fuel callee arguments).Permits False
  exec : ∀ stmt, (exec fuel stmt).Permits stmt.DeclaresHere
  execAll : ∀ stmts, (execAll fuel stmts).Permits True
  execLoop : ∀ condition body, (execLoop fuel condition body).Permits body.DeclaresHere

section

variable (fuel : Nat) (ih : PermitsWithin fuel)

include ih

theorem eval_permits (expr : Expr NodeId) : (eval (fuel + 1) expr).Permits False := by
  cases expr with
  | literal value => exact permits_pure _
  | group inner => exact ih.eval inner
  | unary operator operand => exact permits_bind (ih.eval operand) fun _ => permits_lift _
  | binary left operator right =>
      exact permits_bind (ih.eval left) fun _ => permits_bind (ih.eval right) fun _ => permits_lift _
  | logical left operator right =>
      exact permits_bind (ih.eval left) fun _ =>
        iteInduction (motive := Permits False) (fun _ => permits_pure _) fun _ => ih.eval right
  | ternary condition yes no =>
      exact permits_bind (ih.eval condition) fun _ =>
        iteInduction (motive := Permits False) (fun _ => ih.eval yes) fun _ => ih.eval no
  | comma first second => exact permits_bind (ih.eval first) fun _ => ih.eval second
  | var label name => exact permits_lookup label name
  | assign label name value =>
      refine permits_bind (ih.eval value) fun result => ?_
      exact permits_bind (permits_store label name result) fun _ => permits_pure result
  | call callee close arguments =>
      refine permits_bind (ih.eval callee) fun target => ?_
      refine permits_bind (ih.evalAll arguments) fun values => ?_
      exact permits_bind (permits_checkCall _ _ _) fun _ => permits_deeper (ih.invoke target values)

theorem evalAll_permits (exprs : List (Expr NodeId)) : (evalAll (fuel + 1) exprs).Permits False := by
  cases exprs with
  | nil => exact permits_pure []
  | cons first rest =>
      exact permits_bind (ih.eval first) fun _ => permits_bind (ih.evalAll rest) fun _ => permits_pure _

theorem invoke_permits (callee : Value) (arguments : List Value) :
    (invoke (fuel + 1) callee arguments).Permits False := by
  cases callee with
  | datum value => exact permits_pure _
  | clock => exact permits_readClock
  | closure closure =>
      have inside := permits_bind (permits_bindParams closure.params arguments) fun _ => ih.execAll closure.body
      have entered : Permits False (newFrame closure.home >>= fun frame => inFrame frame _) :=
        permits_inNew closure.home inside
      have ran := permits_bind entered fun ending => permits_pure ending.value
      exact ran

-- The frame of a block is new, so whatever its statements declare, the block declares nothing where it stands.
theorem exec_permits (stmt : Stmt NodeId) : (exec (fuel + 1) stmt).Permits stmt.DeclaresHere := by
  cases stmt with
  | ret keyword value =>
      cases value with
      | none => exact permits_pure _
      | some value => exact permits_bind (permits_mono False.elim (ih.eval value)) fun _ => permits_pure _
  | print keyword value =>
      refine permits_bind (permits_mono False.elim (ih.eval value)) fun _ => ?_
      exact permits_bind (permits_write _ _) fun _ => permits_pure _
  | expr value => exact permits_bind (permits_mono False.elim (ih.eval value)) fun _ => permits_pure _
  | var name value =>
      have declares : True → (Stmt.var name value).DeclaresHere := fun _ => .var name value
      cases value with
      | none => exact permits_bind (permits_mono declares (permits_declare name)) fun _ => permits_pure _
      | some value =>
          refine permits_bind (permits_mono False.elim (ih.eval value)) fun result => ?_
          exact permits_bind (permits_mono declares (permits_define name result)) fun _ => permits_pure _
  | block body => exact permits_inInner (ih.execAll body)
  | func name params body =>
      refine permits_bind (permits_newClosure name params body) fun closure => ?_
      refine permits_bind (permits_mono (fun _ => ?_) (permits_define name closure)) fun _ => permits_pure _
      exact .func name params body
  | branch condition yes no =>
      refine permits_bind (permits_mono False.elim (ih.eval condition)) fun test => ?_
      refine iteInduction (motive := Permits _) (fun _ => ?_) fun _ => ?_
      · exact permits_mono (.yes condition yes no) (ih.exec yes)
      · cases no with
        | none => exact permits_pure _
        | some no => exact permits_mono (.no condition yes no) (ih.exec no)
  | loop condition body => exact permits_mono (.loop condition body) (ih.execLoop condition body)

theorem execAll_permits (stmts : List (Stmt NodeId)) : (execAll (fuel + 1) stmts).Permits True := by
  cases stmts with
  | nil => exact permits_pure _
  | cons first rest =>
      refine permits_bind (permits_mono (fun _ => trivial) (ih.exec first)) fun ending => ?_
      cases ending with
      | normal => exact ih.execAll rest
      | returned value => exact permits_pure _

theorem execLoop_permits (condition : Expr NodeId) (body : Stmt NodeId) :
    (execLoop (fuel + 1) condition body).Permits body.DeclaresHere := by
  refine permits_bind (permits_mono False.elim (ih.eval condition)) fun test => ?_
  refine iteInduction (motive := Permits _) (fun _ => ?_) fun _ => permits_pure _
  refine permits_bind (ih.exec body) fun ending => ?_
  cases ending with
  | normal => exact ih.execLoop condition body
  | returned value => exact permits_pure _

end

theorem permits_within (fuel : Nat) : PermitsWithin fuel := by
  induction fuel with
  | zero =>
      constructor
      all_goals intros
      all_goals exact permits_outOfFuel
  | succ fuel ih =>
      exact ⟨eval_permits fuel ih, evalAll_permits fuel ih, invoke_permits fuel ih, exec_permits fuel ih,
        execAll_permits fuel ih, execLoop_permits fuel ih⟩

end Treewalk
