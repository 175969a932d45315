import Treewalk.Proofs.FrameChanges
import Treewalk.Proofs.HeldValues
import Treewalk.Proofs.Operators

/-!
Chains of frames. A frame is made inside one that is there already: the current frame, or the frame where a function was
declared. That the second one is there as well is what every run keeps up, for the functions in the frames and for those
on the way. So a frame is younger than the one around it, no chain comes back to where it started, and every chain ends
at the global variables.
-/

set_option autoImplicit false

namespace Treewalk

-- The frame where a function was declared is among the first so many frames.
def Value.MadeWithin (size : Nat) : Value → Prop
  | .closure function => function.home < size
  | .datum _ => True
  | .clock => True

theorem Value.madeWithin_mono {size more : Nat} (grown : size ≤ more) (value : Value) (made : value.MadeWithin size) :
    value.MadeWithin more := by
  cases value with
  | datum | clock => trivial
  | closure function => exact Nat.lt_of_lt_of_le made grown

def Ending.MadeWithin (size : Nat) (ending : Ending) : Prop := ending.value.MadeWithin size

structure Heap.Founded (heap : Heap) : Prop where
  rooted : globalFrame < heap.size
  root : heap.enclosing? globalFrame = none
  inside : ∀ frame, frame < heap.size → frame ≠ globalFrame → ∃ parent, heap.enclosing? frame = some parent ∧ parent < frame
  held : heap.Holds (Value.MadeWithin heap.size)

structure Machine.Founded (machine : Machine) : Prop where
  heap : machine.heap.Founded
  here : machine.frame < machine.heap.size

namespace Heap

theorem founded_push (heap : Heap) (founded : heap.Founded) (enclosing : FrameId) (made : enclosing < heap.size) :
    (heap.push (some enclosing)).Founded := by
  have size := size_push heap (some enclosing)
  constructor
  · exact Nat.lt_of_lt_of_le founded.rooted (size ▸ Nat.le_succ _)
  · rw [enclosing_push_older heap _ globalFrame founded.rooted]
    exact founded.root
  · intro frame below apart
    by_cases older : frame < heap.size
    · rw [enclosing_push_older heap _ frame older]
      exact founded.inside frame older apart
    · have fresh : frame = heap.size := by omega
      rw [fresh]
      exact ⟨enclosing, enclosing_push_fresh heap _, made⟩
  · intro frame name value inside
    have held := holds_push founded.held (some enclosing) frame name value inside
    exact value.madeWithin_mono (size ▸ Nat.le_succ _) held

theorem founded_put (heap : Heap) (founded : heap.Founded) (frame : FrameId) (name : String) (slot : Slot)
    (fits : ∀ value, slot = .holds value → value.MadeWithin heap.size) : (heap.put frame name slot).Founded := by
  have size := size_put heap frame name slot
  constructor
  · rw [size]
    exact founded.rooted
  · rw [enclosing_put]
    exact founded.root
  · intro other below apart
    rw [enclosing_put]
    exact founded.inside other (size ▸ below) apart
  · rw [size]
    exact holds_put founded.held frame name slot fits

theorem founded_start (limit : Nat) (sink : Sink) (clock : Clock) : (Machine.start limit sink clock).Founded := by
  have base : (Heap.empty.push none).Founded := by
    refine ⟨by decide, rfl, ?_, ?_⟩
    · intro frame below apart
      have first : (Heap.empty.push none).size = 1 := rfl
      exact absurd (Nat.lt_one_iff.mp (first ▸ below)) apart
    · apply holds_push
      intro frame name value inside
      simp [Heap.empty, Heap.slot?] at inside
  have started := founded_put _ base globalFrame "clock" (.holds .clock) fun _ same => Slot.holds.inj same ▸ trivial
  exact ⟨started, started.rooted⟩

section

variable {heap : Heap} (founded : heap.Founded)

include founded

theorem enclosing_older (frame parent : FrameId) (link : heap.enclosing? frame = some parent) : parent < frame := by
  by_cases root : frame = globalFrame
  · rw [root, founded.root] at link
    cases link
  · obtain ⟨other, found, older⟩ := founded.inside frame (enclosing_made heap frame parent link) root
    rw [found] at link
    cases link
    exact older

theorem ancestor_older (distance : Nat) : ∀ frame other, heap.ancestor? (distance + 1) frame = some other → other < frame := by
  induction distance with
  | zero =>
      intro frame other found
      obtain ⟨parent, link, here⟩ := Option.bind_eq_some_iff.mp found
      cases here
      exact enclosing_older founded frame _ link
  | succ distance ih =>
      intro frame other found
      obtain ⟨parent, link, further⟩ := Option.bind_eq_some_iff.mp found
      exact Nat.lt_trans (ih parent other further) (enclosing_older founded frame parent link)

-- Each step outwards leads to an older frame, so the steps come to the first one.
theorem ancestor_root (frame : FrameId) : frame < heap.size → ∃ distance, heap.ancestor? distance frame = some globalFrame := by
  induction frame using Nat.strongRecOn with
  | ind frame ih =>
      intro made
      by_cases root : frame = globalFrame
      · exact ⟨0, congrArg some root⟩
      · obtain ⟨parent, link, older⟩ := founded.inside frame made root
        obtain ⟨distance, reached⟩ := ih parent older (Nat.lt_trans older made)
        refine ⟨distance + 1, ?_⟩
        rw [ancestor?, link]
        exact reached

end

end Heap

-- A run from a founded machine leaves one with at least as many frames, and its value is made of them.
inductive Outcome.Founded {α : Type} (least : Nat) (good : Nat → α → Prop) : Outcome α → Prop where
  | done (value : α) (after : Machine) (founded : after.Founded) (grown : least ≤ after.heap.size)
      (fits : good after.heap.size value) : Founded least good (.done value after)
  | fault (fault : Fault) (after : Machine) (founded : after.Founded) (grown : least ≤ after.heap.size) :
      Founded least good (.fault fault after)
  | outOfFuel : Founded least good .outOfFuel

namespace Run

-- The run may count on so many frames.
def Founded {α : Type} (least : Nat) (good : Nat → α → Prop) (run : Run α) : Prop :=
  ∀ machine, machine.Founded → least ≤ machine.heap.size → (run machine).Founded machine.heap.size good

section rules

variable {α β : Type} {least : Nat} {good : Nat → α → Prop} {result : Nat → β → Prop}

theorem founded_pure {value : α} (fits : ∀ size, least ≤ size → good size value) : Founded least good (pure value) :=
  fun machine founded grown => .done value machine founded (Nat.le_refl _) (fits _ grown)

theorem founded_bind {first : Run α} {next : α → Run β} (start : first.Founded least good)
    (goOn : ∀ size value, least ≤ size → good size value → (next value).Founded size result) :
    Founded least result (first >>= next) := by
  intro machine founded enough
  have early := start machine founded enough
  change (Run.bind first next machine).Founded _ result
  simp only [Run.bind]
  generalize first machine = outcome at early
  cases early with
  | done value between founded grown fits =>
      have late := goOn _ value (Nat.le_trans enough grown) fits between founded (Nat.le_refl _)
      dsimp only
      generalize next value between = outcome at late
      cases late with
      | done last after founded further fits => exact .done last after founded (Nat.le_trans grown further) fits
      | fault fault after founded further => exact .fault fault after founded (Nat.le_trans grown further)
      | outOfFuel => exact .outOfFuel
  | fault fault after founded grown => exact .fault fault after founded grown
  | outOfFuel => exact .outOfFuel

theorem founded_ite {condition : Prop} [Decidable condition] {yes no : Run α} (ofYes : yes.Founded least good)
    (ofNo : no.Founded least good) : Founded least good (if condition then yes else no) :=
  iteInduction (motive := Founded least good) (fun _ => ofYes) fun _ => ofNo

theorem founded_inFrame (frame : FrameId) (made : frame < least) {body : Run α} (inside : body.Founded least good) :
    Founded least good (inFrame frame body) := by
  intro machine founded enough
  have ended := inside { machine with frame := frame } ⟨founded.heap, Nat.lt_of_lt_of_le made enough⟩ enough
  simp only [inFrame]
  generalize body { machine with frame := frame } = outcome at ended
  cases ended with
  | done value after leaves grown fits =>
      exact .done value _ ⟨leaves.heap, Nat.lt_of_lt_of_le founded.here grown⟩ grown fits
  | fault fault after leaves grown =>
      exact .fault fault _ ⟨leaves.heap, Nat.lt_of_lt_of_le founded.here grown⟩ grown
  | outOfFuel => exact .outOfFuel

theorem founded_deeper {body : Run α} (inside : body.Founded least good) : Founded least good (deeper body) := by
  intro machine founded enough
  have ended := inside { machine with depth := machine.depth + 1 } ⟨founded.heap, founded.here⟩ enough
  simp only [deeper]
  generalize body { machine with depth := machine.depth + 1 } = outcome at ended
  cases ended with
  | done value after leaves grown fits => exact .done value _ ⟨leaves.heap, leaves.here⟩ grown fits
  | fault fault after leaves grown => exact .fault fault _ ⟨leaves.heap, leaves.here⟩ grown
  | outOfFuel => exact .outOfFuel

end rules

-- The single steps of the machine.

section steps

variable {least : Nat}

theorem founded_change (line : Int) (action : Heap → FrameId → Except Cause Heap)
    (puts : ∀ heap frame after, action heap frame = .ok after → ∃ home name slot, after = heap.put home name slot ∧
      ∀ value, slot = .holds value → value.MadeWithin least) :
    (change line action).Founded least fun _ _ => True := by
  intro machine founded enough
  simp only [change]
  cases changed : action machine.heap machine.frame with
  | ok heap =>
      obtain ⟨home, name, slot, rfl, fits⟩ := puts _ _ _ changed
      have size := Heap.size_put machine.heap home name slot
      refine .done () _ ⟨?_, size ▸ founded.here⟩ (Nat.le_of_eq size.symm) trivial
      exact Heap.founded_put _ founded.heap home name slot fun value same =>
        value.madeWithin_mono enough (fits value same)
  | error cause => exact .fault _ machine founded (Nat.le_refl _)

theorem founded_define (name : Token) (value : Value) (made : value.MadeWithin least) :
    (define name value).Founded least fun _ _ => True := by
  apply founded_change
  intro heap frame after changed
  obtain ⟨-, puts⟩ := Heap.bind_puts heap after frame name.lexeme _ changed
  exact ⟨frame, name.lexeme, .holds value, puts, fun _ same => Slot.holds.inj same ▸ made⟩

theorem founded_declare (name : Token) : (declare name).Founded least fun _ _ => True := by
  apply founded_change
  intro heap frame after changed
  obtain ⟨-, puts⟩ := Heap.bind_puts heap after frame name.lexeme _ changed
  exact ⟨frame, name.lexeme, .unassigned, puts, fun _ same => Slot.noConfusion same⟩

theorem founded_store (label : NodeId) (name : Token) (value : Value) (made : value.MadeWithin least) :
    (store label name value).Founded least fun _ _ => True := by
  intro machine
  unfold store
  cases machine.distances[label]? with
  | none =>
      apply founded_change name.line fun heap _ => heap.update globalFrame name.lexeme value
      intro heap _ after updated
      obtain ⟨home, -, puts⟩ := Heap.update_puts heap after globalFrame name.lexeme value updated
      exact ⟨home, name.lexeme, .holds value, puts, fun _ same => Slot.holds.inj same ▸ made⟩
  | some distance =>
      apply founded_change name.line fun heap frame => heap.updateAt frame distance name.lexeme value
      intro heap frame after updated
      obtain ⟨home, -, puts⟩ := Heap.updateAt_puts heap after frame distance name.lexeme value updated
      exact ⟨home, name.lexeme, .holds value, puts, fun _ same => Slot.holds.inj same ▸ made⟩

theorem founded_lookup (label : NodeId) (name : Token) : (lookup label name).Founded least Value.MadeWithin := by
  intro machine founded enough
  have answered := valueOf_answers machine founded.heap.held label name.lexeme
  simp only [lookup]
  generalize machine.valueOf label name.lexeme = answer at answered
  cases answered with
  | ok value fits => exact .done value machine founded (Nat.le_refl _) fits
  | error cause about => exact .fault _ machine founded (Nat.le_refl _)

theorem founded_lift (operator : Token) (answer : Except Fault Value) (judged : Judged operator answer) :
    (lift answer).Founded least Value.MadeWithin := by
  intro machine founded enough
  cases judged with
  | answer datum => exact .done _ machine founded (Nat.le_refl _) trivial
  | refusal cause made => exact .fault _ machine founded (Nat.le_refl _)

theorem founded_write (line : Int) (text : String) : (write line text).Founded least fun _ _ => True := by
  intro machine founded enough
  simp only [write, Machine.emit]
  generalize machine.sink.offer text.toUTF8 = offered
  obtain ⟨refusal, sink⟩ := offered
  cases refusal with
  | none => exact .done () _ ⟨founded.heap, founded.here⟩ (Nat.le_refl _) trivial
  | some reason => exact .fault _ _ ⟨founded.heap, founded.here⟩ (Nat.le_refl _)

theorem founded_checkCall (line : Int) (callee : Value) (count : Nat) :
    (checkCall line callee count).Founded least fun _ _ => True := by
  intro machine founded enough
  have checked := checkCall_checked line callee count machine
  generalize checkCall line callee count machine = outcome at checked
  cases checked with
  | passed room => exact .done () machine founded (Nat.le_refl _) trivial
  | refused cause => exact .fault _ machine founded (Nat.le_refl _)

theorem founded_newFrame (enclosing : FrameId) (made : enclosing < least) :
    (newFrame enclosing).Founded least fun size frame => frame < size := by
  intro machine founded enough
  have size := Heap.size_push machine.heap (some enclosing)
  have more : machine.heap.size ≤ (machine.heap.push (some enclosing)).size := size ▸ Nat.le_succ _
  refine .done _ _ ⟨?_, Nat.lt_of_lt_of_le founded.here more⟩ more (size ▸ Nat.lt_succ_self _)
  exact Heap.founded_push _ founded.heap enclosing (Nat.lt_of_lt_of_le made enough)

theorem founded_newInner : newInner.Founded least fun size frame => frame < size :=
  fun machine founded _ => founded_newFrame machine.frame founded.here machine founded (Nat.le_refl _)

theorem founded_readClock : readClock.Founded least Value.MadeWithin :=
  fun _ founded _ => .done _ _ ⟨founded.heap, founded.here⟩ (Nat.le_refl _) trivial

theorem founded_newClosure (name : Token) (params : List Token) (body : List (Stmt NodeId)) :
    (newClosure name params body).Founded least Value.MadeWithin :=
  fun _ founded _ => .done _ _ ⟨founded.heap, founded.here⟩ (Nat.le_refl _) founded.here

theorem founded_bindParams (params : List Token) : ∀ (least : Nat) (arguments : List Value),
    (∀ argument ∈ arguments, argument.MadeWithin least) →
    (bindParams params arguments).Founded least fun _ _ => True := by
  induction params with
  | nil => exact fun _ _ _ => founded_pure fun _ _ => trivial
  | cons param params ih =>
      intro least arguments made
      cases arguments with
      | nil => exact founded_pure fun _ _ => trivial
      | cons argument arguments =>
          rw [List.forall_mem_cons] at made
          refine founded_bind (founded_define param argument made.1) fun size _ grown _ => ?_
          exact ih size arguments fun other inside => other.madeWithin_mono grown (made.2 other inside)

end steps

end Run

open Run

structure FoundedWithin (fuel : Nat) : Prop where
  eval : ∀ least expr, (eval fuel expr).Founded least Value.MadeWithin
  evalAll : ∀ least exprs, (evalAll fuel exprs).Founded least fun size values => ∀ value ∈ values, value.MadeWithin size
  invoke : ∀ least callee arguments, Value.MadeWithin least callee → (∀ argument ∈ arguments, Value.MadeWithin least argument) →
    (invoke fuel callee arguments).Founded least Value.MadeWithin
  exec : ∀ least stmt, (exec fuel stmt).Founded least Ending.MadeWithin
  execAll : ∀ least stmts, (execAll fuel stmts).Founded least Ending.MadeWithin
  execLoop : ∀ least condition body, (execLoop fuel condition body).Founded least Ending.MadeWithin

section

variable (fuel : Nat) (ih : FoundedWithin fuel)

include ih

theorem eval_founded (least : Nat) (expr : Expr NodeId) : (eval (fuel + 1) expr).Founded least Value.MadeWithin := by
  cases expr with
  | literal value => exact founded_pure fun _ _ => trivial
  | group inner => exact ih.eval least inner
  | unary operator operand =>
      exact founded_bind (ih.eval least operand) fun _ value _ _ => founded_lift operator _ (applyUnary_judged operator value)
  | binary left operator right =>
      refine founded_bind (ih.eval least left) fun size first _ _ => ?_
      refine founded_bind (ih.eval size right) fun _ second _ _ => ?_
      exact founded_lift operator _ (applyBinary_judged operator first second)
  | logical left operator right =>
      refine founded_bind (ih.eval least left) fun size first _ made => ?_
      exact founded_ite (founded_pure fun _ grown => first.madeWithin_mono grown made) (ih.eval size right)
  | ternary condition yes no =>
      refine founded_bind (ih.eval least condition) fun size _ _ _ => ?_
      exact founded_ite (ih.eval size yes) (ih.eval size no)
  | comma first second => exact founded_bind (ih.eval least first) fun size _ _ _ => ih.eval size second
  | var label name => exact founded_lookup label name
  | assign label name value =>
      refine founded_bind (ih.eval least value) fun size result _ made => ?_
      refine founded_bind (founded_store label name result made) fun _ _ grown _ => ?_
      exact founded_pure fun _ further => result.madeWithin_mono (Nat.le_trans grown further) made
  | call callee close arguments =>
      refine founded_bind (ih.eval least callee) fun size target _ ofTarget => ?_
      refine founded_bind (ih.evalAll size arguments) fun later values grown ofValues => ?_
      refine founded_bind (founded_checkCall _ _ _) fun last _ further _ => ?_
      apply founded_deeper
      apply ih.invoke
      · exact target.madeWithin_mono (Nat.le_trans grown further) ofTarget
      · exact fun value inside => value.madeWithin_mono further (ofValues value inside)

theorem evalAll_founded (least : Nat) (exprs : List (Expr NodeId)) :
    (evalAll (fuel + 1) exprs).Founded least fun size values => ∀ value ∈ values, value.MadeWithin size := by
  cases exprs with
  | nil => exact founded_pure fun _ _ => by simp
  | cons first rest =>
      refine founded_bind (ih.eval least first) fun size value _ made => ?_
      refine founded_bind (ih.evalAll size rest) fun later values grown ofValues => ?_
      apply founded_pure
      intro last further
      rw [List.forall_mem_cons]
      exact ⟨value.madeWithin_mono (Nat.le_trans grown further) made,
        fun other inside => other.madeWithin_mono further (ofValues other inside)⟩

theorem invoke_founded (least : Nat) (callee : Value) (arguments : List Value) (ofCallee : callee.MadeWithin least)
    (ofArguments : ∀ argument ∈ arguments, argument.MadeWithin least) :
    (invoke (fuel + 1) callee arguments).Founded least Value.MadeWithin := by
  cases callee with
  | datum value => exact founded_pure fun _ _ => trivial
  | clock => exact founded_readClock
  | closure closure =>
      refine founded_bind (founded_newFrame closure.home ofCallee) fun size frame grown made => ?_
      have ofArguments (argument : Value) (inside : argument ∈ arguments) : argument.MadeWithin size :=
        argument.madeWithin_mono grown (ofArguments argument inside)
      have inside := founded_bind (founded_bindParams closure.params size arguments ofArguments) fun later _ _ _ =>
        ih.execAll later closure.body
      refine founded_bind (founded_inFrame frame made inside) fun _ ending _ made => ?_
      exact founded_pure fun _ further => ending.value.madeWithin_mono further made

theorem exec_founded (least : Nat) (stmt : Stmt NodeId) : (exec (fuel + 1) stmt).Founded least Ending.MadeWithin := by
  cases stmt with
  | ret keyword value =>
      cases value with
      | none => exact founded_pure fun _ _ => trivial
      | some value =>
          refine founded_bind (ih.eval least value) fun _ result _ made => ?_
          exact founded_pure fun _ grown => result.madeWithin_mono grown made
  | print keyword value =>
      refine founded_bind (ih.eval least value) fun _ _ _ _ => ?_
      exact founded_bind (founded_write _ _) fun _ _ _ _ => founded_pure fun _ _ => trivial
  | expr value => exact founded_bind (ih.eval least value) fun _ _ _ _ => founded_pure fun _ _ => trivial
  | var name value =>
      cases value with
      | none => exact founded_bind (founded_declare name) fun _ _ _ _ => founded_pure fun _ _ => trivial
      | some value =>
          refine founded_bind (ih.eval least value) fun _ result _ made => ?_
          exact founded_bind (founded_define name result made) fun _ _ _ _ => founded_pure fun _ _ => trivial
  | block body =>
      exact founded_bind founded_newInner fun size frame _ made => founded_inFrame frame made (ih.execAll size body)
  | func name params body =>
      refine founded_bind (founded_newClosure name params body) fun _ closure _ made => ?_
      exact founded_bind (founded_define name closure made) fun _ _ _ _ => founded_pure fun _ _ => trivial
  | branch condition yes no =>
      refine founded_bind (ih.eval least condition) fun size _ _ _ => ?_
      apply founded_ite
      · exact ih.exec size yes
      · cases no with
        | none => exact founded_pure fun _ _ => trivial
        | some no => exact ih.exec size no
  | loop condition body => exact ih.execLoop least condition body

theorem execAll_founded (least : Nat) (stmts : List (Stmt NodeId)) :
    (execAll (fuel + 1) stmts).Founded least Ending.MadeWithin := by
  cases stmts with
  | nil => exact founded_pure fun _ _ => trivial
  | cons first rest =>
      refine founded_bind (ih.exec least first) fun size ending _ made => ?_
      cases ending with
      | normal => exact ih.execAll size rest
      | returned value => exact founded_pure fun _ grown => value.madeWithin_mono grown made

theorem execLoop_founded (least : Nat) (condition : Expr NodeId) (body : Stmt NodeId) :
    (execLoop (fuel + 1) condition body).Founded least Ending.MadeWithin := by
  refine founded_bind (ih.eval least condition) fun size _ _ _ => ?_
  apply founded_ite
  · refine founded_bind (ih.exec size body) fun later ending _ made => ?_
    cases ending with
    | normal => exact ih.execLoop later condition body
    | returned value => exact founded_pure fun _ grown => value.madeWithin_mono grown made
  · exact founded_pure fun _ _ => trivial

end

theorem founded_within (fuel : Nat) : FoundedWithin fuel := by
  induction fuel with
  | zero =>
      constructor
      all_goals intros
      all_goals exact fun _ _ _ => .outOfFuel
  | succ fuel ih =>
      exact ⟨eval_founded fuel ih, evalAll_founded fuel ih, invoke_founded fuel ih, exec_founded fuel ih,
        execAll_founded fuel ih, execLoop_founded fuel ih⟩

-- The states that a machine comes to. It runs statements and expressions, whatever they are and however they end. In
-- between a frame may be made inside one that is there, any of them may be the current one, and all else that a machine
-- knows may change: the distances, the bound on calls, the sink and the clock.
inductive Machine.Arises : Machine → Prop where
  | start (limit : Nat) (sink : Sink) (clock : Clock) : Arises (Machine.start limit sink clock)
  | exec (machine after : Machine) (fuel : Nat) (stmt : Stmt NodeId) (earlier : Arises machine)
      (ended : (exec fuel stmt machine).machine? = some after) : Arises after
  | eval (machine after : Machine) (fuel : Nat) (expr : Expr NodeId) (earlier : Arises machine)
      (ended : (eval fuel expr machine).machine? = some after) : Arises after
  | opened (machine : Machine) (enclosing : FrameId) (earlier : Arises machine) (made : enclosing < machine.heap.size) :
      Arises { machine with heap := machine.heap.push (some enclosing) }
  | entered (machine : Machine) (frame : FrameId) (earlier : Arises machine) (made : frame < machine.heap.size) :
      Arises { machine with frame := frame }
  | altered (machine after : Machine) (earlier : Arises machine) (heap : after.heap = machine.heap)
      (frame : after.frame = machine.frame) : Arises after

theorem outcome_founded {α : Type} {least : Nat} {good : Nat → α → Prop} (outcome : Outcome α)
    (founded : outcome.Founded least good) (after : Machine) (ended : outcome.machine? = some after) : after.Founded := by
  cases founded with
  | done value last leaves | fault fault last leaves =>
      cases ended
      exact leaves
  | outOfFuel => cases ended

theorem arises_founded (machine : Machine) (arises : machine.Arises) : machine.Founded := by
  induction arises with
  | start limit sink clock => exact Heap.founded_start limit sink clock
  | exec machine after fuel stmt _ ended founded =>
      exact outcome_founded _ ((founded_within fuel).exec 0 stmt machine founded (Nat.zero_le _)) after ended
  | eval machine after fuel expr _ ended founded =>
      exact outcome_founded _ ((founded_within fuel).eval 0 expr machine founded (Nat.zero_le _)) after ended
  | opened machine enclosing _ made founded =>
      have opens := founded_newFrame enclosing made machine founded (Nat.le_refl _)
      exact outcome_founded _ opens _ rfl
  | entered machine frame _ made founded => exact ⟨founded.heap, made⟩
  | altered machine after _ heap frame founded =>
      constructor
      · rw [heap]
        exact founded.heap
      · rw [heap, frame]
        exact founded.here

-- What a run may do to the frames. An expression adds no name to a frame that was there, a statement adds names to the
-- current frame alone and only if it declares there, and no frame is ever closed into a circle.
theorem runs_only_extend_frames :
    (∀ (fuel : Nat) (expr : Expr NodeId) (machine after : Machine), (eval fuel expr machine).machine? = some after →
      Heap.Permits (fun _ => False) machine.heap after.heap) ∧
    (∀ (fuel : Nat) (stmt : Stmt NodeId) (machine after : Machine), (exec fuel stmt machine).machine? = some after →
      Heap.Permits (fun frame => frame = machine.frame ∧ stmt.DeclaresHere) machine.heap after.heap) ∧
    ∀ machine : Machine, machine.Arises →
      (∀ frame parent, machine.heap.enclosing? frame = some parent → parent < frame) ∧
      (∀ frame distance, 0 < distance → machine.heap.ancestor? distance frame ≠ some frame) ∧
      machine.heap.enclosing? globalFrame = none ∧
      ∀ frame, frame < machine.heap.size → ∃ distance, machine.heap.ancestor? distance frame = some globalFrame := by
  refine ⟨?_, ?_, ?_⟩
  · intro fuel expr machine after ended
    exact Heap.permits_mono (fun _ => And.right) ((permits_within fuel).eval expr machine after ended).2
  · intro fuel stmt machine after ended
    exact ((permits_within fuel).exec stmt machine after ended).2
  · intro machine arises
    have founded := (arises_founded machine arises).heap
    refine ⟨Heap.enclosing_older founded, ?_, founded.root, Heap.ancestor_root founded⟩
    intro frame distance further found
    obtain ⟨steps, rfl⟩ := Nat.exists_eq_succ_of_ne_zero (Nat.ne_of_gt further)
    exact Nat.lt_irrefl frame (Heap.ancestor_older founded steps frame frame found)

-- `{ var kept = true ? nil : nil; { fun kept() {} } }`

def keptName : Token := ⟨.identifier, "kept", none, 1⟩

def choosing : Expr NodeId := .ternary (.literal (.boolean true)) (.literal .nil) (.literal .nil)

def keeping : Stmt NodeId := .block [.var keptName (some choosing), .block [.func keptName [] []]]

theorem keeping_extends_frames :
    let machine := Machine.start 1 (Sink.empty none) (Clock.ticking 0)
    (∃ after, (eval 2 choosing machine).machine? = some after ∧
      Heap.Permits (fun _ => False) machine.heap after.heap) ∧
    ∃ after, (exec 6 keeping machine).machine? = some after ∧ after.heap.binds 1 "kept" = true ∧
      after.heap.binds globalFrame "kept" = false ∧
      Heap.Permits (fun frame => frame = machine.frame ∧ keeping.DeclaresHere) machine.heap after.heap ∧
      after.Arises ∧ after.heap.enclosing? 2 = some 1 ∧ ∃ distance, after.heap.ancestor? distance 2 = some globalFrame := by
  intro machine
  obtain ⟨ofExpr, ofStmt, chains⟩ := runs_only_extend_frames
  have ran : ((exec 6 keeping machine).machine?.map fun after => (after.heap.binds 1 "kept",
      after.heap.binds globalFrame "kept", after.heap.size, after.heap.enclosing? 2)) = some (true, false, 3, some 1) := by
    decide +kernel
  obtain ⟨after, ended, found⟩ := Option.map_eq_some_iff.mp ran
  simp only [Prod.mk.injEq] at found
  obtain ⟨inner, outer, size, link⟩ := found
  have arises : after.Arises := .exec machine after 6 keeping (.start 1 _ _) ended
  refine ⟨⟨_, rfl, ofExpr 2 choosing machine _ rfl⟩, after, ended, inner, outer, ofStmt 6 keeping machine after ended, ?_⟩
  exact ⟨arises, link, (chains after arises).2.2.2 2 (size ▸ by decide)⟩

end Treewalk
