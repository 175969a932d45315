import Treewalk.Machine.Eval
import Treewalk.Proofs.PairedCode

/-!
Two runs of paired code. From machines with paired frames both end alike: with paired values, with the same fault at
paired tokens, or out of fuel. The frames are paired again, and what was written and read from the clock is the same.
-/

set_option autoImplicit false

namespace Treewalk.Paired

variable {pairing : Pairing}

-- Paired frames are searched alike.

section heaps

variable {heap heap' : Heap} (same : SameHeap pairing heap heap')

include same

theorem binds_same (frame : FrameId) (name : String) : heap.binds frame name = heap'.binds frame name := by
  have slots := same.slots frame name
  unfold Heap.binds
  generalize heap.slot? frame name = slot at slots ⊢
  generalize heap'.slot? frame name = slot' at slots ⊢
  cases slots <;> rfl

theorem ancestor_same (distance : Nat) : ∀ frame : FrameId,
    heap.ancestor? distance frame = heap'.ancestor? distance frame := by
  induction distance with
  | zero => exact fun _ => rfl
  | succ distance ih =>
      intro frame
      simp only [Heap.ancestor?, same.enclosing frame]
      cases heap'.enclosing? frame with
      | none => rfl
      | some parent => exact ih parent

theorem chainWithin_same (count : Nat) : ∀ frame : FrameId,
    heap.chainWithin count frame = heap'.chainWithin count frame := by
  induction count with
  | zero => exact fun _ => rfl
  | succ count ih =>
      intro frame
      simp only [Heap.chainWithin, same.enclosing frame]
      cases heap'.enclosing? frame with
      | none => rfl
      | some parent => exact congrArg (frame :: ·) (ih parent)

theorem home_same (frame : FrameId) (name : String) : heap.home? frame name = heap'.home? frame name := by
  simp only [Heap.home?, Heap.chain, chainWithin_same same, binds_same same]

theorem sameHeap_put (frame : FrameId) (name : String) (slot slot' : Slot)
    (slots : SameSlot pairing (some slot) (some slot')) :
    SameHeap pairing (heap.put frame name slot) (heap'.put frame name slot') := by
  refine ⟨?_, fun other => ?_, fun other query => ?_⟩
  · rw [Heap.size_put, Heap.size_put]
    exact same.size
  · rw [Heap.enclosing_put, Heap.enclosing_put]
    exact same.enclosing other
  · by_cases target : other = frame ∧ query = name
    · obtain ⟨rfl, rfl⟩ := target
      by_cases made : other < heap.size
      · rw [Heap.slot_put_here heap other query slot made,
          Heap.slot_put_here heap' other query slot' (same.size ▸ made)]
        exact slots
      · rw [Heap.slot_unmade, Heap.slot_unmade]
        · exact .missing
        · rw [Heap.size_put, ← same.size]
          exact made
        · rw [Heap.size_put]
          exact made
    · have different : other ≠ frame ∨ query ≠ name := by
        by_cases frames : other = frame
        · exact .inr fun names => target ⟨frames, names⟩
        · exact .inl frames
      rw [Heap.slot_put_elsewhere _ _ _ _ _ _ different, Heap.slot_put_elsewhere _ _ _ _ _ _ different]
      exact same.slots other query

theorem sameHeap_push (enclosing : Option FrameId) : SameHeap pairing (heap.push enclosing) (heap'.push enclosing) := by
  refine ⟨?_, fun frame => ?_, fun frame name => ?_⟩
  · rw [Heap.size_push, Heap.size_push, same.size]
  · by_cases older : frame < heap.size
    · rw [Heap.enclosing_push_older heap enclosing frame older,
        Heap.enclosing_push_older heap' enclosing frame (same.size ▸ older)]
      exact same.enclosing frame
    · by_cases fresh : frame = heap.size
      · rw [fresh, Heap.enclosing_push_fresh, same.size, Heap.enclosing_push_fresh]
      · have beyond : ¬ frame < heap.size + 1 := fun below => fresh (Nat.eq_of_lt_succ_of_not_lt below older)
        rw [Heap.enclosing_unmade, Heap.enclosing_unmade]
        · rw [Heap.size_push, ← same.size]
          exact beyond
        · rw [Heap.size_push]
          exact beyond
  · rw [Heap.slot_push, Heap.slot_push]
    exact same.slots frame name

end heaps

-- The same answer or the same error.
inductive SameAnswer {ε α β : Type} (related : α → β → Prop) : Except ε α → Except ε β → Prop where
  | ok (value : α) (mirror : β) (holds : related value mirror) : SameAnswer related (.ok value) (.ok mirror)
  | error (cause : ε) : SameAnswer related (.error cause) (.error cause)

section answers

variable {heap heap' : Heap} (same : SameHeap pairing heap heap')

include same

theorem read_same (frame : FrameId) (name : String) :
    SameAnswer (Same pairing) (heap.read frame name) (heap'.read frame name) := by
  have slots := same.slots frame name
  unfold Heap.read
  generalize heap.slot? frame name = slot at slots ⊢
  generalize heap'.slot? frame name = slot' at slots ⊢
  cases slots with
  | missing => exact .error _
  | unassigned => exact .error _
  | holds value value' paired => exact .ok value value' paired

theorem lookup_same (frame : FrameId) (name : String) :
    SameAnswer (Same pairing) (heap.lookup frame name) (heap'.lookup frame name) := by
  unfold Heap.lookup
  rw [home_same same]
  cases heap'.home? frame name with
  | none => exact .error _
  | some home => exact read_same same home name

theorem lookupAt_same (frame : FrameId) (distance : Nat) (name : String) :
    SameAnswer (Same pairing) (heap.lookupAt frame distance name) (heap'.lookupAt frame distance name) := by
  unfold Heap.lookupAt
  rw [ancestor_same same]
  cases heap'.ancestor? distance frame with
  | none => exact .error _
  | some home => exact read_same same home name

theorem bind_same (frame : FrameId) (name : String) (slot slot' : Slot)
    (slots : SameSlot pairing (some slot) (some slot')) :
    SameAnswer (SameHeap pairing) (heap.bind frame name slot) (heap'.bind frame name slot') := by
  unfold Heap.bind
  rw [binds_same same]
  split
  · exact .error _
  · exact .ok _ _ (sameHeap_put same frame name slot slot' slots)

theorem update_same (frame : FrameId) (name : String) (value value' : Value) (values : Same pairing value value') :
    SameAnswer (SameHeap pairing) (heap.update frame name value) (heap'.update frame name value') := by
  unfold Heap.update
  rw [home_same same]
  cases heap'.home? frame name with
  | none => exact .error _
  | some home => exact .ok _ _ (sameHeap_put same home name _ _ (.holds value value' values))

theorem updateAt_same (frame : FrameId) (distance : Nat) (name : String) (value value' : Value)
    (values : Same pairing value value') :
    SameAnswer (SameHeap pairing) (heap.updateAt frame distance name value)
      (heap'.updateAt frame distance name value') := by
  unfold Heap.updateAt
  rw [ancestor_same same]
  cases heap'.ancestor? distance frame with
  | none => exact .error _
  | some home =>
      simp only [binds_same same]
      split
      · exact .ok _ _ (sameHeap_put same home name _ _ (.holds value value' values))
      · exact .error _

end answers

-- Two machines in the middle of their runs. What they know about uses of names is what it was at the start.
structure Matched (pairing : Pairing) (left right machine mirror : Machine) : Prop where
  heap : SameHeap pairing machine.heap mirror.heap
  frame : machine.frame = mirror.frame
  depth : machine.depth = mirror.depth
  limit : machine.limit = mirror.limit
  closures : machine.closures = mirror.closures
  sink : machine.sink = mirror.sink
  clock : machine.clock = mirror.clock
  distances : machine.distances = left.distances
  labels : machine.labels = left.labels
  mirrorDistances : mirror.distances = right.distances
  mirrorLabels : mirror.labels = right.labels

-- Machines that know the same about uses differ in nothing but their frames.
theorem matched_machine {ready machine mirror : Machine} (matched : Matched pairing ready ready machine mirror) :
    machine = { mirror with heap := machine.heap } := by
  have distances := matched.distances.trans matched.mirrorDistances.symm
  have labels := matched.labels.trans matched.mirrorLabels.symm
  obtain ⟨heap, frame, depth, limit, knownDistances, next, closures, sink, clock⟩ := machine
  rw [Machine.mk.injEq]
  exact ⟨rfl, matched.frame, matched.depth, matched.limit, distances, labels, matched.closures, matched.sink,
    matched.clock⟩

inductive Similar {α β : Type} (pairing : Pairing) (left right : Machine) (related : α → β → Prop) :
    Outcome α → Outcome β → Prop where
  | done (value : α) (value' : β) (machine mirror : Machine) (matched : Matched pairing left right machine mirror)
      (holds : related value value') : Similar pairing left right related (.done value machine) (.done value' mirror)
  | fault (cause : Cause) (token token' : Token) (machine mirror : Machine) (paired : pairing.tokens token token')
      (matched : Matched pairing left right machine mirror) :
      Similar pairing left right related (.fault ⟨cause, token.line⟩ machine) (.fault ⟨cause, token'.line⟩ mirror)
  | outOfFuel : Similar pairing left right related .outOfFuel .outOfFuel

section steps

variable {α β γ δ : Type} {left right machine mirror : Machine} {related : α → β → Prop}

theorem similar_pure (matched : Matched pairing left right machine mirror) (value : α) (value' : β)
    (holds : related value value') :
    Similar pairing left right related ((pure value : Run α) machine) ((pure value' : Run β) mirror) :=
  .done value value' machine mirror matched holds

theorem similar_bind (result : γ → δ → Prop) (first : Run α) (first' : Run β) (next : α → Run γ) (next' : β → Run δ)
    (start : Similar pairing left right related (first machine) (first' mirror))
    (goOn : ∀ value value' after after', Matched pairing left right after after' → related value value' →
      Similar pairing left right result (next value after) (next' value' after')) :
    Similar pairing left right result ((first >>= next) machine) ((first' >>= next') mirror) := by
  change Similar pairing left right result (Run.bind first next machine) (Run.bind first' next' mirror)
  unfold Run.bind
  generalize first machine = outcome at start
  generalize first' mirror = outcome' at start
  cases start with
  | done value value' after after' matched holds => exact goOn value value' after after' matched holds
  | fault cause token token' after after' paired matched => exact .fault cause token token' after after' paired matched
  | outOfFuel => exact .outOfFuel

-- Both machines go back to the frame they left, which is the same one, and to the same depth.
theorem similar_inFrame (matched : Matched pairing left right machine mirror) (frame : FrameId) (body : Run α)
    (body' : Run β)
    (inside : ∀ inner inner', Matched pairing left right inner inner' →
      Similar pairing left right related (body inner) (body' inner')) :
    Similar pairing left right related (Run.inFrame frame body machine) (Run.inFrame frame body' mirror) := by
  have ran := inside { machine with frame := frame } { mirror with frame := frame } { matched with frame := rfl }
  unfold Run.inFrame
  dsimp only
  generalize body _ = outcome at ran ⊢
  generalize body' _ = outcome' at ran ⊢
  cases ran with
  | done value value' after after' reached holds =>
      exact .done value value' _ _ { reached with frame := matched.frame } holds
  | fault cause token token' after after' paired reached =>
      exact .fault cause token token' _ _ paired { reached with frame := matched.frame }
  | outOfFuel => exact .outOfFuel

theorem similar_deeper (matched : Matched pairing left right machine mirror) (body : Run α) (body' : Run β)
    (inside : ∀ inner inner', Matched pairing left right inner inner' →
      Similar pairing left right related (body inner) (body' inner')) :
    Similar pairing left right related (Run.deeper body machine) (Run.deeper body' mirror) := by
  have ran := inside { machine with depth := machine.depth + 1 } { mirror with depth := mirror.depth + 1 }
    { matched with depth := congrArg (· + 1) matched.depth }
  unfold Run.deeper
  generalize body _ = outcome at ran ⊢
  generalize body' _ = outcome' at ran ⊢
  cases ran with
  | done value value' after after' reached holds =>
      exact .done value value' _ _ { reached with depth := congrArg (· - 1) reached.depth } holds
  | fault cause token token' after after' paired reached =>
      exact .fault cause token token' _ _ paired { reached with depth := congrArg (· - 1) reached.depth }
  | outOfFuel => exact .outOfFuel

variable (matched : Matched pairing left right machine mirror)

include matched

-- An operator answers both with the same datum, or with the same complaint on its own line.
theorem similar_answer (operator operator' : Token) (paired : pairing.tokens operator operator')
    (result result' : Except Fault Value) (answer : Except Cause Datum) (first : result = answerOn operator.line answer)
    (second : result' = answerOn operator'.line answer) :
    Similar pairing left right (Same pairing) (Run.lift result machine) (Run.lift result' mirror) := by
  subst first second
  cases answer with
  | ok datum => exact .done _ _ machine mirror matched (.datum datum)
  | error cause => exact .fault cause operator operator' machine mirror paired matched

theorem similar_change (token token' : Token) (paired : pairing.tokens token token')
    (action action' : Heap → FrameId → Except Cause Heap)
    (changes : SameAnswer (SameHeap pairing) (action machine.heap machine.frame) (action' mirror.heap mirror.frame)) :
    Similar pairing left right (fun _ _ => True) (Run.change token.line action machine)
      (Run.change token'.line action' mirror) := by
  unfold Run.change
  generalize action machine.heap machine.frame = answer at changes ⊢
  generalize action' mirror.heap mirror.frame = answer' at changes ⊢
  cases changes with
  | ok heap heap' same => exact .done () () _ _ { matched with heap := same } trivial
  | error cause => exact .fault cause token token' machine mirror paired matched

theorem similar_newFrame (enclosing : FrameId) :
    Similar pairing left right Eq (Run.newFrame enclosing machine) (Run.newFrame enclosing mirror) :=
  .done _ _ _ _ { matched with heap := sameHeap_push matched.heap (some enclosing) } matched.heap.size

theorem similar_newInner : Similar pairing left right Eq (Run.newInner machine) (Run.newInner mirror) := by
  unfold Run.newInner
  rw [matched.frame]
  exact similar_newFrame matched mirror.frame

theorem similar_write (token token' : Token) (paired : pairing.tokens token token') (text : String) :
    Similar pairing left right (fun _ _ => True) (Run.write token.line text machine)
      (Run.write token'.line text mirror) := by
  unfold Run.write Machine.emit
  rw [matched.sink]
  cases mirror.sink.offer text.toUTF8 with
  | mk refusal sink =>
      cases refusal with
      | none => exact .done () () _ _ { matched with sink := rfl } trivial
      | some reason => exact .fault _ token token' _ _ paired { matched with sink := rfl }

theorem similar_readClock : Similar pairing left right (Same pairing) (Run.readClock machine) (Run.readClock mirror) := by
  unfold Run.readClock
  rw [matched.clock]
  exact .done _ _ _ _ { matched with clock := rfl } (.datum _)

theorem similar_newClosure (name name' : Token) (params params' : List Token) (body body' : List (Stmt NodeId))
    (names : pairing.tokens name name') (parameters : List.Forall₂ pairing.tokens params params')
    (bodies : StmtPairAll pairing body body') :
    Similar pairing left right (Same pairing) (Run.newClosure name params body machine)
      (Run.newClosure name' params' body' mirror) := by
  unfold Run.newClosure
  rw [matched.closures, matched.frame]
  exact .done _ _ _ _ { matched with frame := rfl, closures := rfl } (.closure _ _ _ _ _ _ _ _ names parameters bodies)

theorem similar_define (name name' : Token) (paired : pairing.tokens name name') (value value' : Value)
    (values : Same pairing value value') :
    Similar pairing left right (fun _ _ => True) (Run.define name value machine) (Run.define name' value' mirror) := by
  refine similar_change matched name name' paired _ _ ?_
  rw [matched.frame, pairing.lexemes name name' paired]
  exact bind_same matched.heap mirror.frame name'.lexeme _ _ (.holds value value' values)

theorem similar_declare (name name' : Token) (paired : pairing.tokens name name') :
    Similar pairing left right (fun _ _ => True) (Run.declare name machine) (Run.declare name' mirror) := by
  refine similar_change matched name name' paired _ _ ?_
  rw [matched.frame, pairing.lexemes name name' paired]
  exact bind_same matched.heap mirror.frame name'.lexeme _ _ .unassigned

-- Both machines know the same distance for the use.
theorem similar_lookup (label label' : NodeId) (name name' : Token) (paired : pairing.tokens name name')
    (agree : left.distances[label]? = right.distances[label']?) :
    Similar pairing left right (Same pairing) (Run.lookup label name machine) (Run.lookup label' name' mirror) := by
  have answers : SameAnswer (Same pairing) (machine.valueOf label name.lexeme) (mirror.valueOf label' name'.lexeme) := by
    unfold Machine.valueOf
    rw [matched.distances, matched.mirrorDistances, agree, pairing.lexemes name name' paired, matched.frame]
    cases right.distances[label']? with
    | none => exact lookup_same matched.heap globalFrame name'.lexeme
    | some distance => exact lookupAt_same matched.heap mirror.frame distance name'.lexeme
  unfold Run.lookup
  generalize machine.valueOf label name.lexeme = answer at answers ⊢
  generalize mirror.valueOf label' name'.lexeme = answer' at answers ⊢
  cases answers with
  | ok value value' same => exact .done value value' machine mirror matched same
  | error cause => exact .fault cause name name' machine mirror paired matched

theorem similar_store (label label' : NodeId) (name name' : Token) (paired : pairing.tokens name name')
    (agree : left.distances[label]? = right.distances[label']?) (value value' : Value)
    (values : Same pairing value value') :
    Similar pairing left right (fun _ _ => True) (Run.store label name value machine)
      (Run.store label' name' value' mirror) := by
  unfold Run.store
  rw [matched.distances, matched.mirrorDistances, agree, pairing.lexemes name name' paired]
  cases right.distances[label']? with
  | none =>
      refine similar_change matched name name' paired _ _ ?_
      exact update_same matched.heap globalFrame name'.lexeme value value' values
  | some distance =>
      refine similar_change matched name name' paired _ _ ?_
      rw [matched.frame]
      exact updateAt_same matched.heap mirror.frame distance name'.lexeme value value' values

theorem similar_checkCall (close close' : Token) (paired : pairing.tokens close close') (callee callee' : Value)
    (callees : Same pairing callee callee') (count : Nat) :
    Similar pairing left right (fun _ _ => True) (checkCall close.line callee count machine)
      (checkCall close'.line callee' count mirror) := by
  unfold checkCall
  rw [Value.alike_arity callee callee' (same_alike callees), matched.limit, matched.depth]
  cases callee'.arity? with
  | none => exact .fault _ close close' machine mirror paired matched
  | some arity =>
      dsimp only
      split
      · exact .fault _ close close' machine mirror paired matched
      · split
        · exact .fault _ close close' machine mirror paired matched
        · exact .done () () machine mirror matched trivial

omit matched in
theorem similar_bindParams (params params' : List Token) (parameters : List.Forall₂ pairing.tokens params params') :
    ∀ (machine mirror : Machine) (arguments arguments' : List Value), Matched pairing left right machine mirror →
    List.Forall₂ (Same pairing) arguments arguments' →
    Similar pairing left right (fun _ _ => True) (bindParams params arguments machine)
      (bindParams params' arguments' mirror) := by
  induction parameters with
  | nil =>
      intro machine mirror arguments arguments' matched given
      exact similar_pure matched () () trivial
  | cons paired _ ih =>
      intro machine mirror arguments arguments' matched given
      cases given with
      | nil => exact similar_pure matched () () trivial
      | cons same others =>
          refine similar_bind _ _ _ _ _ (similar_define matched _ _ paired _ _ same) ?_
          intro _ _ after after' reached _
          exact ih after after' _ _ reached others

end steps

-- Endings of statements.
inductive SameEnding (pairing : Pairing) : Ending → Ending → Prop where
  | normal : SameEnding pairing .normal .normal
  | returned (value value' : Value) (same : Same pairing value value') :
      SameEnding pairing (.returned value) (.returned value')

theorem sameEnding_value (ending ending' : Ending) (same : SameEnding pairing ending ending') :
    Same pairing ending.value ending'.value := by
  cases same with
  | normal => exact .datum .nil
  | returned value value' same => exact same

-- What holds of all runs with some fuel, for each kind of thing that runs.
structure SimilarWithin (pairing : Pairing) (left right : Machine) (fuel : Nat) : Prop where
  eval : ∀ (expr expr' : Expr NodeId) (machine mirror : Machine), ExprPair pairing expr expr' →
    Matched pairing left right machine mirror →
    Similar pairing left right (Same pairing) (eval fuel expr machine) (eval fuel expr' mirror)
  evalAll : ∀ (exprs exprs' : List (Expr NodeId)) (machine mirror : Machine), ExprPairAll pairing exprs exprs' →
    Matched pairing left right machine mirror →
    Similar pairing left right (List.Forall₂ (Same pairing)) (evalAll fuel exprs machine) (evalAll fuel exprs' mirror)
  invoke : ∀ (callee callee' : Value) (arguments arguments' : List Value) (machine mirror : Machine),
    Same pairing callee callee' → List.Forall₂ (Same pairing) arguments arguments' →
    Matched pairing left right machine mirror →
    Similar pairing left right (Same pairing) (invoke fuel callee arguments machine)
      (invoke fuel callee' arguments' mirror)
  exec : ∀ (stmt stmt' : Stmt NodeId) (machine mirror : Machine), StmtPair pairing stmt stmt' →
    Matched pairing left right machine mirror →
    Similar pairing left right (SameEnding pairing) (exec fuel stmt machine) (exec fuel stmt' mirror)
  execAll : ∀ (stmts stmts' : List (Stmt NodeId)) (machine mirror : Machine), StmtPairAll pairing stmts stmts' →
    Matched pairing left right machine mirror →
    Similar pairing left right (SameEnding pairing) (execAll fuel stmts machine) (execAll fuel stmts' mirror)
  execLoop : ∀ (condition condition' : Expr NodeId) (body body' : Stmt NodeId) (machine mirror : Machine),
    ExprPair pairing condition condition' → StmtPair pairing body body' →
    Matched pairing left right machine mirror →
    Similar pairing left right (SameEnding pairing) (execLoop fuel condition body machine)
      (execLoop fuel condition' body' mirror)

section within

variable {left right : Machine}
  (agree : ∀ label label', pairing.labels label label' → left.distances[label]? = right.distances[label']?)

include agree in
theorem eval_similar (fuel : Nat) (earlier : SimilarWithin pairing left right fuel) (expr expr' : Expr NodeId)
    (machine mirror : Machine) (exprs : ExprPair pairing expr expr') (matched : Matched pairing left right machine mirror) :
    Similar pairing left right (Same pairing) (eval (fuel + 1) expr machine) (eval (fuel + 1) expr' mirror) := by
  cases exprs with
  | literal value => exact similar_pure matched _ _ (.datum value)
  | group inner inner' whole => exact earlier.eval inner inner' machine mirror whole matched
  | unary operator operator' operand operand' operators operands =>
      simp only [eval]
      refine similar_bind _ _ _ _ _ (earlier.eval operand operand' machine mirror operands matched) ?_
      intro value value' after after' reached same
      obtain ⟨answer, first, second⟩ := alike_applyUnary operator operator' value value'
        (pairing.kinds _ _ operators) (pairing.lexemes _ _ operators) (same_alike same)
      exact similar_answer reached operator operator' operators _ _ answer first second
  | binary operator operator' first first' second second' operators firsts seconds =>
      simp only [eval]
      refine similar_bind _ _ _ _ _ (earlier.eval first first' machine mirror firsts matched) ?_
      intro value value' between between' halfway same
      refine similar_bind _ _ _ _ _ (earlier.eval second second' between between' seconds halfway) ?_
      intro other other' after after' reached sameOther
      obtain ⟨answer, one, two⟩ := alike_applyBinary operator operator' value other value' other'
        (pairing.kinds _ _ operators) (pairing.lexemes _ _ operators) (same_alike same) (same_alike sameOther)
      exact similar_answer reached operator operator' operators _ _ answer one two
  | logical operator operator' first first' second second' operators firsts seconds =>
      simp only [eval]
      refine similar_bind _ _ _ _ _ (earlier.eval first first' machine mirror firsts matched) ?_
      intro value value' after after' reached same
      rw [alike_decides operator operator' value value' (pairing.kinds _ _ operators) (same_alike same)]
      split
      · exact similar_pure reached value value' same
      · exact earlier.eval second second' after after' seconds reached
  | ternary condition condition' yes yes' no no' conditions chosen unchosen =>
      simp only [eval]
      refine similar_bind _ _ _ _ _ (earlier.eval condition condition' machine mirror conditions matched) ?_
      intro value value' after after' reached same
      rw [Value.alike_toBool value value' (same_alike same)]
      split
      · exact earlier.eval yes yes' after after' chosen reached
      · exact earlier.eval no no' after after' unchosen reached
  | comma first first' second second' firsts seconds =>
      simp only [eval]
      refine similar_bind _ _ _ _ _ (earlier.eval first first' machine mirror firsts matched) ?_
      intro _ _ after after' reached _
      exact earlier.eval second second' after after' seconds reached
  | var label label' name name' labels names =>
      exact similar_lookup matched label label' name name' names (agree label label' labels)
  | assign label label' name name' value value' labels names values =>
      simp only [eval]
      refine similar_bind _ _ _ _ _ (earlier.eval value value' machine mirror values matched) ?_
      intro result result' between between' halfway same
      have stored := similar_store halfway label label' name name' names (agree label label' labels) result result' same
      refine similar_bind _ _ _ _ _ stored ?_
      intro _ _ after after' reached _
      exact similar_pure reached result result' same
  | call callee callee' close close' arguments arguments' callees closes given =>
      simp only [eval]
      refine similar_bind _ _ _ _ _ (earlier.eval callee callee' machine mirror callees matched) ?_
      intro target target' called called' reachedCallee same
      refine similar_bind _ _ _ _ _ (earlier.evalAll arguments arguments' called called' given reachedCallee) ?_
      intro values values' passed passed' reachedArguments sameValues
      rw [sameValues.length_eq]
      refine similar_bind _ _ _ _ _ (similar_checkCall reachedArguments close close' closes target target' same _) ?_
      intro _ _ checked checked' reachedCheck _
      refine similar_deeper reachedCheck _ _ ?_
      intro inner inner' reached
      exact earlier.invoke target target' values values' inner inner' same sameValues reached

theorem evalAll_similar (fuel : Nat) (earlier : SimilarWithin pairing left right fuel)
    (exprs exprs' : List (Expr NodeId)) (machine mirror : Machine) (paired : ExprPairAll pairing exprs exprs')
    (matched : Matched pairing left right machine mirror) :
    Similar pairing left right (List.Forall₂ (Same pairing)) (evalAll (fuel + 1) exprs machine)
      (evalAll (fuel + 1) exprs' mirror) := by
  cases paired with
  | nil => exact similar_pure matched [] [] .nil
  | cons first first' rest rest' firsts others =>
      simp only [evalAll]
      refine similar_bind _ _ _ _ _ (earlier.eval first first' machine mirror firsts matched) ?_
      intro value value' between between' halfway same
      refine similar_bind _ _ _ _ _ (earlier.evalAll rest rest' between between' others halfway) ?_
      intro values values' after after' reached sameRest
      exact similar_pure reached (value :: values) (value' :: values') (.cons same sameRest)

theorem invoke_similar (fuel : Nat) (earlier : SimilarWithin pairing left right fuel) (callee callee' : Value)
    (arguments arguments' : List Value) (machine mirror : Machine) (callees : Same pairing callee callee')
    (given : List.Forall₂ (Same pairing) arguments arguments') (matched : Matched pairing left right machine mirror) :
    Similar pairing left right (Same pairing) (invoke (fuel + 1) callee arguments machine)
      (invoke (fuel + 1) callee' arguments' mirror) := by
  cases callees with
  | datum value => exact similar_pure matched _ _ (.datum .nil)
  | clock => exact similar_readClock matched
  | closure serial home name name' params params' body body' names parameters bodies =>
      simp only [invoke]
      refine similar_bind _ _ _ _ _ (similar_newFrame matched home) ?_
      intro frame _ entered entered' reached same
      cases same
      have ran : Similar pairing left right (SameEnding pairing)
          (Run.inFrame frame (do bindParams params arguments; execAll fuel body) entered)
          (Run.inFrame frame (do bindParams params' arguments'; execAll fuel body') entered') := by
        refine similar_inFrame reached frame _ _ ?_
        intro inner inner' inside
        refine similar_bind _ _ _ _ _ (similar_bindParams params params' parameters inner inner' _ _ inside given) ?_
        intro _ _ bound bound' ready _
        exact earlier.execAll body body' bound bound' bodies ready
      refine similar_bind _ _ _ _ _ ran ?_
      intro ending ending' after after' ended same
      exact similar_pure ended _ _ (sameEnding_value ending ending' same)

theorem exec_similar (fuel : Nat) (earlier : SimilarWithin pairing left right fuel) (stmt stmt' : Stmt NodeId)
    (machine mirror : Machine) (stmts : StmtPair pairing stmt stmt') (matched : Matched pairing left right machine mirror) :
    Similar pairing left right (SameEnding pairing) (exec (fuel + 1) stmt machine) (exec (fuel + 1) stmt' mirror) := by
  cases stmts with
  | leave keyword keyword' => exact similar_pure matched _ _ (.returned _ _ (.datum .nil))
  | ret keyword keyword' value value' values =>
      simp only [exec]
      refine similar_bind _ _ _ _ _ (earlier.eval value value' machine mirror values matched) ?_
      intro result result' after after' reached same
      exact similar_pure reached _ _ (.returned result result' same)
  | print keyword keyword' value value' keywords values =>
      simp only [exec]
      refine similar_bind _ _ _ _ _ (earlier.eval value value' machine mirror values matched) ?_
      intro result result' between between' halfway same
      rw [Value.alike_display result result' (same_alike same)]
      refine similar_bind _ _ _ _ _ (similar_write halfway keyword keyword' keywords _) ?_
      intro _ _ after after' reached _
      exact similar_pure reached _ _ .normal
  | expr value value' values =>
      simp only [exec]
      refine similar_bind _ _ _ _ _ (earlier.eval value value' machine mirror values matched) ?_
      intro _ _ after after' reached _
      exact similar_pure reached _ _ .normal
  | declare name name' names =>
      simp only [exec]
      refine similar_bind _ _ _ _ _ (similar_declare matched name name' names) ?_
      intro _ _ after after' reached _
      exact similar_pure reached _ _ .normal
  | var name name' value value' names values =>
      simp only [exec]
      refine similar_bind _ _ _ _ _ (earlier.eval value value' machine mirror values matched) ?_
      intro result result' between between' halfway same
      refine similar_bind _ _ _ _ _ (similar_define halfway name name' names result result' same) ?_
      intro _ _ after after' reached _
      exact similar_pure reached _ _ .normal
  | block body body' bodies =>
      simp only [exec]
      refine similar_bind _ _ _ _ _ (similar_newInner matched) ?_
      intro frame _ entered entered' reached same
      cases same
      refine similar_inFrame reached frame _ _ ?_
      intro inner inner' inside
      exact earlier.execAll body body' inner inner' bodies inside
  | func name name' params params' body body' names parameters bodies =>
      simp only [exec]
      refine similar_bind _ _ _ _ _ (similar_newClosure matched name name' params params' body body' names parameters
        bodies) ?_
      intro closure closure' between between' halfway same
      refine similar_bind _ _ _ _ _ (similar_define halfway name name' names closure closure' same) ?_
      intro _ _ after after' reached _
      exact similar_pure reached _ _ .normal
  | branch condition condition' yes yes' conditions chosen =>
      simp only [exec]
      refine similar_bind _ _ _ _ _ (earlier.eval condition condition' machine mirror conditions matched) ?_
      intro value value' after after' reached same
      rw [Value.alike_toBool value value' (same_alike same)]
      split
      · exact earlier.exec yes yes' after after' chosen reached
      · exact similar_pure reached _ _ .normal
  | branches condition condition' yes yes' no no' conditions chosen unchosen =>
      simp only [exec]
      refine similar_bind _ _ _ _ _ (earlier.eval condition condition' machine mirror conditions matched) ?_
      intro value value' after after' reached same
      rw [Value.alike_toBool value value' (same_alike same)]
      split
      · exact earlier.exec yes yes' after after' chosen reached
      · exact earlier.exec no no' after after' unchosen reached
  | loop condition condition' body body' conditions bodies =>
      exact earlier.execLoop condition condition' body body' machine mirror conditions bodies matched

theorem execAll_similar (fuel : Nat) (earlier : SimilarWithin pairing left right fuel)
    (stmts stmts' : List (Stmt NodeId)) (machine mirror : Machine) (paired : StmtPairAll pairing stmts stmts')
    (matched : Matched pairing left right machine mirror) :
    Similar pairing left right (SameEnding pairing) (execAll (fuel + 1) stmts machine)
      (execAll (fuel + 1) stmts' mirror) := by
  cases paired with
  | nil => exact similar_pure matched _ _ .normal
  | cons first first' rest rest' firsts others =>
      simp only [execAll]
      refine similar_bind _ _ _ _ _ (earlier.exec first first' machine mirror firsts matched) ?_
      intro ending ending' after after' reached same
      cases same with
      | normal => exact earlier.execAll rest rest' after after' others reached
      | returned value value' same => exact similar_pure reached _ _ (.returned value value' same)

theorem execLoop_similar (fuel : Nat) (earlier : SimilarWithin pairing left right fuel)
    (condition condition' : Expr NodeId) (body body' : Stmt NodeId) (machine mirror : Machine)
    (conditions : ExprPair pairing condition condition') (bodies : StmtPair pairing body body')
    (matched : Matched pairing left right machine mirror) :
    Similar pairing left right (SameEnding pairing) (execLoop (fuel + 1) condition body machine)
      (execLoop (fuel + 1) condition' body' mirror) := by
  simp only [execLoop]
  refine similar_bind _ _ _ _ _ (earlier.eval condition condition' machine mirror conditions matched) ?_
  intro value value' tested tested' reached same
  rw [Value.alike_toBool value value' (same_alike same)]
  split
  · refine similar_bind _ _ _ _ _ (earlier.exec body body' tested tested' bodies reached) ?_
    intro ending ending' after after' ended sameEnd
    cases sameEnd with
    | normal => exact earlier.execLoop condition condition' body body' after after' conditions bodies ended
    | returned value value' same => exact similar_pure ended _ _ (.returned value value' same)
  · exact similar_pure reached _ _ .normal

include agree in
theorem similar_within (fuel : Nat) : SimilarWithin pairing left right fuel := by
  induction fuel with
  | zero =>
      constructor
      all_goals intros
      all_goals exact .outOfFuel
  | succ fuel earlier =>
      constructor
      · exact eval_similar agree fuel earlier
      · exact evalAll_similar fuel earlier
      · exact invoke_similar fuel earlier
      · exact exec_similar fuel earlier
      · exact execAll_similar fuel earlier
      · exact execLoop_similar fuel earlier

include agree in
theorem runProgram_similar (fuel : Nat) (program program' : List (Stmt NodeId))
    (paired : StmtPairAll pairing program program') : ∀ machine mirror : Machine,
    Matched pairing left right machine mirror →
    Similar pairing left right (fun _ _ => True) (runProgram fuel program machine) (runProgram fuel program' mirror) := by
  induction program generalizing program' with
  | nil =>
      intro machine mirror matched
      cases paired
      exact similar_pure matched () () trivial
  | cons first rest ih =>
      intro machine mirror matched
      cases paired with
      | cons _ first' _ rest' firsts others =>
          refine similar_bind _ _ _ _ _ ((similar_within agree fuel).exec first first' machine mirror firsts matched) ?_
          intro _ _ after after' reached _
          exact ih rest' others after after' reached

end within

end Treewalk.Paired
