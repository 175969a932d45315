import Treewalk.Proofs.GuardedRuns

/-!
Machines with a history: programs that were read and analysed without a mistake ran on them one after another, with
expressions evaluated, texts shown and other programs analysed but not run in between. Such a machine is orderly,
whatever faults the programs ended with.
-/

set_option autoImplicit false

namespace Treewalk

-- The machine at the end of a run that came to an end.
def Outcome.machine? {α : Type} : Outcome α → Option Machine
  | .done _ machine => some machine
  | .fault _ machine => some machine
  | .outOfFuel => none

-- The history holds the programs as they were numbered, the latest first.
inductive Machine.Ran : List (List (Stmt NodeId)) → Machine → Prop where
  | start (limit : Nat) (sink : Sink) (clock : Clock) : Ran [] (Machine.start limit sink clock)
  | program (history : List (List (Stmt NodeId))) (machine after : Machine) (fuel : Nat) (tokens : List Token)
      (earlier : Ran history machine) (read : (readProgram tokens).errors = [])
      (resolved : misuses (readProgram tokens).result = [])
      (ended : (Machine.interpret fuel (readProgram tokens).result machine).machine? = some after) :
      Ran ((machine.prepare (readProgram tokens).result).1 :: history) after
  | expression (history : List (List (Stmt NodeId))) (machine after : Machine) (fuel : Nat) (expr : Expr Unit)
      (earlier : Ran history machine)
      (ended : (eval fuel (machine.loadExpr expr).1 (machine.loadExpr expr).2).machine? = some after) : Ran history after
  | analysed (history : List (List (Stmt NodeId))) (machine : Machine) (program : List (Stmt Unit))
      (earlier : Ran history machine) : Ran history (machine.prepare program).2
  | shown (history : List (List (Stmt NodeId))) (machine : Machine) (text : String) (earlier : Ran history machine) :
      Ran history (machine.emit text).2

namespace Binding

-- An assignment, in one of these programs, to a local variable inside its own initializer.
def OwnIn (programs : List (List (Stmt NodeId))) (use : Use NodeId) : Prop :=
  ∃ program ∈ programs, use ∈ Stmt.ownWritesAll false program

def registerOf (history : List (List (Stmt NodeId))) (machine : Machine) : Register :=
  ⟨machine.distances, machine.labels, OwnIn history⟩

-- A machine between two programs.
structure Resting (history : List (List (Stmt NodeId))) (machine : Machine) : Prop where
  orderly : Orderly (registerOf history machine) machine
  root : machine.frame = globalFrame
  unrecorded : machine.Unrecorded
  older : ∀ use, OwnIn history use → (use.label : Nat) < machine.labels

-- What an older register has, a later one has: numbers used before mean what they meant.
theorem has_later (before after : Register) (more : before.labels ≤ after.labels)
    (kept : ∀ label : Nat, label < before.labels → after.distances[label]? = before.distances[label]?)
    (told : ∀ use : Use NodeId, (use.label : Nat) < before.labels → (after.own use ↔ before.own use))
    (mention : Mention NodeId) (has : before.Has mention) : after.Has mention := by
  obtain ⟨settled, tells⟩ := has
  refine ⟨settled_later before.distances after.distances before.labels after.labels mention more kept settled, ?_⟩
  cases mention with
  | use use scopes => exact (told use settled.1).trans tells
  | binding name scopes => trivial
  | leaving inFunction keyword => trivial

theorem sound_later (before after : Register) (more : ∀ mention, before.Has mention → after.Has mention) (heap : Heap)
    (value : Value) (sound : Sound before heap value) : Sound after heap value := by
  cases value with
  | datum | clock => trivial
  | closure closure =>
      obtain ⟨scopes, encloses, bindings, settled, placed⟩ := sound
      exact ⟨scopes, encloses, fun mention inside => more mention (bindings mention inside),
        fun mention inside => more mention (settled mention inside), placed⟩

theorem orderly_later (before after : Register) (machine ready : Machine) (orderly : Orderly before machine)
    (more : ∀ mention, before.Has mention → after.Has mention) (heap : ready.heap = machine.heap)
    (distances : ready.distances = after.distances) (labels : ready.labels = after.labels) : Orderly after ready := by
  refine ⟨distances, labels, ?_, ?_⟩
  · rw [heap]
    exact orderly.rooted
  · intro frame name value held
    rw [heap] at held ⊢
    exact sound_later before after more machine.heap value (orderly.held frame name value held)

theorem resting_start (limit : Nat) (sink : Sink) (clock : Clock) : Resting [] (Machine.start limit sink clock) := by
  have rooted : globalFrame < (Heap.empty.push none).size := by decide
  refine ⟨⟨rfl, rfl, ?_, ?_⟩, rfl, fun _ _ => Std.HashMap.getElem?_empty, ?_⟩
  · simp only [Machine.start, Heap.install, Heap.size_put]
    exact rooted
  · intro frame name value held
    by_cases isClock : frame = globalFrame ∧ name = "clock"
    · obtain ⟨rfl, rfl⟩ := isClock
      have clock := Heap.slot_put_here (Heap.empty.push none) globalFrame "clock" (.holds .clock) rooted
      cases Option.some.inj (clock.symm.trans held)
      trivial
    · have different : frame ≠ globalFrame ∨ name ≠ "clock" := by
        by_cases same : frame = globalFrame
        · exact .inr (fun names => isClock ⟨same, names⟩)
        · exact .inl same
      have missing := Heap.slot_put_elsewhere (Heap.empty.push none) globalFrame frame "clock" name (.holds .clock)
        different
      rw [Heap.slot_push] at missing
      cases missing.symm.trans held
  · rintro use ⟨program, inside, -⟩
    cases inside

-- A program made ready on a resting machine: all that it mentions is known.
theorem resting_ready (history : List (List (Stmt NodeId))) (machine : Machine) (program : List (Stmt Unit))
    (resting : Resting history machine) (clean : misuses program = []) (placed : Stmt.placedAll program = true) :
    Orderly (registerOf ((machine.prepare program).1 :: history) (machine.prepare program).2)
      (machine.prepare program).2 ∧
    FitsAll (registerOf ((machine.prepare program).1 :: history) (machine.prepare program).2) false []
      (machine.prepare program).1 ∧
    ∀ use, OwnIn ((machine.prepare program).1 :: history) use → (use.label : Nat) < (machine.prepare program).2.labels := by
  have prepares := prepare_settles machine program resting.unrecorded clean
  have writes := prepare_tells machine program resting.unrecorded clean
  generalize (machine.prepare program).1 = numbered at prepares writes ⊢
  generalize (machine.prepare program).2 = ready at prepares writes ⊢
  have newer : ∀ use ∈ Stmt.ownWritesAll false numbered, (machine.labels : Nat) ≤ use.label := by
    intro use inside
    obtain ⟨scopes, among⟩ := writes.among use inside
    exact writes.later use scopes among
  have own (use : Use NodeId) : OwnIn (numbered :: history) use ↔
      use ∈ Stmt.ownWritesAll false numbered ∨ OwnIn history use := by
    simp [OwnIn]
  refine ⟨?_, ⟨?_, ?_⟩, ?_⟩
  · apply orderly_later (registerOf history machine) _ machine ready resting.orderly
    · apply has_later
      · exact prepares.more
      · exact prepares.kept
      · intro use below
        refine (own use).trans ⟨fun either => either.resolve_left ?_, .inr⟩
        intro inside
        exact Nat.not_lt.mpr (newer use inside) below
    · rw [prepares.same]
    · rfl
    · rfl
  · intro mention inside
    refine ⟨prepares.settled mention inside, ?_⟩
    cases mention with
    | use use scopes =>
        refine (own use).trans (Iff.trans ⟨fun either => either.resolve_right ?_, .inl⟩
          (writes.told use scopes inside))
        intro past
        exact Nat.not_lt.mpr (writes.later use scopes inside) (resting.older use past)
    | binding name scopes => trivial
    | leaving inFunction keyword => trivial
  · rw [prepares.stripped]
    exact placed
  · intro use among
    rcases (own use).mp among with inside | past
    · obtain ⟨scopes, mentioned⟩ := writes.among use inside
      exact (prepares.settled _ mentioned).1
    · exact Nat.lt_of_lt_of_le (resting.older use past) prepares.more

theorem interpret_guarded (history : List (List (Stmt NodeId))) (machine : Machine) (program : List (Stmt Unit))
    (fuel : Nat) (resting : Resting history machine) (clean : misuses program = [])
    (placed : Stmt.placedAll program = true) :
    Guarded (registerOf ((machine.prepare program).1 :: history) (machine.prepare program).2)
      (· = (machine.prepare program).2.frame) (machine.prepare program).2 (fun _ _ => True)
      (Traced.runProgram fuel (machine.prepare program).1 (machine.prepare program).2) := by
  obtain ⟨orderly, fits, -⟩ := resting_ready history machine program resting clean placed
  exact runProgram_guarded _ fuel _ _ orderly resting.root fits

-- However a guarded run ends, the machine rests again.
theorem resting_after {α : Type} (history : List (List (Stmt NodeId))) (changed : FrameId → Prop) (ready after : Machine)
    (result : Heap → α → Prop) (ran : List Moment × Outcome α)
    (guarded : Guarded (registerOf history ready) changed ready result ran) (root : ready.frame = globalFrame)
    (unrecorded : ready.Unrecorded) (older : ∀ use, OwnIn history use → (use.label : Nat) < ready.labels)
    (ended : ran.2.machine? = some after) : Resting history after := by
  obtain ⟨-, ends⟩ := guarded
  have reached : Orderly (registerOf history ready) after ∧ after.frame = ready.frame := by
    generalize ran.2 = outcome at ends ended
    cases ends with
    | done value last advanced =>
        cases ended
        exact ⟨advanced.orderly, advanced.frame⟩
    | fault fault last orderly frame =>
        cases ended
        exact ⟨orderly, frame⟩
    | outOfFuel => cases ended
  obtain ⟨orderly, frame⟩ := reached
  have distances : after.distances = ready.distances := orderly.distances
  have labels : after.labels = ready.labels := orderly.labels
  have same : registerOf history after = registerOf history ready := by
    simp only [registerOf, distances, labels]
  constructor
  · rw [same]
    exact orderly
  · exact frame.trans root
  · intro label above
    rw [labels] at above
    rw [distances]
    exact unrecorded label above
  · rw [labels]
    exact older

-- More knowledge about uses with new numbers changes nothing for a resting machine.
theorem resting_learns (history : List (List (Stmt NodeId))) (machine ready : Machine)
    (resting : Resting history machine) (learns : machine.Learns ready) : Resting history ready := by
  have heap : ready.heap = machine.heap := by rw [learns.same]
  have frame : ready.frame = machine.frame := by rw [learns.same]
  refine ⟨?_, frame.trans resting.root, learns.unrecorded, ?_⟩
  · apply orderly_later (registerOf history machine) _ machine ready resting.orderly
    · exact has_later _ _ learns.more learns.kept fun _ _ => Iff.rfl
    · exact heap
    · rfl
    · rfl
  · intro use own
    exact Nat.lt_of_lt_of_le (resting.older use own) learns.more

-- An expression loaded on a resting machine: its names are global ones.
theorem resting_loaded (history : List (List (Stmt NodeId))) (machine : Machine) (expr : Expr Unit)
    (resting : Resting history machine) :
    Resting history (machine.loadExpr expr).2 ∧
    ∀ use ∈ (machine.loadExpr expr).1.uses, (registerOf history (machine.loadExpr expr).2).Has (.use use []) := by
  have numbers : Numbered machine.labels (machine.loadExpr expr).2.labels
    ((machine.loadExpr expr).1.uses.map Use.label) := Expr.numbered_labels expr machine.labels
  have distances : (machine.loadExpr expr).2.distances = machine.distances := rfl
  refine ⟨⟨?_, resting.root, ?_, ?_⟩, ?_⟩
  · apply orderly_later (registerOf history machine) _ machine _ resting.orderly
    · apply has_later
      · exact numbers.ordered
      · exact fun _ _ => rfl
      · exact fun _ _ => Iff.rfl
    · rfl
    · rfl
    · rfl
  · intro label above
    rw [distances]
    exact resting.unrecorded label (Nat.le_trans numbers.ordered above)
  · intro use own
    exact Nat.lt_of_lt_of_le (resting.older use own) numbers.ordered
  · intro use inside
    have bounds := numbers.inside use.label (List.mem_map.mpr ⟨use, inside, rfl⟩)
    refine ⟨⟨bounds.2, ?_, fun _ early => nomatch early⟩, ?_, fun early => nomatch early.2⟩
    · exact resting.unrecorded use.label bounds.1
    · intro own
      exact absurd (resting.older use own) (Nat.not_lt.mpr bounds.1)

theorem resting_of_ran (history : List (List (Stmt NodeId))) (machine : Machine) (ran : machine.Ran history) :
    Resting history machine := by
  induction ran with
  | start limit sink clock => exact resting_start limit sink clock
  | program history machine after fuel tokens _ read resolved ended resting =>
      have placed := Grammar.readProgram_placed tokens read
      have guarded := interpret_guarded history machine _ fuel resting resolved placed
      obtain ⟨-, -, older⟩ := resting_ready history machine _ resting resolved placed
      have prepares := prepare_settles machine _ resting.unrecorded resolved
      apply resting_after _ _ _ after _ _ guarded resting.root prepares.unrecorded older
      rw [← ended]
      exact congrArg (fun run : Run Unit => (run _).machine?) (Traced.runProgram_erases fuel _)
  | expression history machine after fuel expr _ ended resting =>
      obtain ⟨loaded, has⟩ := resting_loaded history machine expr resting
      have guarded := (guarded_within (registerOf history (machine.loadExpr expr).2) fuel).eval _ [] _ loaded.orderly
        loaded.root has
      apply resting_after _ _ _ after _ _ guarded loaded.root loaded.unrecorded loaded.older
      rw [← ended]
      exact congrArg (fun run : Run Value => (run _).machine?) ((Traced.erases_within fuel).eval _)
  | analysed history machine program _ resting =>
      exact resting_learns history machine _ resting (prepare_learns machine program resting.unrecorded)
  | shown history machine text _ resting =>
      obtain ⟨orderly, root, unrecorded, older⟩ := resting
      exact ⟨{ orderly with }, root, unrecorded, older⟩

end Binding

end Treewalk
