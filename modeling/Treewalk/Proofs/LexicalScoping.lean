import Treewalk.Proofs.Lockstep

/-!
Distances recorded by the analysis and frames that change implement lexical scoping. Programs that were read and
analysed without a mistake, run one after another on one machine, end as they do with immutable names and cells,
write the same output and take the same readings of the clock. Initializers that assign to their own variable are
left out: there the machine refuses what the names allow.
-/

set_option autoImplicit false

namespace Treewalk.Lexical

-- Whole programs, one after another.

theorem runProgram_simulates (ledger : Ledger) (fuel : Nat) (stmts : List (Stmt NodeId)) :
    ∀ (world : World) (machine : Machine) (state : State), Matched ledger world machine state →
    machine.frame = globalFrame → FitsAll ledger false false [] stmts →
    Simulates ledger (· = machine.frame) world machine (fun _ _ _ _ => True)
      (Treewalk.runProgram fuel stmts machine) (ledger.manner.runProgram fuel (Stmt.stripAll stmts) state) := by
  induction stmts with
  | nil =>
      intro world machine state matched _ _
      exact simulates_pure ledger _ world machine state _ () () matched trivial
  | cons first rest ih =>
      rintro world machine state matched outermost ⟨settled, placed, plain⟩
      simp only [Stmt.stripAll, Stmt.placedAll, Bool.and_eq_true] at placed
      simp only [Stmt.stripAll, Stmt.ownWritesAll, List.append_eq_nil_iff] at plain
      have firstFits : Fits ledger false false [] first :=
        ⟨fun mention inside => settled mention (List.mem_append_left _ inside), placed.1,
          fun accepts => (plain accepts).1⟩
      have after_nil : first.after [] = [] := List.isEmpty_iff.mp (Stmt.after_isEmpty first [])
      have restFits : FitsAll ledger false false [] rest := by
        refine ⟨fun mention inside => settled mention (List.mem_append_right _ ?_), placed.2,
          fun accepts => (plain accepts).2⟩
        rw [after_nil]
        exact inside
      apply simulates_bind ledger _ world machine state
      · exact (simulates_within ledger fuel).exec first false false [] .outermost world machine state matched outermost rfl
          firstFits
      · intro later after state' _ _ reached _
        rw [← reached.frame]
        exact ih later after state' reached.matched (reached.frame.trans outermost) restFits

-- A ledger that came later has what the earlier one had.
structure Ledger.Later (before after : Ledger) : Prop where
  more : ∀ mention, before.Has mention → after.Has mention
  refuses : after.refuses = before.refuses

section later

variable (before after : Ledger) (further : before.Later after)

include further

theorem fitsAll_later (inFunction inner : Bool) (scopes : List Scope) (stmts : List (Stmt NodeId))
    (fits : FitsAll before inFunction inner scopes stmts) : FitsAll after inFunction inner scopes stmts :=
  ⟨fun mention inside => further.more mention (fits.settled mention inside), fits.placed, further.refuses ▸ fits.plain⟩

theorem same_later (heap : Heap) (world : World) (value : Treewalk.Value) (mirror : Value)
    (same : Same before heap world value mirror) : Same after heap world value mirror := by
  cases value <;> cases mirror <;> try exact same
  case closure.closure closure mirror =>
    obtain ⟨serial, name, params, body, scopes, linked, bindings, fits⟩ := same
    exact ⟨serial, name, params, body, scopes, linked, fun mention inside => further.more mention (bindings mention inside),
      fitsAll_later before after further _ _ _ _ fits⟩

theorem sameSlot_later (heap : Heap) (world : World) (slot : Option Slot) (mirror : Option (Option Value))
    (same : SameSlot before heap world slot mirror) : SameSlot after heap world slot mirror := by
  rcases slot with _ | _ | value <;> rcases mirror with _ | _ | mirror <;> try exact same
  exact same_later before after further heap world value mirror same

end later

-- What is ready to run matches as before, by the larger ledger.
theorem matched_ready (ledger : Ledger) (world : World) (machine ready : Machine) (state : State)
    (program : List (Stmt Unit)) (numbered : List (Stmt NodeId)) (matched : Matched ledger world machine state)
    (prepares : machine.Prepares program numbered ready) :
    Matched ⟨ready.distances, ready.labels, ledger.refuses⟩ world ready state := by
  have further : ledger.Later ⟨ready.distances, ready.labels, ledger.refuses⟩ := by
    refine ⟨fun mention has => ?_, rfl⟩
    apply settled_later ledger.distances ready.distances ledger.labels ready.labels mention
    · rw [← matched.labels]
      exact prepares.more
    · intro label below
      rw [← matched.labels] at below
      rw [← matched.distances]
      exact prepares.kept label below
    · exact has
  have same := prepares.same
  generalize ready.distances = distances at same further ⊢
  generalize ready.labels = labels at same further ⊢
  subst same
  constructor
  case globals => exact fun name => sameSlot_later _ _ further _ _ _ _ (matched.globals name)
  case held =>
    intro frame name cell held
    obtain ⟨used, holds⟩ := matched.held frame name cell held
    exact ⟨used, sameSlot_later _ _ further _ _ _ _ holds⟩
  all_goals first
    | exact matched.depth | exact matched.limit | exact matched.closures | exact matched.sink | exact matched.clock
    | exact matched.rooted | exact matched.outside | exact matched.bound | exact matched.distinct | rfl

theorem matched_start {refuses : Bool} (limit : Nat) (sink : Sink) (clock : Clock) :
    Matched ⟨∅, 0, refuses⟩ (fun _ _ => none) (Machine.start limit sink clock) (State.start limit sink clock) := by
  have rooted : globalFrame < (Heap.empty.push none).size := by decide
  constructor
  case rooted =>
    simp only [Machine.start, Heap.install, Heap.size_put]
    exact rooted
  case globals =>
    intro name
    by_cases isClock : name = "clock"
    · subst isClock
      have held := Heap.slot_put_here (Heap.empty.push none) globalFrame "clock" (.holds .clock) rooted
      simp only [Machine.start, Heap.install, held, State.start, if_true]
      trivial
    · have missing := Heap.slot_put_elsewhere (Heap.empty.push none) globalFrame globalFrame "clock" name
        (.holds .clock) (.inr isClock)
      rw [Heap.slot_push] at missing
      simp only [Machine.start, Heap.install, missing, State.start, isClock, if_false]
      trivial
  case bound =>
    intro frame name inner
    have missing := Heap.slot_put_elsewhere (Heap.empty.push none) globalFrame frame "clock" name
      (.holds .clock) (.inl inner)
    rw [Heap.slot_push] at missing
    simp only [Machine.start, Heap.install, Heap.binds, missing]
    rfl
  case held =>
    intro _ _ _ held
    cases held
  case distinct =>
    intro _ _ _ _ _ held
    cases held
  all_goals first | rfl | exact fun _ => rfl

end Treewalk.Lexical

namespace Treewalk

-- What can be seen after a program: its fault if it failed, all output, the readings of the clock and the texts of
-- the globals. A program that does not come to an end is the last one.
inductive Report where
  | ended (fault : Option Fault) (sink : Sink) (clock : Clock) (globals : String → Option (Option String))
  | unfinished

def Report.shown : Report → Option String
  | .ended _ sink _ _ => some (sink.textFrom 0)
  | .unfinished => none

def Machine.report (machine : Machine) (fault : Option Fault) : Report :=
  .ended fault machine.sink machine.clock fun name =>
    (machine.heap.slot? globalFrame name).map fun
      | .unassigned => none
      | .holds value => some value.display

def Machine.reports (fuel : Nat) : Machine → List (List (Stmt Unit)) → List Report
  | _, [] => []
  | machine, program :: rest => match Machine.interpret fuel program machine with
    | .done _ after => after.report none :: after.reports fuel rest
    | .fault fault after => after.report (some fault) :: after.reports fuel rest
    | .outOfFuel => [.unfinished]

namespace Lexical

open Grammar (plainToken textToken)

def State.report (state : State) (fault : Option Fault) : Report :=
  .ended fault state.sink state.clock fun name => (state.globals name).map (·.map Value.display)

def State.reports (fuel : Nat) : State → List (List (Stmt Unit)) → List Report
  | _, [] => []
  | state, program :: rest => match runProgram fuel program state with
    | .done _ after => after.report none :: after.reports fuel rest
    | .fault fault after => after.report (some fault) :: after.reports fuel rest
    | .outOfFuel => [.unfinished]

-- The reports of programs that run in another manner.
def Manner.reports (manner : Manner) (fuel : Nat) : State → List (List (Stmt Unit)) → List Report
  | _, [] => []
  | state, program :: rest => match manner.runProgram fuel program state with
    | .done _ after => after.report none :: manner.reports fuel after rest
    | .fault fault after => after.report (some fault) :: manner.reports fuel after rest
    | .outOfFuel => [.unfinished]

theorem reports_plain (fuel : Nat) (programs : List (List (Stmt Unit))) : ∀ state : State,
    Manner.plain.reports fuel state programs = state.reports fuel programs := by
  induction programs with
  | nil => exact fun _ => rfl
  | cons program rest ih =>
      intro state
      rw [Manner.reports, State.reports, Manner.runProgram_plain]
      cases runProgram fuel program state <;> simp only [ih]

theorem report_matched (ledger : Ledger) (world : World) (machine : Machine) (state : State) (fault : Option Fault)
    (matched : Matched ledger world machine state) : machine.report fault = state.report fault := by
  unfold Machine.report State.report
  rw [matched.sink, matched.clock]
  congr 1
  funext name
  have same := matched.globals name
  revert same
  rcases machine.heap.slot? globalFrame name with _ | _ | value <;>
    rcases state.globals name with _ | _ | mirror <;> intro same <;> try exact same.elim
  · rfl
  · rfl
  · exact congrArg (fun text => some (some text))
      (Value.alike_display value mirror (same_alike ledger _ _ value mirror same))

-- Programs that are well formed in all that the analysis and the grammar promise.
def Accepted (program : List (Stmt Unit)) : Prop :=
  misuses program = [] ∧ Stmt.placedAll program = true ∧ Stmt.ownWritesAll false program = []

-- The same, where variables that wait for their values may refuse others.
def Ledger.Accepts (ledger : Ledger) (program : List (Stmt Unit)) : Prop :=
  misuses program = [] ∧ Stmt.placedAll program = true ∧
    (ledger.refuses = false → Stmt.ownWritesAll false program = [])

theorem manner_reports_match (fuel : Nat) (programs : List (List (Stmt Unit))) : ∀ (ledger : Ledger) (world : World)
    (machine : Machine) (state : State), Matched ledger world machine state → machine.frame = globalFrame →
    machine.Unrecorded → (∀ program ∈ programs, ledger.Accepts program) →
    machine.reports fuel programs = ledger.manner.reports fuel state programs := by
  induction programs with
  | nil => exact fun _ _ _ _ _ _ _ _ => rfl
  | cons program rest ih =>
      intro ledger world machine state matched outermost unrecorded accepted
      obtain ⟨clean, placed, plain⟩ := accepted program List.mem_cons_self
      have prepares := prepare_settles machine program unrecorded clean
      have ready := matched_ready ledger world machine _ state program _ matched prepares
      have fits : FitsAll ⟨(machine.prepare program).2.distances, (machine.prepare program).2.labels, ledger.refuses⟩
          false false [] (machine.prepare program).1 := by
        refine ⟨prepares.settled, ?_, ?_⟩
        · rw [prepares.stripped]
          exact placed
        · rw [prepares.stripped]
          exact plain
      have root : (machine.prepare program).2.frame = globalFrame := by
        rw [prepares.same]
        exact outermost
      have simulates := runProgram_simulates _ fuel _ world _ state ready root fits
      rw [prepares.stripped] at simulates
      change Simulates _ _ _ _ _ _ (ledger.manner.runProgram fuel program state) at simulates
      have next : ∀ later after state', Matched
          ⟨(machine.prepare program).2.distances, (machine.prepare program).2.labels, ledger.refuses⟩ later after state' →
          after.frame = (machine.prepare program).2.frame →
          after.reports fuel rest = ledger.manner.reports fuel state' rest := by
        intro later after state' matched' frame
        apply ih _ later after state' matched' (frame.trans root)
        · intro label above
          rw [matched'.distances]
          rw [matched'.labels] at above
          exact prepares.unrecorded label above
        · exact fun other inside => accepted other (List.mem_cons_of_mem _ inside)
      unfold Machine.reports Manner.reports Machine.interpret
      generalize Treewalk.runProgram fuel (machine.prepare program).1 (machine.prepare program).2 = outcome
        at simulates ⊢
      generalize ledger.manner.runProgram fuel program state = mirrored at simulates ⊢
      cases simulates with
      | done value mirror later after state' reached _ =>
          simp only
          rw [report_matched _ later after state' none reached.matched,
            next later after state' reached.matched reached.frame]
      | fault fault later after state' frame matched' =>
          simp only
          rw [report_matched _ later after state' (some fault) matched', next later after state' matched' frame]
      | outOfFuel => rfl

theorem reports_match (fuel : Nat) (programs : List (List (Stmt Unit))) (known : Distances × Nat) (world : World)
    (machine : Machine) (state : State) (matched : Matched ⟨known.1, known.2, false⟩ world machine state)
    (outermost : machine.frame = globalFrame) (unrecorded : machine.Unrecorded)
    (accepted : ∀ program ∈ programs, Accepted program) :
    machine.reports fuel programs = state.reports fuel programs := by
  rw [← reports_plain]
  apply manner_reports_match fuel programs _ world machine state matched outermost unrecorded
  intro program inside
  obtain ⟨clean, placed, plain⟩ := accepted program inside
  exact ⟨clean, placed, fun _ => plain⟩

-- Token lists read without a mistake and analysed without a misuse, in which no local initializer assigns to its own
-- variable: run one after another they report the same on the machine and with names and cells.
theorem frames_implement_lexical_scoping (fuel limit : Nat) (sink : Sink) (clock : Clock)
    (sources : List (List Token)) (read : ∀ tokens ∈ sources, (readProgram tokens).errors = [])
    (resolved : ∀ tokens ∈ sources, misuses (readProgram tokens).result = [])
    (plain : ∀ tokens ∈ sources, Stmt.ownWritesAll false (readProgram tokens).result = []) :
    (Machine.start limit sink clock).reports fuel (sources.map fun tokens => (readProgram tokens).result) =
      (State.start limit sink clock).reports fuel (sources.map fun tokens => (readProgram tokens).result) := by
  apply reports_match fuel _ ⟨∅, 0⟩ (fun _ _ => none) _ _ (matched_start limit sink clock) rfl
  · intro label _
    exact Std.HashMap.getElem?_empty
  · intro program inside
    obtain ⟨tokens, among, rfl⟩ := List.mem_map.mp inside
    exact ⟨resolved tokens among, Grammar.readProgram_placed tokens (read tokens among), plain tokens among⟩

-- `var a = "outer"; { fun show() { print a; } show(); var a = "inner"; show(); }`: the function goes on to mean
-- the outer variable.

def laterShadow : List Token :=
  [plainToken .kwVar "var", plainToken .identifier "a", plainToken .equal "=", textToken "outer",
    plainToken .semicolon ";", plainToken .leftBrace "\x7b", plainToken .kwFun "fun", plainToken .identifier "show",
    plainToken .leftParen "(", plainToken .rightParen ")", plainToken .leftBrace "\x7b", plainToken .kwPrint "print",
    plainToken .identifier "a", plainToken .semicolon ";", plainToken .rightBrace "\x7d", plainToken .identifier "show",
    plainToken .leftParen "(", plainToken .rightParen ")", plainToken .semicolon ";", plainToken .kwVar "var",
    plainToken .identifier "a", plainToken .equal "=", textToken "inner", plainToken .semicolon ";",
    plainToken .identifier "show", plainToken .leftParen "(", plainToken .rightParen ")", plainToken .semicolon ";",
    plainToken .rightBrace "\x7d"]

theorem laterShadow_scoped :
    (readProgram laterShadow).errors = [] ∧ misuses (readProgram laterShadow).result = [] ∧
      Stmt.ownWritesAll false (readProgram laterShadow).result = [] ∧
      (Machine.start 8 (Sink.empty none) (Clock.ticking 0)).reports 40 [(readProgram laterShadow).result] =
        (State.start 8 (Sink.empty none) (Clock.ticking 0)).reports 40 [(readProgram laterShadow).result] ∧
      ((Machine.start 8 (Sink.empty none) (Clock.ticking 0)).reports 40 [(readProgram laterShadow).result]).map
        Report.shown = [some "outer\nouter\n"] := by
  have read : (readProgram laterShadow).errors = [] := by rfl
  have resolved : misuses (readProgram laterShadow).result = [] := by rfl
  have plain : Stmt.ownWritesAll false (readProgram laterShadow).result = [] := by rfl
  have alike : (Machine.start 8 (Sink.empty none) (Clock.ticking 0)).reports 40 [(readProgram laterShadow).result] =
      (State.start 8 (Sink.empty none) (Clock.ticking 0)).reports 40 [(readProgram laterShadow).result] :=
    frames_implement_lexical_scoping 40 8 (Sink.empty none) (Clock.ticking 0) [laterShadow] (by simpa using read)
      (by simpa using resolved) (by simpa using plain)
  refine ⟨read, resolved, plain, alike, ?_⟩
  rw [alike]
  decide +kernel

end Lexical

end Treewalk
