import Mathlib
import Treewalk.Proofs.History
import Treewalk.Proofs.Restoring

/-!
Output that does not fit. A program runs on a sink that is full at some number of bytes as it does on one that takes
everything, up to the statement whose text does not fit. There it ends with a fault, with the bytes that fit stored and
nothing done behind that statement.
-/

set_option autoImplicit false

namespace Treewalk

def Sink.capped (capacity : Option Nat) (sink : Sink) : Sink := { sink with policy := Sink.bounded capacity }

-- The same machine on a sink that is full at a number of bytes, or never.
def Machine.capped (capacity : Option Nat) (machine : Machine) : Machine :=
  { machine with sink := machine.sink.capped capacity }

def Outcome.capped {α : Type} (capacity : Option Nat) : Outcome α → Outcome α
  | .done value machine => .done value (machine.capped capacity)
  | .fault reported machine => .fault reported (machine.capped capacity)
  | .outOfFuel => .outOfFuel

def Moment.capped (capacity : Option Nat) (moment : Moment) : Moment := moment.on (moment.machine.capped capacity)

-- The number of bytes written so far.
def Machine.filled (machine : Machine) : Nat := machine.sink.written.size

-- A machine that wrote more than another, or as much.
def Machine.Continues (before after : Machine) : Prop := ∃ more, after.sink.written = before.sink.written ++ more

theorem continues_of_sink (before after : Machine) (same : after.sink.written = before.sink.written) :
    before.Continues after :=
  ⟨ByteArray.empty, by rw [same, ByteArray.append_empty]⟩

theorem continues_trans (first second third : Machine) (early : first.Continues second) (late : second.Continues third) :
    first.Continues third := by
  obtain ⟨more, wrote⟩ := early
  obtain ⟨further, wroteOn⟩ := late
  exact ⟨more ++ further, by rw [wroteOn, wrote, ByteArray.append_assoc]⟩

theorem filled_le (before after : Machine) (goesOn : before.Continues after) : before.filled ≤ after.filled := by
  obtain ⟨more, wrote⟩ := goesOn
  rw [Machine.filled, Machine.filled, wrote, ByteArray.size_append]
  exact Nat.le_add_right _ _

-- The machine behind a text of which some bytes were stored.
def Machine.wrote (text : String) (stored : ByteArray) (machine : Machine) : Machine :=
  { machine with sink := ⟨machine.sink.written ++ stored, text.toUTF8 :: machine.sink.offered, machine.sink.policy⟩ }

section writing

variable (limit : Nat) (line : Int) (text : String) (machine : Machine)

theorem write_endless :
    Run.write line text (machine.capped none) = .done () ((machine.wrote text text.toUTF8).capped none) := by
  have whole : text.toUTF8.extract 0 text.toUTF8.size = text.toUTF8 := ByteArray.extract_zero_size
  simp only [Run.write, Machine.emit, Sink.offer, Machine.capped, Sink.capped, Sink.bounded, Sink.fits, Option.all_none,
    if_true, whole]
  rfl

theorem write_fitting (fits : machine.filled + text.toUTF8.size ≤ limit) :
    Run.write line text (machine.capped (some limit)) = .done () ((machine.wrote text text.toUTF8).capped (some limit)) := by
  have whole : text.toUTF8.extract 0 text.toUTF8.size = text.toUTF8 := ByteArray.extract_zero_size
  have enough : machine.sink.written.size + text.toUTF8.size ≤ limit := fits
  simp only [Run.write, Machine.emit, Sink.offer, Machine.capped, Sink.capped, Sink.bounded, Sink.fits, Option.all_some,
    enough, decide_true, if_true, whole]
  rfl

-- What is stored of a text that does not fit.
def cutBytes : ByteArray := text.toUTF8.extract 0 (limit - machine.filled)

theorem write_crossing (crosses : limit < machine.filled + text.toUTF8.size) :
    Run.write line text (machine.capped (some limit)) =
      .fault ⟨.outputFailed Sink.refusal, line⟩ ((machine.wrote text (cutBytes limit text machine)).capped (some limit)) := by
  have full : ¬ machine.sink.written.size + text.toUTF8.size ≤ limit := Nat.not_le.mpr crosses
  simp only [Run.write, Machine.emit, Sink.offer, Machine.capped, Sink.capped, Sink.bounded, Sink.fits, Option.all_some,
    full, decide_false]
  rfl

-- The bytes that fit are the first ones, whatever would have followed.
theorem written_crossing (more : ByteArray) (fits : machine.filled ≤ limit)
    (crosses : limit < machine.filled + text.toUTF8.size) :
    machine.sink.written ++ cutBytes limit text machine =
      (machine.sink.written ++ text.toUTF8 ++ more).extract 0 limit := by
  have early : machine.sink.written.extract 0 limit = machine.sink.written := by
    have largest := @ByteArray.extract_zero_max_size machine.sink.written limit
    have larger : max limit machine.sink.written.size = limit := Nat.max_eq_left fits
    rwa [larger] at largest
  have beyond : limit - (machine.sink.written ++ text.toUTF8).size = 0 := by
    rw [ByteArray.size_append]
    exact Nat.sub_eq_zero_of_le (Nat.le_of_lt crosses)
  rw [ByteArray.extract_append, ByteArray.extract_append, early, beyond, Nat.zero_sub, Nat.zero_sub,
    ByteArray.extract_same, ByteArray.append_empty]
  rfl

end writing

-- The same end on another sink.
def Outcome.onSink {α : Type} (sink : Sink) : Outcome α → Outcome α
  | .done value machine => .done value { machine with sink := sink }
  | .fault reported machine => .fault reported { machine with sink := sink }
  | .outOfFuel => .outOfFuel

namespace Run

variable {α β : Type}

-- A run that does the same on every sink and leaves it alone.
def Silent (run : Run α) : Prop := ∀ machine sink, run { machine with sink := sink } = (run machine).onSink sink

theorem silent_sink (run : Run α) (silent : run.Silent) (machine after : Machine)
    (ended : (run machine).machine? = some after) : after.sink = machine.sink := by
  have same : run machine = (run machine).onSink machine.sink := silent machine machine.sink
  rw [same] at ended
  cases ran : run machine with
  | done | fault =>
      rw [ran] at ended
      cases ended
      rfl
  | outOfFuel =>
      rw [ran] at ended
      cases ended

theorem silent_lift (result : Except Fault α) : Silent (lift result) := by
  intro machine sink
  cases result <;> rfl

theorem silent_change (line : Int) (action : Heap → FrameId → Except Cause Heap) : Silent (change line action) := by
  intro machine sink
  simp only [change]
  cases action machine.heap machine.frame <;> rfl

theorem silent_lookup (label : NodeId) (name : Token) : Silent (lookup label name) := by
  intro machine sink
  have same : Machine.valueOf { machine with sink := sink } label name.lexeme = machine.valueOf label name.lexeme := rfl
  simp only [lookup, same]
  cases machine.valueOf label name.lexeme <;> rfl

theorem silent_store (label : NodeId) (name : Token) (value : Value) : Silent (store label name value) := by
  intro machine sink
  simp only [store]
  cases machine.distances[label]? with
  | none => exact silent_change _ _ machine sink
  | some distance => exact silent_change _ _ machine sink

theorem silent_checkCall (line : Int) (callee : Value) (count : Nat) : Silent (checkCall line callee count) := by
  intro machine sink
  simp only [checkCall]
  cases callee.arity? with
  | none => rfl
  | some arity =>
      by_cases counts : arity = count
      · by_cases full : machine.limit ≤ machine.depth <;> simp [counts, full, Outcome.onSink]
      · simp [counts, Outcome.onSink]

end Run

namespace Traced

variable {α β : Type}

-- Whatever the sink does, a run takes back nothing that is written.
def Appends (run : Traced α) : Prop := ∀ machine : Machine,
  (∀ moment ∈ (run machine).1, machine.Continues moment.machine) ∧
    ∀ after, (run machine).2.machine? = some after → machine.Continues after

theorem appends_quiet (run : Run α)
    (wrote : ∀ machine after, (run machine).machine? = some after → machine.Continues after) : Appends (quiet run) :=
  fun machine => ⟨fun _ inside => absurd inside List.not_mem_nil, wrote machine⟩

theorem appends_silent (run : Run α) (silent : run.Silent) : Appends (quiet run) := by
  apply appends_quiet
  intro machine after ended
  exact continues_of_sink machine after (by rw [Run.silent_sink run silent machine after ended])

theorem appends_bind (first : Traced α) (next : α → Traced β) (start : first.Appends)
    (goOn : ∀ value, (next value).Appends) : Appends (first >>= next) := by
  intro machine
  have early := start machine
  change (∀ moment ∈ (Traced.bind first next machine).1, _) ∧
    ∀ after, (Traced.bind first next machine).2.machine? = some after → _
  unfold Traced.bind
  generalize first machine = ran at early
  obtain ⟨moments, outcome⟩ := ran
  cases outcome with
  | done value between =>
      obtain ⟨recorded, ended⟩ := early
      have further := fun later => continues_trans machine between later (ended between rfl)
      refine ⟨?_, fun after finished => further after ((goOn value between).2 after finished)⟩
      intro moment inside
      rcases List.mem_append.mp inside with before | behind
      · exact recorded moment before
      · exact further _ ((goOn value between).1 moment behind)
  | fault fault between => exact early
  | outOfFuel => exact early

theorem appends_inFrame (frame : FrameId) (body : Traced α) (inside : body.Appends) : Appends (inFrame frame body) := by
  intro machine
  obtain ⟨recorded, ended⟩ := inside { machine with frame := frame }
  refine ⟨recorded, ?_⟩
  intro after finished
  simp only [inFrame, Run.inFrame] at finished
  cases ran : (body { machine with frame := frame }).2 with
  | done _ last | fault _ last =>
      rw [ran] at finished ended
      cases finished
      exact ended last rfl
  | outOfFuel =>
      rw [ran] at finished
      cases finished

theorem appends_deeper (body : Traced α) (inside : body.Appends) : Appends (deeper body) := by
  intro machine
  obtain ⟨recorded, ended⟩ := inside { machine with depth := machine.depth + 1 }
  refine ⟨recorded, ?_⟩
  intro after finished
  simp only [deeper, Run.deeper] at finished
  cases ran : (body { machine with depth := machine.depth + 1 }).2 with
  | done _ last | fault _ last =>
      rw [ran] at finished ended
      cases finished
      exact ended last rfl
  | outOfFuel =>
      rw [ran] at finished
      cases finished

theorem appends_write (line : Int) (text : String) : Appends (quiet (Run.write line text)) := by
  apply appends_quiet
  intro machine after ended
  have wrote : machine.Continues (machine.emit text).2 := ⟨_, rfl⟩
  simp only [Run.write] at ended
  generalize machine.emit text = emitted at ended wrote
  obtain ⟨refusal, last⟩ := emitted
  cases refusal with
  | none | some =>
      cases ended
      exact wrote

theorem appends_compositional : Compositional Appends where
  pure value := appends_silent (pure value) fun _ _ => rfl
  outOfFuel := appends_silent _ fun _ _ => rfl
  bind := appends_bind
  mark moment recorded := by
    refine fun machine => ⟨?_, fun after ended => ?_⟩
    · intro taken inside
      cases List.mem_singleton.mp inside
      rw [recorded.own machine]
      exact continues_of_sink machine machine rfl
    · cases ended
      exact continues_of_sink machine machine rfl
  inFrame := appends_inFrame
  call line callee count body inside :=
    appends_bind _ _ (appends_silent _ (Run.silent_checkCall line callee count)) fun _ => appends_deeper body inside
  lift result := appends_silent _ (Run.silent_lift result)
  change line action := appends_silent _ (Run.silent_change line action)
  newFrame _ := appends_silent _ fun _ _ => rfl
  newInner := appends_silent _ fun _ _ => rfl
  write := appends_write
  readClock := appends_silent _ fun _ _ => rfl
  newClosure _ _ _ := appends_silent _ fun _ _ => rfl
  lookup label name := appends_silent _ (Run.silent_lookup label name)
  store label name value := appends_silent _ (Run.silent_store label name value)

end Traced

-- A statement that prints what does not fit. It is on record, its value was computed, and up to there all fitted.
structure Crossing (limit : Nat) (record : List Moment) where
  fuel : Nat
  keyword : Token
  value : Expr NodeId
  start : Machine
  result : Value
  ready : Machine
  executed : .executes (.print keyword value) (start.capped none) ∈ record.map (Moment.capped none)
  evaluated : eval fuel value (start.capped none) = .done result (ready.capped none)
  fits : ready.filled ≤ limit
  crosses : limit < ready.filled + (result.display ++ "\n").toUTF8.size

namespace Crossing

variable {limit : Nat} {record : List Moment} (crossing : Crossing limit record)

def text : String := crossing.result.display ++ "\n"

def fault : Fault := ⟨.outputFailed Sink.refusal, crossing.keyword.line⟩

-- The machine at the end: only the place of control is another one than when the text was refused.
def stopped (frame : FrameId) (depth : Nat) : Machine :=
  { crossing.ready.wrote crossing.text (cutBytes limit crossing.text crossing.ready) with frame := frame, depth := depth }

-- What a machine would have written that went on.
def PassedBy (after : Machine) : Prop :=
  (crossing.ready.wrote crossing.text crossing.text.toUTF8).Continues after

theorem filled_passed (after : Machine) (passed : crossing.PassedBy after) : limit < after.filled := by
  have more := filled_le _ _ passed
  have size : (crossing.ready.wrote crossing.text crossing.text.toUTF8).filled =
      crossing.ready.filled + crossing.text.toUTF8.size := ByteArray.size_append
  have crosses : limit < crossing.ready.filled + crossing.text.toUTF8.size := crossing.crosses
  omega

def later (before : List Moment) : Crossing limit (before ++ record) :=
  { crossing with
    executed := by
      rw [List.map_append]
      exact List.mem_append_right _ crossing.executed }

end Crossing

-- How a run ends on a sink that takes everything and on one that is full at some number of bytes, with both records.
inductive Truncated {α : Type} (limit : Nat) : List Moment × Outcome α → List Moment × Outcome α → Prop where
  | done (record : List Moment) (value : α) (after : Machine) (early : ∀ moment ∈ record, moment.machine.filled ≤ limit)
      (fits : after.filled ≤ limit) :
      Truncated limit (record.map (Moment.capped none), .done value (after.capped none))
        (record.map (Moment.capped (some limit)), .done value (after.capped (some limit)))
  | fault (record : List Moment) (reported : Fault) (after : Machine)
      (early : ∀ moment ∈ record, moment.machine.filled ≤ limit) (fits : after.filled ≤ limit) :
      Truncated limit (record.map (Moment.capped none), .fault reported (after.capped none))
        (record.map (Moment.capped (some limit)), .fault reported (after.capped (some limit)))
  | unfinished (record : List Moment) (other : List Moment × Outcome α) : Truncated limit (record, .outOfFuel) other
  | cut (record behind : List Moment) (outcome : Outcome α) (crossing : Crossing limit record) (frame : FrameId)
      (depth : Nat) (early : ∀ moment ∈ record, moment.machine.filled ≤ limit)
      (late : ∀ moment ∈ behind, crossing.PassedBy moment.machine)
      (goesOn : ∀ after, outcome.machine? = some after → crossing.PassedBy after) :
      Truncated limit (record.map (Moment.capped none) ++ behind, outcome)
        (record.map (Moment.capped (some limit)), .fault crossing.fault ((crossing.stopped frame depth).capped (some limit)))

namespace Traced

variable {α β : Type} (limit : Nat)

structure Truncates (run : Traced α) : Prop where
  appends : run.Appends
  truncated : ∀ machine : Machine, machine.filled ≤ limit →
    Truncated limit (run (machine.capped none)) (run (machine.capped (some limit)))

theorem truncates_silent (run : Run α) (silent : run.Silent) : Truncates limit (quiet run) := by
  refine ⟨appends_silent run silent, ?_⟩
  intro machine room
  have endless := silent machine (machine.sink.capped none)
  have full := silent machine (machine.sink.capped (some limit))
  simp only [quiet, Machine.capped, endless, full]
  cases ran : run machine with
  | done value after =>
      exact .done [] value { after with sink := machine.sink } (fun _ inside => absurd inside List.not_mem_nil) room
  | fault reported after =>
      exact .fault [] reported { after with sink := machine.sink } (fun _ inside => absurd inside List.not_mem_nil) room
  | outOfFuel => exact .unfinished _ _

-- More is recorded in front of two runs.
theorem truncated_later (before : List Moment) (early : ∀ moment ∈ before, moment.machine.filled ≤ limit)
    (ran other : List Moment × Outcome α) (truncated : Truncated limit ran other) :
    Truncated limit (before.map (Moment.capped none) ++ ran.1, ran.2)
      (before.map (Moment.capped (some limit)) ++ other.1, other.2) := by
  cases truncated with
  | done record value after fitting fits =>
      rw [← List.map_append, ← List.map_append]
      exact .done _ value after (List.forall_mem_append.mpr ⟨early, fitting⟩) fits
  | fault record reported after fitting fits =>
      rw [← List.map_append, ← List.map_append]
      exact .fault _ reported after (List.forall_mem_append.mpr ⟨early, fitting⟩) fits
  | unfinished record other => exact .unfinished _ _
  | cut record behind outcome crossing frame depth fitting late goesOn =>
      rw [← List.append_assoc, ← List.map_append, ← List.map_append]
      exact .cut _ behind outcome (crossing.later before) frame depth (List.forall_mem_append.mpr ⟨early, fitting⟩) late goesOn

-- A run goes on as long as all fits; behind a text that did not fit only the sink that takes everything sees more.
theorem truncated_bind (first : Traced α) (next : α → Traced β) (appends : ∀ value, (next value).Appends)
    (machine : Machine) (start : Truncated limit (first (machine.capped none)) (first (machine.capped (some limit))))
    (goOn : ∀ (record : List Moment) (value : α) (after : Machine),
      first (machine.capped none) = (record.map (Moment.capped none), .done value (after.capped none)) →
      (∀ moment ∈ record, moment.machine.filled ≤ limit) → after.filled ≤ limit →
      Truncated limit
        (record.map (Moment.capped none) ++ (next value (after.capped none)).1, (next value (after.capped none)).2)
        (record.map (Moment.capped (some limit)) ++ (next value (after.capped (some limit))).1,
          (next value (after.capped (some limit))).2)) :
    Truncated limit ((first >>= next) (machine.capped none)) ((first >>= next) (machine.capped (some limit))) := by
  change Truncated limit (Traced.bind first next _) (Traced.bind first next _)
  unfold Traced.bind
  generalize first (machine.capped none) = endless at start goOn ⊢
  generalize first (machine.capped (some limit)) = full at start ⊢
  cases start with
  | done record value between early fits => exact goOn record value between rfl early fits
  | fault record reported after early fits => exact .fault record reported after early fits
  | unfinished record other => exact .unfinished _ _
  | cut record behind outcome crossing frame depth early late goesOn =>
      cases outcome with
      | done value between =>
          obtain ⟨recorded, ended⟩ := appends value between
          have further := fun later => continues_trans _ between later (goesOn between rfl)
          dsimp only
          rw [List.append_assoc]
          refine .cut record _ _ crossing frame depth early ?_ fun after finished => further after (ended after finished)
          exact List.forall_mem_append.mpr ⟨late, fun moment inside => further _ (recorded moment inside)⟩
      | fault reported after =>
          exact .cut record behind (.fault reported after) crossing frame depth early late goesOn
      | outOfFuel => exact .unfinished _ _

theorem truncates_bind (first : Traced α) (next : α → Traced β) (start : Truncates limit first)
    (goOn : ∀ value, Truncates limit (next value)) : Truncates limit (first >>= next) := by
  refine ⟨appends_bind first next start.appends fun value => (goOn value).appends, ?_⟩
  intro machine room
  refine truncated_bind limit first next (fun value => (goOn value).appends) machine (start.truncated machine room) ?_
  intro record value after _ early fits
  exact truncated_later limit record early _ _ ((goOn value).truncated after fits)

theorem truncates_mark (moment : Machine → Moment) (recorded : Moment.Recorded moment) : Truncates limit (mark moment) := by
  refine ⟨appends_compositional.mark moment recorded, ?_⟩
  intro machine room
  have taken (capacity : Option Nat) : moment (machine.capped capacity) = (moment machine).capped capacity := by
    rw [Moment.capped, recorded.own machine, recorded.anywhere machine]
  have fits : ∀ taken ∈ [moment machine], taken.machine.filled ≤ limit := by
    intro taken inside
    rw [List.mem_singleton.mp inside, recorded.own machine]
    exact room
  have both := Truncated.done [moment machine] () machine fits room
  rw [List.map_singleton, List.map_singleton, ← taken, ← taken] at both
  exact both

theorem truncates_inFrame (frame : FrameId) (body : Traced α) (inside : Truncates limit body) :
    Truncates limit (inFrame frame body) := by
  refine ⟨appends_inFrame frame body inside.appends, ?_⟩
  intro machine room
  have ran := inside.truncated { machine with frame := frame } room
  change Truncated limit (body { machine.capped none with frame := frame })
    (body { machine.capped (some limit) with frame := frame }) at ran
  unfold inFrame Run.inFrame
  dsimp only
  generalize body _ = endless at ran ⊢
  generalize body _ = full at ran ⊢
  cases ran with
  | done record value after early fits => exact .done record value { after with frame := machine.frame } early fits
  | fault record reported after early fits =>
      exact .fault record reported { after with frame := machine.frame } early fits
  | unfinished record other => exact .unfinished _ _
  | cut record behind outcome crossing _ depth early late goesOn =>
      refine .cut record behind _ crossing machine.frame depth early late ?_
      intro after ended
      cases outcome with
      | done _ last | fault _ last =>
          cases ended
          exact goesOn last rfl
      | outOfFuel => cases ended

theorem truncates_deeper (body : Traced α) (inside : Truncates limit body) : Truncates limit (deeper body) := by
  refine ⟨appends_deeper body inside.appends, ?_⟩
  intro machine room
  have ran := inside.truncated { machine with depth := machine.depth + 1 } room
  change Truncated limit (body { machine.capped none with depth := (machine.capped none).depth + 1 })
    (body { machine.capped (some limit) with depth := (machine.capped (some limit)).depth + 1 }) at ran
  unfold deeper Run.deeper
  generalize body _ = endless at ran ⊢
  generalize body _ = full at ran ⊢
  cases ran with
  | done record value after early fits => exact .done record value { after with depth := after.depth - 1 } early fits
  | fault record reported after early fits =>
      exact .fault record reported { after with depth := after.depth - 1 } early fits
  | unfinished record other => exact .unfinished _ _
  | cut record behind outcome crossing frame depth early late goesOn =>
      refine .cut record behind _ crossing frame (depth - 1) early late ?_
      intro after ended
      cases outcome with
      | done _ last | fault _ last =>
          cases ended
          exact goesOn last rfl
      | outOfFuel => cases ended

-- Writing as the last part of a statement that prints.

def shows (line : Int) (text : String) : Traced Ending := do
  quiet (Run.write line text)
  return .normal

section shows

variable (line : Int) (text : String) (machine : Machine)

theorem shows_appends : Appends (shows line text) :=
  appends_bind _ _ (appends_write line text) fun _ => appends_compositional.pure _

theorem shows_done (after : Machine) (wrote : Run.write line text machine = .done () after) :
    shows line text machine = ([], .done .normal after) := by
  change Traced.bind _ _ machine = _
  simp only [Traced.bind, quiet, wrote]
  rfl

theorem shows_fault (reported : Fault) (after : Machine) (refused : Run.write line text machine = .fault reported after) :
    shows line text machine = ([], .fault reported after) := by
  change Traced.bind _ _ machine = _
  simp only [Traced.bind, quiet, refused]

end shows

theorem exec_print (fuel : Nat) (keyword : Token) (value : Expr NodeId) :
    exec (fuel + 1) (.print keyword value) =
      (mark (.executes (.print keyword value)) >>= fun _ => eval fuel value) >>= fun result =>
        shows keyword.line (result.display ++ "\n") := by
  rw [← bind_assoc]
  rfl

-- Both ends of a statement whose text does not fit.
theorem truncated_refused (value : α) {record : List Moment} (crossing : Crossing limit record)
    (early : ∀ moment ∈ record, moment.machine.filled ≤ limit) :
    Truncated limit
      (record.map (Moment.capped none),
        .done value ((crossing.ready.wrote crossing.text crossing.text.toUTF8).capped none))
      (record.map (Moment.capped (some limit)),
        .fault crossing.fault ((crossing.stopped crossing.ready.frame crossing.ready.depth).capped (some limit))) := by
  have passed : crossing.PassedBy ((crossing.ready.wrote crossing.text crossing.text.toUTF8).capped none) :=
    continues_of_sink _ _ rfl
  have cut := Truncated.cut record [] (.done value _) crossing crossing.ready.frame crossing.ready.depth early
    (fun _ inside => absurd inside List.not_mem_nil) fun _ finished => Option.some.inj finished ▸ passed
  rwa [List.append_nil] at cut

-- The only step that looks at the capacity. It is taken together with its statement, since the fault tells the line of
-- the keyword.
theorem truncates_print (fuel : Nat) (keyword : Token) (value : Expr NodeId) (inside : Truncates limit (eval fuel value)) :
    Truncates limit (exec (fuel + 1) (.print keyword value)) := by
  refine ⟨appends_compositional.printing.print fuel keyword value inside.appends, ?_⟩
  intro machine room
  have marked := truncates_bind limit _ _ (truncates_mark limit (.executes (.print keyword value))
    ⟨fun _ => rfl, fun _ _ => rfl⟩) fun _ => inside
  have erased := congrFun ((erases_within fuel).eval value) (machine.capped none)
  rw [exec_print]
  refine truncated_bind limit _ _ (fun _ => shows_appends _ _) machine (marked.truncated machine room) ?_
  intro record result ready evaluated early fits
  obtain ⟨recorded, ended⟩ := Prod.mk.inj evaluated
  have whole := shows_done keyword.line _ _ _ (write_endless keyword.line (result.display ++ "\n") ready)
  rw [whole, List.append_nil]
  by_cases crosses : limit < ready.filled + (result.display ++ "\n").toUTF8.size
  · have refused := shows_fault keyword.line _ _ _ _ (write_crossing limit keyword.line _ ready crosses)
    have executed : .executes (.print keyword value) (machine.capped none) ∈ record.map (Moment.capped none) := by
      rw [← recorded]
      exact List.mem_cons_self
    rw [refused, List.append_nil]
    exact truncated_refused limit Ending.normal
      ⟨fuel, keyword, value, machine, result, ready, executed, erased.symm.trans ended, fits, crosses⟩ early
  · have fitting : ready.filled + (result.display ++ "\n").toUTF8.size ≤ limit := Nat.le_of_not_lt crosses
    have written := shows_done keyword.line _ _ _ (write_fitting limit keyword.line _ ready fitting)
    rw [written, List.append_nil]
    refine .done record _ _ early ?_
    rw [Machine.filled, Machine.wrote, ByteArray.size_append]
    exact fitting

theorem truncates_printing : Printing (Truncates limit) where
  pure value := truncates_silent limit (pure value) fun _ _ => rfl
  outOfFuel := truncates_silent limit _ fun _ _ => rfl
  bind := truncates_bind limit
  mark := truncates_mark limit
  inFrame := truncates_inFrame limit
  call line callee count body inside :=
    truncates_bind limit _ _ (truncates_silent limit _ (Run.silent_checkCall line callee count)) fun _ =>
      truncates_deeper limit body inside
  lift result := truncates_silent limit _ (Run.silent_lift result)
  change line action := truncates_silent limit _ (Run.silent_change line action)
  newFrame _ := truncates_silent limit _ fun _ _ => rfl
  newInner := truncates_silent limit _ fun _ _ => rfl
  readClock := truncates_silent limit _ fun _ _ => rfl
  newClosure _ _ _ := truncates_silent limit _ fun _ _ => rfl
  lookup label name := truncates_silent limit _ (Run.silent_lookup label name)
  store label name value := truncates_silent limit _ (Run.silent_store label name value)
  print := truncates_print limit

end Traced

-- The machine at the end of a run that was cut short is where it started.
theorem stopped_restored {limit : Nat} {record : List Moment} (crossing : Crossing limit record) (frame : FrameId)
    (depth : Nat) (machine : Machine) (run : Run Unit) (restores : run.Restores)
    (ran : run (machine.capped (some limit)) = .fault crossing.fault ((crossing.stopped frame depth).capped (some limit))) :
    frame = machine.frame ∧ depth = machine.depth := by
  have restored := restores (machine.capped (some limit))
  rw [ran] at restored
  exact ⟨congrArg Control.frame restored, congrArg Control.depth restored⟩

theorem runProgram_restores (fuel : Nat) (program : List (Stmt NodeId)) : Run.Restores (runProgram fuel program) := by
  rw [← Traced.runProgram_erases]
  exact Traced.runProgram_holds restores_compositional.printing fuel program

-- Where the text of the whole output fits, the end is the same with all that the machine holds. Where it does not, the
-- record up to the statement that is refused is the same, and nothing that is on record behind it is done.
theorem full_sink_truncates (limit fuel : Nat) (program : List (Stmt NodeId)) (machine : Machine)
    (room : machine.filled ≤ limit) (outcome : Outcome Unit) (after : Machine)
    (ran : runProgram fuel program (machine.capped none) = outcome) (ended : outcome.machine? = some after) :
    (after.filled ≤ limit →
      runProgram fuel program (machine.capped (some limit)) = outcome.capped (some limit)) ∧
    (limit < after.filled →
      ∃ (record behind : List Moment) (crossing : Crossing limit record),
        runProgram fuel program (machine.capped (some limit)) =
          .fault ⟨.outputFailed Sink.refusal, crossing.keyword.line⟩
            ((crossing.stopped machine.frame machine.depth).capped (some limit)) ∧
        (crossing.stopped machine.frame machine.depth).sink.written = after.sink.written.extract 0 limit ∧
        crossing.PassedBy after ∧
        (Traced.runProgram fuel program (machine.capped none)).1 = record.map (Moment.capped none) ++ behind ∧
        (Traced.runProgram fuel program (machine.capped (some limit))).1 = record.map (Moment.capped (some limit)) ∧
        (∀ moment ∈ record, moment.machine.filled ≤ limit) ∧
        ∀ moment ∈ behind, limit < moment.machine.filled) := by
  have truncated := (Traced.runProgram_holds (Traced.truncates_printing limit) fuel program).truncated machine room
  have endless := congrFun (Traced.runProgram_erases fuel program) (machine.capped none)
  have full := congrFun (Traced.runProgram_erases fuel program) (machine.capped (some limit))
  have restores := runProgram_restores fuel program
  rw [Traced.erase, ran] at endless
  rw [Traced.erase] at full
  generalize Traced.runProgram fuel program (machine.capped none) = complete at truncated endless ⊢
  generalize Traced.runProgram fuel program (machine.capped (some limit)) = limited at truncated full ⊢
  cases truncated with
  | done record value last early fits | fault record reported last early fits =>
      cases endless
      cases ended
      exact ⟨fun _ => full.symm, fun beyond => absurd fits (Nat.not_le.mpr beyond)⟩
  | unfinished record other =>
      cases endless
      cases ended
  | cut record behind other crossing frame depth early late goesOn =>
      cases endless
      have passed := goesOn after ended
      have beyond := crossing.filled_passed after passed
      refine ⟨fun fits => absurd fits (Nat.not_le.mpr beyond), fun _ => ⟨record, behind, crossing, ?_⟩⟩
      obtain ⟨rfl, rfl⟩ := stopped_restored crossing frame depth machine _ restores full.symm
      refine ⟨full.symm, ?_, passed, rfl, rfl, early, fun moment inside => crossing.filled_passed _ (late moment inside)⟩
      obtain ⟨more, wrote⟩ := passed
      rw [wrote]
      exact written_crossing limit crossing.text crossing.ready more crossing.fits crossing.crosses

-- `fun tell() { print "one"; return "two"; }`, and on the next two lines `print tell();` and `print "three";`

def tellName : Token := ⟨.identifier, "tell", none, 1⟩

def printOn (line : Int) : Token := ⟨.kwPrint, "print", none, line⟩

def telling : List (Stmt NodeId) :=
  [.func tellName [] [.print (printOn 1) (.literal (.text "one")), .ret tellName (some (.literal (.text "two")))],
    .print (printOn 2) (.call (.var 0 tellName) tellName []), .print (printOn 3) (.literal (.text "three"))]

def tellingMachine : Machine := Machine.start 10 (Sink.empty none) (Clock.ticking 0)

def Outcome.fault? {α : Type} : Outcome α → Option Fault
  | .fault reported _ => some reported
  | _ => none

-- The text that a call printed fits, and the text of the statement that made the call does not.
theorem telling_truncated :
    (runProgram 12 telling (tellingMachine.capped none)).machine?.map (·.sink.written) =
      some "one\ntwo\nthree\n".toUTF8 ∧
    ∃ (record : List Moment) (crossing : Crossing 6 record),
      runProgram 12 telling (tellingMachine.capped (some 6)) =
        .fault ⟨.outputFailed "broken pipe", 2⟩ ((crossing.stopped globalFrame 0).capped (some 6)) ∧
      (crossing.stopped globalFrame 0).sink.written = "one\ntw".toUTF8 := by
  have output : (runProgram 12 telling (tellingMachine.capped none)).machine?.map (·.sink.written) =
      some "one\ntwo\nthree\n".toUTF8 := by cbv
  have faulted : (runProgram 12 telling (tellingMachine.capped (some 6))).fault? = some ⟨.outputFailed "broken pipe", 2⟩ := by
    cbv
  obtain ⟨after, ended, written⟩ := Option.map_eq_some_iff.mp output
  obtain ⟨-, cut⟩ := full_sink_truncates 6 12 telling tellingMachine (by decide) _ after rfl ended
  obtain ⟨record, behind, crossing, ran, stored, -⟩ := cut (by rw [Machine.filled, written]; decide)
  rw [ran] at faulted
  refine ⟨output, record, crossing, ?_, ?_⟩
  · rw [ran, Option.some.inj faulted]
    rfl
  · rw [written] at stored
    exact stored

end Treewalk
