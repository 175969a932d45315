import Treewalk.Proofs.Restoring

/-!
Running calls and the bound on them. However a run ends, the current frame and the number of running calls are what they
were before it. A machine with no more calls running than may run never has more at any moment of a run, since a call
of something that takes its arguments is refused, with nothing of it run, exactly if as many calls run as may.
-/

set_option autoImplicit false

namespace Treewalk

-- No more calls are running at this moment than the bound allows.
def Moment.Within (limit : Nat) (moment : Moment) : Prop :=
  moment.machine.limit = limit ∧ moment.machine.depth ≤ limit

theorem checkCall_takes (line : Int) (callee : Value) (count : Nat) (machine : Machine)
    (takes : callee.arity? = some count) :
    checkCall line callee count machine =
      if machine.limit ≤ machine.depth then .fault ⟨.tooDeep, line⟩ machine else .done () machine := by
  simp only [checkCall, takes, ne_eq, not_true, if_false]

namespace Traced

variable {α β : Type}

theorem bind_of_done (first : Traced α) (next : α → Traced β) (machine after : Machine) (moments : List Moment) (value : α)
    (ran : first machine = (moments, .done value after)) :
    (first >>= next) machine = (moments ++ (next value after).1, (next value after).2) := by
  change Traced.bind first next machine = _
  simp only [Traced.bind, ran]

-- From a machine within its bound, all moments of the run are.
def Bounded (run : Traced α) : Prop :=
  ∀ machine, machine.depth ≤ machine.limit → ∀ moment ∈ (run machine).1, moment.Within machine.limit

-- A run that is bounded and also restores can be followed by another one.
structure Contained (run : Traced α) : Prop where
  restores : run.erase.Restores
  bounded : run.Bounded

theorem contained_quiet (run : Run α) (restores : run.Restores) : Contained (quiet run) :=
  ⟨restores, fun _ _ _ inside => nomatch inside⟩

theorem bounded_bind (first : Traced α) (next : α → Traced β) (start : Contained first)
    (goOn : ∀ value, (next value).Bounded) : Bounded (first >>= next) := by
  intro machine within moment inside
  have early := start.bounded machine within
  have kept := start.restores machine
  unfold erase at kept
  cases ran : first machine with
  | mk moments outcome =>
      rw [ran] at early kept
      cases outcome with
      | done value between =>
          have limit : between.limit = machine.limit := congrArg Control.limit kept
          have depth : between.depth = machine.depth := congrArg Control.depth kept
          rw [bind_of_done first next machine between moments value ran] at inside
          rcases List.mem_append.mp inside with before | behind
          · exact early moment before
          · have late := goOn value between (by rw [limit, depth]; exact within) moment behind
            rw [limit] at late
            exact late
      | fault _ _ | outOfFuel =>
          change moment ∈ (Traced.bind first next machine).1 at inside
          simp only [Traced.bind, ran] at inside
          exact early moment inside

-- The body starts one call deeper, which the check has left room for.
theorem bounded_call (line : Int) (callee : Value) (count : Nat) (body : Traced α) (inside : body.Bounded) :
    Bounded (quiet (checkCall line callee count) >>= fun _ => deeper body) := by
  intro machine within moment recorded
  have checked := checkCall_checked line callee count machine
  change moment ∈ (Traced.bind (quiet (checkCall line callee count)) _ machine).1 at recorded
  simp only [Traced.bind, quiet] at recorded
  generalize checkCall line callee count machine = outcome at checked recorded
  cases checked with
  | passed room => exact inside { machine with depth := machine.depth + 1 } room moment recorded
  | refused cause => exact nomatch recorded

theorem contained_compositional : Compositional Contained where
  pure value := contained_quiet (pure value) (restores_compositional.pure value)
  outOfFuel := contained_quiet _ restores_compositional.outOfFuel
  bind first next start goOn :=
    ⟨restores_compositional.bind first next start.restores fun value => (goOn value).restores,
      bounded_bind first next start fun value => (goOn value).bounded⟩
  mark moment recorded := by
    refine ⟨restores_compositional.mark moment recorded, ?_⟩
    intro machine within found inside
    cases List.mem_singleton.mp inside
    unfold Moment.Within
    rw [recorded.own machine]
    exact ⟨rfl, within⟩
  inFrame frame body inside := by
    refine ⟨restores_compositional.inFrame frame body inside.restores, ?_⟩
    intro machine within
    exact inside.bounded { machine with frame := frame } within
  call line callee count body inside :=
    ⟨restores_compositional.call line callee count body inside.restores,
      bounded_call line callee count body inside.bounded⟩
  lift result := contained_quiet _ (restores_compositional.lift result)
  change line action := contained_quiet _ (restores_compositional.change line action)
  newFrame enclosing := contained_quiet _ (restores_compositional.newFrame enclosing)
  newInner := contained_quiet _ restores_compositional.newInner
  write line text := contained_quiet _ (restores_compositional.write line text)
  readClock := contained_quiet _ restores_compositional.readClock
  newClosure name params body := contained_quiet _ (restores_compositional.newClosure name params body)
  lookup label name := contained_quiet _ (restores_compositional.lookup label name)
  store label name value := contained_quiet _ (restores_compositional.store label name value)

-- What a call evaluates before it is made: the callee, then the arguments.
def operands (fuel : Nat) (callee : Expr NodeId) (arguments : List (Expr NodeId)) : Traced (Value × List Value) := do
  let target ← eval fuel callee
  let values ← evalAll fuel arguments
  return (target, values)

theorem operands_erase (fuel : Nat) (callee : Expr NodeId) (arguments : List (Expr NodeId)) :
    (operands fuel callee arguments).erase = (do
      let target ← Treewalk.eval fuel callee
      let values ← Treewalk.evalAll fuel arguments
      return (target, values)) := by
  simp only [operands, erase_bind, erase_pure, (erases_within fuel).eval, (erases_within fuel).evalAll]

-- A function that is called is on record before anything it does.
theorem invoke_starts (fuel : Nat) (callee : Value) (arguments : List Value) (machine : Machine) :
    ∃ later, (invoke (fuel + 1) callee arguments machine).1 = .invokes callee arguments machine :: later :=
  ⟨_, rfl⟩

section call

variable (fuel : Nat) (callee : Expr NodeId) (close : Token) (arguments : List (Expr NodeId)) (machine passed : Machine)
  (moments : List Moment) (target : Value) (values : List Value)

theorem eval_call :
    eval (fuel + 1) (.call callee close arguments) =
      (mark (.evaluates (.call callee close arguments)) >>= fun _ => operands fuel callee arguments >>= fun called =>
        quiet (checkCall close.line called.1 called.2.length) >>= fun _ => deeper (invoke fuel called.1 called.2)) := by
  simp only [eval, operands, ← bind_assoc]
  rfl

theorem operands_restore (ran : operands fuel callee arguments machine = (moments, .done (target, values) passed)) :
    passed.control = machine.control := by
  have parts := Traced.holds_within restores_compositional.printing fuel
  have restores : (operands fuel callee arguments).erase.Restores :=
    restores_compositional.bind _ _ (parts.eval callee) fun _ =>
      restores_compositional.bind _ _ (parts.evalAll arguments) fun _ => restores_compositional.pure _
  have kept := restores machine
  rw [erase, ran] at kept
  exact kept

-- Without fuel no operand is evaluated.
theorem operands_fuel (ran : operands fuel callee arguments machine = (moments, .done (target, values) passed)) :
    ∃ less, fuel = less + 1 := by
  cases fuel with
  | zero => cases ran
  | succ less => exact ⟨less, rfl⟩

variable (ran : operands fuel callee arguments machine = (moments, .done (target, values) passed))
  (takes : target.arity? = some values.length)

include ran takes

theorem eval_call_full (full : passed.limit ≤ passed.depth) :
    eval (fuel + 1) (.call callee close arguments) machine =
      (.evaluates (.call callee close arguments) machine :: moments, .fault ⟨.tooDeep, close.line⟩ passed) := by
  have refused : quiet (checkCall close.line target values.length) passed = ([], .fault ⟨.tooDeep, close.line⟩ passed) := by
    simp only [quiet, checkCall_takes _ target _ passed takes, full, if_true]
  rw [eval_call, bind_of_done _ _ machine machine [.evaluates (.call callee close arguments) machine] () rfl,
    bind_of_done _ _ machine passed moments (target, values) ran]
  change (_ :: (moments ++ (Traced.bind (quiet (checkCall close.line target values.length)) _ passed).1), _) = _
  simp only [Bind.bind, Traced.bind, refused, List.append_nil]

theorem eval_call_room (room : passed.depth < passed.limit) :
    ∃ later, (eval (fuel + 1) (.call callee close arguments) machine).1 =
      .evaluates (.call callee close arguments) machine ::
        (moments ++ .invokes target values { passed with depth := passed.depth + 1 } :: later) := by
  obtain ⟨less, rfl⟩ := operands_fuel fuel callee arguments machine passed moments target values ran
  have allowed : quiet (checkCall close.line target values.length) passed = ([], .done () passed) := by
    simp only [quiet, checkCall_takes _ target _ passed takes, Nat.not_le.mpr room, if_false]
  rw [eval_call, bind_of_done _ _ machine machine [.evaluates (.call callee close arguments) machine] () rfl,
    bind_of_done _ _ machine passed moments (target, values) ran]
  obtain ⟨later, starts⟩ := invoke_starts less target values { passed with depth := passed.depth + 1 }
  refine ⟨later, ?_⟩
  dsimp only
  rw [bind_of_done _ _ passed passed [] () allowed]
  simp only [deeper, starts, List.nil_append, List.singleton_append]

-- A call that is made has its function on record, which one that is refused has not.
theorem eval_call_refused_iff (within : machine.depth ≤ machine.limit) :
    eval (fuel + 1) (.call callee close arguments) machine =
        (.evaluates (.call callee close arguments) machine :: moments, .fault ⟨.tooDeep, close.line⟩ passed) ↔
      passed.depth = passed.limit := by
  have kept := operands_restore fuel callee arguments machine passed moments target values ran
  have limit : passed.limit = machine.limit := congrArg Control.limit kept
  have depth : passed.depth = machine.depth := congrArg Control.depth kept
  constructor
  · intro refused
    by_cases room : passed.depth < passed.limit
    · obtain ⟨later, made⟩ := eval_call_room fuel callee close arguments machine passed moments target values ran takes room
      rw [refused] at made
      simp at made
    · omega
  · intro full
    exact eval_call_full fuel callee close arguments machine passed moments target values ran takes
      (Nat.le_of_eq full.symm)

end call

end Traced

-- What is said of the moments of a run is said of the run itself, which is the recorded one without its record.
theorem control_state_restored (fuel : Nat) :
    (∀ stmt, (exec fuel stmt).Restores) ∧ (∀ expr, (eval fuel expr).Restores) ∧
    (∀ frame stmts, (Run.inFrame frame (execAll fuel stmts)).Restores) ∧
    (∀ callee arguments, (invoke fuel callee arguments).Restores) ∧
    (∀ stmt, (Traced.exec fuel stmt).erase = exec fuel stmt ∧ (Traced.exec fuel stmt).Bounded) ∧
    (∀ expr, (Traced.eval fuel expr).erase = eval fuel expr ∧ (Traced.eval fuel expr).Bounded) ∧
    (∀ frame stmts,
      (Traced.inFrame frame (Traced.execAll fuel stmts)).erase = Run.inFrame frame (execAll fuel stmts) ∧
      (Traced.inFrame frame (Traced.execAll fuel stmts)).Bounded) ∧
    (∀ callee arguments, (Traced.invoke fuel callee arguments).erase = invoke fuel callee arguments ∧
      (Traced.invoke fuel callee arguments).Bounded) ∧
    ∀ (callee : Expr NodeId) (close : Token) (arguments : List (Expr NodeId)),
      (Traced.operands fuel callee arguments).erase = (do
        let target ← eval fuel callee
        let values ← evalAll fuel arguments
        return (target, values)) ∧
      (Traced.eval (fuel + 1) (.call callee close arguments)).erase = eval (fuel + 1) (.call callee close arguments) ∧
      ∀ (machine passed : Machine) (moments : List Moment) (target : Value) (values : List Value),
        machine.depth ≤ machine.limit →
        Traced.operands fuel callee arguments machine = (moments, .done (target, values) passed) →
        target.arity? = some values.length →
        (Traced.eval (fuel + 1) (.call callee close arguments) machine =
            (.evaluates (.call callee close arguments) machine :: moments, .fault ⟨.tooDeep, close.line⟩ passed) ↔
          passed.depth = passed.limit) := by
  have parts := Traced.holds_within Traced.contained_compositional.printing fuel
  have erases := Traced.erases_within fuel
  refine ⟨exec_restores fuel, eval_restores fuel, block_restores fuel, invoke_restores fuel,
    fun stmt => ⟨erases.exec stmt, (parts.exec stmt).bounded⟩, fun expr => ⟨erases.eval expr, (parts.eval expr).bounded⟩,
    ?_, fun callee arguments => ⟨erases.invoke callee arguments, (parts.invoke callee arguments).bounded⟩, ?_⟩
  · intro frame stmts
    refine ⟨?_, (Traced.contained_compositional.inFrame frame _ (parts.execAll stmts)).bounded⟩
    rw [Traced.erase_inFrame, erases.execAll]
  · intro callee close arguments
    refine ⟨Traced.operands_erase fuel callee arguments, (Traced.erases_within (fuel + 1)).eval _, ?_⟩
    intro machine passed moments target values within ran takes
    exact Traced.eval_call_refused_iff fuel callee close arguments machine passed moments target values ran takes within

-- A function that calls itself, on a machine on which as many calls run as may.

def selfName : Token := ⟨.identifier, "again", none, 1⟩

def selfClose : Token := ⟨.rightParen, ")", none, 1⟩

def selfCall : Expr NodeId := .call (.var 0 selfName) selfClose []

def selfCalling : Closure := ⟨0, selfName, [], [.expr selfCall], globalFrame⟩

def fullMachine : Machine :=
  { Machine.start 1 (Sink.empty none) (Clock.ticking 0) with
    heap := (Heap.empty.push none).install globalFrame "again" (.closure selfCalling)
    depth := 1 }

theorem selfCall_refused :
    fullMachine.depth ≤ fullMachine.limit ∧
    Traced.operands 1 (.var 0 selfName) [] fullMachine =
      ([.evaluates (.var 0 selfName) fullMachine], .done (.closure selfCalling, []) fullMachine) ∧
    (Value.closure selfCalling).arity? = some 0 ∧
    Traced.eval 2 selfCall fullMachine =
      ([.evaluates selfCall fullMachine, .evaluates (.var 0 selfName) fullMachine], .fault ⟨.tooDeep, 1⟩ fullMachine) ∧
    eval 2 selfCall fullMachine = .fault ⟨.tooDeep, 1⟩ fullMachine := by
  have within : fullMachine.depth ≤ fullMachine.limit := by decide
  have unrecorded : fullMachine.distances[(0 : NodeId)]? = none := Std.HashMap.getElem?_empty
  have found : fullMachine.valueOf 0 selfName.lexeme = .ok (.closure selfCalling) := by
    unfold Machine.valueOf
    rw [unrecorded]
    rfl
  have looked : Run.lookup 0 selfName fullMachine = .done (.closure selfCalling) fullMachine := by
    unfold Run.lookup
    rw [found]
  have ran : Traced.operands 1 (.var 0 selfName) [] fullMachine =
      ([.evaluates (.var 0 selfName) fullMachine], .done (.closure selfCalling, []) fullMachine) := by
    have evaluated : Traced.eval 1 (.var 0 selfName) fullMachine =
        ([.evaluates (.var 0 selfName) fullMachine], .done (.closure selfCalling) fullMachine) :=
      congrArg (Prod.mk [Moment.evaluates (.var 0 selfName) fullMachine]) looked
    unfold Traced.operands
    rw [Traced.bind_of_done _ _ _ _ _ _ evaluated]
    rfl
  obtain ⟨-, -, -, -, -, -, -, -, calls⟩ := control_state_restored 1
  obtain ⟨-, erased, full⟩ := calls (.var 0 selfName) selfClose []
  have refused := (full fullMachine fullMachine _ _ _ within ran rfl).mpr rfl
  refine ⟨within, ran, rfl, refused, ?_⟩
  exact (congrFun erased fullMachine).symm.trans (congrArg Prod.snd refused)

end Treewalk
