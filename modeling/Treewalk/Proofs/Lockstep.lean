import Treewalk.Proofs.Simulation

/-!
Expressions, calls and statements run alike on the machine and with names and cells, by induction on the fuel. One
lemma for each kind of expression and statement says what a step more of fuel adds.
-/

set_option autoImplicit false

namespace Treewalk.Lexical

def SameEnding (ledger : Ledger) (heap : Heap) (world : World) : Treewalk.Ending → Ending → Prop
  | .normal, .normal => True
  | .returned value, .returned mirror => Same ledger heap world value mirror
  | _, _ => False

-- What holds of all runs with some fuel, for each kind of thing that runs.
structure SimulatesWithin (ledger : Ledger) (fuel : Nat) : Prop where
  eval : ∀ (expr : Expr NodeId) (scopes : List Scope) (names : Names) (waiting : Option String) (world : World)
    (machine : Machine) (state : State), Matched ledger world machine state →
    Sees machine.heap world scopes machine.frame names waiting → (∀ use ∈ expr.uses, ledger.Meets scopes waiting use) →
    Simulates ledger noFrame world machine (fun later heap => Same ledger heap later)
      (Treewalk.eval fuel expr machine) (ledger.manner.eval names waiting fuel expr.strip state)
  evalAll : ∀ (exprs : List (Expr NodeId)) (scopes : List Scope) (names : Names) (waiting : Option String) (world : World)
    (machine : Machine) (state : State), Matched ledger world machine state →
    Sees machine.heap world scopes machine.frame names waiting →
    (∀ use ∈ Expr.usesAll exprs, ledger.Meets scopes waiting use) →
    Simulates ledger noFrame world machine (fun later heap => SameAll ledger heap later)
      (Treewalk.evalAll fuel exprs machine) (ledger.manner.evalAll names waiting fuel (Expr.stripAll exprs) state)
  invoke : ∀ (callee : Treewalk.Value) (mirror : Value) (arguments : List Treewalk.Value) (mirrors : List Value)
    (world : World) (machine : Machine) (state : State), Matched ledger world machine state →
    Same ledger machine.heap world callee mirror → SameAll ledger machine.heap world arguments mirrors →
    callee.arity? = some arguments.length →
    Simulates ledger noFrame world machine (fun later heap => Same ledger heap later)
      (Treewalk.invoke fuel callee arguments machine) (ledger.manner.invoke fuel mirror mirrors state)
  exec : ∀ (stmt : Stmt NodeId) (inFunction inner : Bool) (scopes : List Scope) (place : Place) (world : World)
    (machine : Machine) (state : State), Matched ledger world machine state →
    Stands machine.heap world machine.frame scopes place → place.isInner = inner →
    Fits ledger inFunction inner scopes stmt →
    Simulates ledger (· = machine.frame) world machine
      (fun later heap ending mirror => SameEnding ledger heap later ending mirror.1 ∧
        Stands heap later machine.frame (stmt.after scopes) mirror.2)
      (Treewalk.exec fuel stmt machine) (ledger.manner.exec place fuel stmt.strip state)
  execAll : ∀ (stmts : List (Stmt NodeId)) (inFunction inner : Bool) (scopes : List Scope) (place : Place)
    (world : World) (machine : Machine) (state : State), Matched ledger world machine state →
    Stands machine.heap world machine.frame scopes place → place.isInner = inner →
    FitsAll ledger inFunction inner scopes stmts →
    Simulates ledger (· = machine.frame) world machine (fun later heap => SameEnding ledger heap later)
      (Treewalk.execAll fuel stmts machine) (ledger.manner.execAll place fuel (Stmt.stripAll stmts) state)
  execLoop : ∀ (condition : Expr NodeId) (body : Stmt NodeId) (inFunction inner : Bool) (scopes : List Scope)
    (place : Place) (world : World) (machine : Machine) (state : State), Matched ledger world machine state →
    Stands machine.heap world machine.frame scopes place → place.isInner = inner →
    (∀ use ∈ condition.uses, ledger.Has (.use use scopes)) → Fits ledger inFunction inner scopes body →
    body.strip.isDeclaration = false →
    Simulates ledger (· = machine.frame) world machine
      (fun later heap ending mirror => SameEnding ledger heap later ending mirror ∧
        Stands heap later machine.frame scopes place)
      (Treewalk.execLoop fuel condition body machine) (ledger.manner.execLoop place fuel condition.strip body.strip state)

section expressions

variable (ledger : Ledger) (fuel : Nat) (scopes : List Scope) (names : Names) (waiting : Option String) (world : World)
  (machine : Machine) (state : State)

theorem answer_simulates (line : Int) (answer : Except Cause Datum) (matched : Matched ledger world machine state) :
    Simulates ledger noFrame world machine (fun later heap => Same ledger heap later)
      (Treewalk.Run.lift (answerOn line answer) machine) (lift (answerOn line answer) state) := by
  cases answer with
  | ok datum =>
      exact .done _ _ world machine state (reached_refl ledger noFrame world machine state matched) rfl
  | error cause => exact .fault _ world machine state rfl matched

theorem unary_simulates (operator : Token) (operand : Expr NodeId) (ih : SimulatesWithin ledger fuel)
    (matched : Matched ledger world machine state) (sees : Sees machine.heap world scopes machine.frame names waiting)
    (settled : ∀ use ∈ operand.uses, ledger.Meets scopes waiting use) :
    Simulates ledger noFrame world machine (fun later heap => Same ledger heap later)
      (Treewalk.eval (fuel + 1) (.unary operator operand) machine)
      (ledger.manner.eval names waiting (fuel + 1) (.unary operator operand.strip) state) := by
  simp only [Treewalk.eval, Manner.eval]
  apply simulates_bind ledger noFrame world machine state (fun later heap => Same ledger heap later)
  · exact ih.eval operand scopes names waiting world machine state matched sees settled
  · intro later after state' value mirror reached same
    obtain ⟨answer, ran, mirrored⟩ := alike_applyUnary operator operator value mirror rfl rfl
      (same_alike ledger _ _ value mirror same)
    rw [ran, mirrored]
    exact answer_simulates ledger later after state' operator.line answer reached.matched

theorem binary_simulates (left : Expr NodeId) (operator : Token) (right : Expr NodeId)
    (ih : SimulatesWithin ledger fuel) (matched : Matched ledger world machine state)
    (sees : Sees machine.heap world scopes machine.frame names waiting)
    (settled : ∀ use ∈ left.uses ++ right.uses, ledger.Meets scopes waiting use) :
    Simulates ledger noFrame world machine (fun later heap => Same ledger heap later)
      (Treewalk.eval (fuel + 1) (.binary left operator right) machine)
      (ledger.manner.eval names waiting (fuel + 1) (.binary left.strip operator right.strip) state) := by
  simp only [Treewalk.eval, Manner.eval]
  apply simulates_bind ledger noFrame world machine state (fun later heap => Same ledger heap later)
  · exact ih.eval left scopes names waiting world machine state matched sees
      (fun use inside => settled use (List.mem_append_left _ inside))
  · intro later after state' first firstMirror reached sameFirst
    have sees' := reached_sees ledger world later machine after state' scopes names waiting reached sees
    apply simulates_bind ledger noFrame later after state' (fun later heap => Same ledger heap later)
    · exact ih.eval right scopes names waiting later after state' reached.matched sees'
        (fun use inside => settled use (List.mem_append_right _ inside))
    · intro last final state'' second secondMirror reached' sameSecond
      have sameFirst' := same_grows ledger _ _ _ _ reached'.growth first firstMirror sameFirst
      obtain ⟨answer, ran, mirrored⟩ := alike_applyBinary operator operator first second firstMirror secondMirror rfl rfl
        (same_alike ledger _ _ first firstMirror sameFirst') (same_alike ledger _ _ second secondMirror sameSecond)
      rw [ran, mirrored]
      exact answer_simulates ledger last final state'' operator.line answer reached'.matched

theorem logical_simulates (left : Expr NodeId) (operator : Token) (right : Expr NodeId)
    (ih : SimulatesWithin ledger fuel) (matched : Matched ledger world machine state)
    (sees : Sees machine.heap world scopes machine.frame names waiting)
    (settled : ∀ use ∈ left.uses ++ right.uses, ledger.Meets scopes waiting use) :
    Simulates ledger noFrame world machine (fun later heap => Same ledger heap later)
      (Treewalk.eval (fuel + 1) (.logical left operator right) machine)
      (ledger.manner.eval names waiting (fuel + 1) (.logical left.strip operator right.strip) state) := by
  simp only [Treewalk.eval, Manner.eval]
  apply simulates_bind ledger noFrame world machine state (fun later heap => Same ledger heap later)
  · exact ih.eval left scopes names waiting world machine state matched sees
      (fun use inside => settled use (List.mem_append_left _ inside))
  · intro later after state' first mirror reached same
    have sees' := reached_sees ledger world later machine after state' scopes names waiting reached sees
    rw [alike_decides operator operator first mirror rfl (same_alike ledger _ _ first mirror same)]
    split
    · exact simulates_pure ledger noFrame later after state' _ first mirror reached.matched same
    · exact ih.eval right scopes names waiting later after state' reached.matched sees'
        (fun use inside => settled use (List.mem_append_right _ inside))

theorem ternary_simulates (condition yes no : Expr NodeId) (ih : SimulatesWithin ledger fuel)
    (matched : Matched ledger world machine state) (sees : Sees machine.heap world scopes machine.frame names waiting)
    (settled : ∀ use ∈ condition.uses ++ yes.uses ++ no.uses, ledger.Meets scopes waiting use) :
    Simulates ledger noFrame world machine (fun later heap => Same ledger heap later)
      (Treewalk.eval (fuel + 1) (.ternary condition yes no) machine)
      (ledger.manner.eval names waiting (fuel + 1) (.ternary condition.strip yes.strip no.strip) state) := by
  simp only [Treewalk.eval, Manner.eval]
  apply simulates_bind ledger noFrame world machine state (fun later heap => Same ledger heap later)
  · exact ih.eval condition scopes names waiting world machine state matched sees
      (fun use inside => settled use (List.mem_append_left _ (List.mem_append_left _ inside)))
  · intro later after state' test mirror reached same
    have sees' := reached_sees ledger world later machine after state' scopes names waiting reached sees
    rw [Value.alike_toBool test mirror (same_alike ledger _ _ test mirror same)]
    split
    · exact ih.eval yes scopes names waiting later after state' reached.matched sees'
        (fun use inside => settled use (List.mem_append_left _ (List.mem_append_right _ inside)))
    · exact ih.eval no scopes names waiting later after state' reached.matched sees'
        (fun use inside => settled use (List.mem_append_right _ inside))

theorem comma_simulates (first second : Expr NodeId) (ih : SimulatesWithin ledger fuel)
    (matched : Matched ledger world machine state) (sees : Sees machine.heap world scopes machine.frame names waiting)
    (settled : ∀ use ∈ first.uses ++ second.uses, ledger.Meets scopes waiting use) :
    Simulates ledger noFrame world machine (fun later heap => Same ledger heap later)
      (Treewalk.eval (fuel + 1) (.comma first second) machine)
      (ledger.manner.eval names waiting (fuel + 1) (.comma first.strip second.strip) state) := by
  simp only [Treewalk.eval, Manner.eval]
  apply simulates_bind ledger noFrame world machine state (fun later heap => Same ledger heap later)
  · exact ih.eval first scopes names waiting world machine state matched sees
      (fun use inside => settled use (List.mem_append_left _ inside))
  · intro later after state' _ _ reached _
    have sees' := reached_sees ledger world later machine after state' scopes names waiting reached sees
    exact ih.eval second scopes names waiting later after state' reached.matched sees'
      (fun use inside => settled use (List.mem_append_right _ inside))

theorem assign_simulates (label : NodeId) (name : Token) (value : Expr NodeId) (ih : SimulatesWithin ledger fuel)
    (matched : Matched ledger world machine state) (sees : Sees machine.heap world scopes machine.frame names waiting)
    (settled : ∀ use ∈ value.uses ++ [⟨label, name, true⟩], ledger.Meets scopes waiting use) :
    Simulates ledger noFrame world machine (fun later heap => Same ledger heap later)
      (Treewalk.eval (fuel + 1) (.assign label name value) machine)
      (ledger.manner.eval names waiting (fuel + 1) (.assign () name value.strip) state) := by
  simp only [Treewalk.eval, Manner.eval]
  apply simulates_bind ledger noFrame world machine state (fun later heap => Same ledger heap later)
  · exact ih.eval value scopes names waiting world machine state matched sees
      (fun use inside => settled use (List.mem_append_left _ inside))
  · intro later after state' result mirror reached same
    have sees' := reached_sees ledger world later machine after state' scopes names waiting reached sees
    apply simulates_bind ledger noFrame later after state' (fun _ _ _ _ => True)
    · exact assign_store_simulates ledger later after state' label name scopes names waiting result mirror reached.matched
        sees'
        (settled _ (List.mem_append_right _ (List.mem_singleton.mpr rfl))) same
    · intro last final state'' _ _ reached' _
      exact simulates_pure ledger noFrame last final state'' _ result mirror reached'.matched
        (same_grows ledger _ _ _ _ reached'.growth result mirror same)

theorem call_simulates (callee : Expr NodeId) (close : Token) (arguments : List (Expr NodeId))
    (ih : SimulatesWithin ledger fuel) (matched : Matched ledger world machine state)
    (sees : Sees machine.heap world scopes machine.frame names waiting)
    (settled : ∀ use ∈ callee.uses ++ Expr.usesAll arguments, ledger.Meets scopes waiting use) :
    Simulates ledger noFrame world machine (fun later heap => Same ledger heap later)
      (Treewalk.eval (fuel + 1) (.call callee close arguments) machine)
      (ledger.manner.eval names waiting (fuel + 1) (.call callee.strip close (Expr.stripAll arguments)) state) := by
  simp only [Treewalk.eval, Manner.eval]
  apply simulates_bind ledger noFrame world machine state (fun later heap => Same ledger heap later)
  · exact ih.eval callee scopes names waiting world machine state matched sees
      (fun use inside => settled use (List.mem_append_left _ inside))
  · intro later after state' target targetMirror reached sameTarget
    have sees' := reached_sees ledger world later machine after state' scopes names waiting reached sees
    apply simulates_bind ledger noFrame later after state' (fun later heap => SameAll ledger heap later)
    · exact ih.evalAll arguments scopes names waiting later after state' reached.matched sees'
        (fun use inside => settled use (List.mem_append_right _ inside))
    · intro last final state'' values mirrors reached' sameValues
      have sameTarget' := same_grows ledger _ _ _ _ reached'.growth target targetMirror sameTarget
      rw [sameAll_length ledger last final.heap values mirrors sameValues]
      apply simulates_bind ledger noFrame last final state'' (fun _ _ _ _ => target.arity? = some mirrors.length)
      · exact checkCall_simulates ledger last final state'' close.line target targetMirror mirrors.length reached'.matched
          sameTarget'
      · intro world' machine' stateNow _ _ reachedNow arity
        rw [← sameAll_length ledger last final.heap values mirrors sameValues] at arity
        apply deeper_simulates ledger world' machine' stateNow _ _ _ reachedNow.matched
          (invoke_restores fuel target values)
        rintro machineIn stateIn rfl matchedIn rfl
        exact ih.invoke target targetMirror values mirrors world' _ _ matchedIn
          (same_grows ledger _ _ _ _ reachedNow.growth target targetMirror sameTarget')
          (sameAll_grows ledger _ _ _ _ reachedNow.growth values mirrors sameValues) arity

theorem eval_simulates (expr : Expr NodeId) (ih : SimulatesWithin ledger fuel)
    (matched : Matched ledger world machine state) (sees : Sees machine.heap world scopes machine.frame names waiting)
    (settled : ∀ use ∈ expr.uses, ledger.Meets scopes waiting use) :
    Simulates ledger noFrame world machine (fun later heap => Same ledger heap later)
      (Treewalk.eval (fuel + 1) expr machine) (ledger.manner.eval names waiting (fuel + 1) expr.strip state) := by
  cases expr with
  | literal value =>
      simp only [Expr.strip, Treewalk.eval, Manner.eval]
      exact simulates_pure ledger noFrame world machine state _ _ _ matched rfl
  | group inner =>
      simp only [Expr.strip, Treewalk.eval, Manner.eval]
      exact ih.eval inner scopes names waiting world machine state matched sees settled
  | unary operator operand =>
      exact unary_simulates ledger fuel scopes names waiting world machine state operator operand ih matched sees settled
  | binary left operator right =>
      exact binary_simulates ledger fuel scopes names waiting world machine state left operator right ih matched sees settled
  | logical left operator right =>
      exact logical_simulates ledger fuel scopes names waiting world machine state left operator right ih matched sees settled
  | ternary condition yes no =>
      exact ternary_simulates ledger fuel scopes names waiting world machine state condition yes no ih matched sees settled
  | comma first second =>
      exact comma_simulates ledger fuel scopes names waiting world machine state first second ih matched sees settled
  | var label name =>
      simp only [Expr.strip, Treewalk.eval, Manner.eval]
      exact lookup_simulates ledger world machine state label name scopes names matched sees.linked
        (meets_read ledger scopes waiting label name (settled _ (List.mem_singleton.mpr rfl)))
  | assign label name value =>
      exact assign_simulates ledger fuel scopes names waiting world machine state label name value ih matched sees settled
  | call callee close arguments =>
      exact call_simulates ledger fuel scopes names waiting world machine state callee close arguments ih matched sees settled

theorem evalAll_simulates (exprs : List (Expr NodeId)) (ih : SimulatesWithin ledger fuel)
    (matched : Matched ledger world machine state) (sees : Sees machine.heap world scopes machine.frame names waiting)
    (settled : ∀ use ∈ Expr.usesAll exprs, ledger.Meets scopes waiting use) :
    Simulates ledger noFrame world machine (fun later heap => SameAll ledger heap later)
      (Treewalk.evalAll (fuel + 1) exprs machine) (ledger.manner.evalAll names waiting (fuel + 1) (Expr.stripAll exprs) state) := by
  cases exprs with
  | nil =>
      simp only [Expr.stripAll, Treewalk.evalAll, Manner.evalAll]
      exact simulates_pure ledger noFrame world machine state _ _ _ matched trivial
  | cons first rest =>
      simp only [Expr.stripAll, Treewalk.evalAll, Manner.evalAll]
      apply simulates_bind ledger noFrame world machine state (fun later heap => Same ledger heap later)
      · exact ih.eval first scopes names waiting world machine state matched sees
          (fun use inside => settled use (List.mem_append_left _ inside))
      · intro later after state' value mirror reached same
        have sees' := reached_sees ledger world later machine after state' scopes names waiting reached sees
        apply simulates_bind ledger noFrame later after state' (fun later heap => SameAll ledger heap later)
        · exact ih.evalAll rest scopes names waiting later after state' reached.matched sees'
            (fun use inside => settled use (List.mem_append_right _ inside))
        · intro last final state'' values mirrors reached' sameRest
          exact simulates_pure ledger noFrame last final state'' _ _ _ reached'.matched
            ⟨same_grows ledger _ _ _ _ reached'.growth value mirror same, sameRest⟩

end expressions

section statements

variable (ledger : Ledger) (fuel : Nat) (inFunction inner : Bool) (scopes : List Scope) (place : Place)
  (world : World) (machine : Machine) (state : State)

-- Uses in an initializer. The variable's own name is not read there, and if it is assigned, that is refused.
theorem meets_initial (name : Token) (uses : List (Use NodeId))
    (settled : ∀ use ∈ uses, ledger.Has (.use use (Scope.declare name scopes)))
    (undeclared : ledger.Has (.binding name scopes)) (nonempty : scopes ≠ [])
    (plain : ledger.refuses = false →
      (uses.map Use.strip).filter (fun use => use.writes && use.name.lexeme == name.lexeme) = []) :
    ∀ use ∈ uses, ledger.Meets scopes (some name.lexeme) use := by
  intro use inside
  cases scopes with
  | nil => exact absurd rfl nonempty
  | cons innermost outer =>
      have free : innermost.declares name.lexeme = false := undeclared innermost rfl
      have declared : Scope.declare name (innermost :: outer) = ((name.lexeme, false) :: innermost) :: outer := by
        simp [Scope.declare, free]
      obtain ⟨label, used, writes⟩ := use
      obtain ⟨below, recorded, ready⟩ := settled _ inside
      rw [declared] at recorded ready
      by_cases same : used.lexeme = name.lexeme
      · cases writes with
        | false => exact absurd (by simp [Scope.pending, same]) (ready rfl)
        | true =>
            cases refuses : ledger.refuses with
            | false =>
                have unwritten := plain refuses
                rw [List.filter_eq_nil_iff] at unwritten
                have other := unwritten ⟨(), used, true⟩ (List.mem_map.mpr ⟨_, inside, rfl⟩)
                simp [same] at other
            | true =>
                simp only [Ledger.Meets, refuses, same, beq_self_eq_true, Bool.and_self, if_true, true_and]
                rw [recorded]
                simp [Scope.distance?, List.findIdx?_cons, Scope.declares, same]
      · have apart : (used.lexeme == name.lexeme) = false := beq_false_of_ne same
        have others : (some name.lexeme == some used.lexeme) = false := beq_false_of_ne (by simpa using Ne.symm same)
        simp only [Ledger.Meets, others, Bool.and_false, Bool.false_eq_true, if_false]
        refine ⟨below, ?_, ?_⟩
        · rw [recorded]
          simp [Scope.distance?, List.findIdx?_cons, Scope.declares, List.lookup_cons, apart]
        · intro reads early
          apply ready reads
          simpa [Scope.pending, List.lookup_cons, apart] using early

-- Back at the place a statement started from, which declared nothing.
theorem stands_again (changed : FrameId → Prop) (later : World) (after : Machine) (state' : State) (place' : Place)
    (reached : Reached ledger changed world machine later after state')
    (stands : Stands machine.heap world machine.frame scopes place)
    (stands' : Stands after.heap later machine.frame scopes place') :
    Stands after.heap later machine.frame scopes place := by
  cases scopes with
  | nil =>
      cases place with
      | outermost => exact stands
      | inner names => exact stands.elim
  | cons scope outer =>
      cases place with
      | outermost => exact stands.elim
      | inner names =>
          cases place' with
          | outermost => exact stands'.elim
          | inner names' =>
              exact ⟨linked_grows _ _ _ _ reached.growth _ _ _ stands.1, stands'.2⟩

-- An expression evaluated where a statement stands.
theorem value_simulates (expr : Expr NodeId) (ih : SimulatesWithin ledger fuel)
    (matched : Matched ledger world machine state) (stands : Stands machine.heap world machine.frame scopes place)
    (settled : ∀ use ∈ expr.uses, ledger.Has (.use use scopes)) :
    Simulates ledger noFrame world machine (fun later heap => Same ledger heap later)
      (Treewalk.eval fuel expr machine) (ledger.manner.eval place.names none fuel expr.strip state) :=
  ih.eval expr scopes place.names none world machine state matched (stands_sees _ _ _ _ _ stands)
    (fun use inside => meets_has ledger scopes use (settled use inside))

-- Statements that evaluate an expression and leave the place as it is.
theorem evaluated_simulates (expr : Expr NodeId) (next : Treewalk.Value → Treewalk.Run Treewalk.Ending)
    (mirrorNext : Value → Run (Ending × Place)) (ih : SimulatesWithin ledger fuel)
    (matched : Matched ledger world machine state) (stands : Stands machine.heap world machine.frame scopes place)
    (settled : ∀ use ∈ expr.uses, ledger.Has (.use use scopes))
    (goOn : ∀ later after state' value mirror, Matched ledger later after state' →
      Stands after.heap later after.frame scopes place → Same ledger after.heap later value mirror →
      Simulates ledger noFrame later after (fun later heap ending mirror => SameEnding ledger heap later ending mirror.1 ∧
        Stands heap later after.frame scopes mirror.2) (next value after) (mirrorNext mirror state')) :
    Simulates ledger noFrame world machine
      (fun later heap ending mirror => SameEnding ledger heap later ending mirror.1 ∧
        Stands heap later machine.frame scopes mirror.2)
      ((Treewalk.eval fuel expr >>= next) machine) ((ledger.manner.eval place.names none fuel expr.strip >>= mirrorNext) state) := by
  apply simulates_bind ledger noFrame world machine state (fun later heap => Same ledger heap later)
  · exact value_simulates ledger fuel scopes place world machine state expr ih matched stands settled
  · intro later after state' value mirror reached same
    have rest := goOn later after state' value mirror reached.matched
      (reached_stands ledger world later machine after state' scopes place reached stands) same
    rw [reached.frame] at rest
    exact rest

theorem return_simulates (keyword : Token) (value : Option (Expr NodeId)) (ih : SimulatesWithin ledger fuel)
    (matched : Matched ledger world machine state) (stands : Stands machine.heap world machine.frame scopes place)
    (settled : ∀ use ∈ Expr.usesOption value, ledger.Has (.use use scopes)) :
    Simulates ledger noFrame world machine
      (fun later heap ending mirror => SameEnding ledger heap later ending mirror.1 ∧
        Stands heap later machine.frame scopes mirror.2)
      (Treewalk.exec (fuel + 1) (.ret keyword value) machine)
      (ledger.manner.exec place (fuel + 1) (.ret keyword (value.map Expr.strip)) state) := by
  cases value with
  | none =>
      simp only [Option.map_none, Treewalk.exec, Manner.exec, manner_loops]
      exact simulates_pure ledger noFrame world machine state _ _ _ matched ⟨rfl, stands⟩
  | some value =>
      simp only [Option.map_some, Treewalk.exec, Manner.exec, manner_loops]
      apply evaluated_simulates ledger fuel scopes place world machine state value _ _ ih matched stands settled
      intro later after state' result mirror matched' stands' same
      exact simulates_pure ledger noFrame later after state' _ _ _ matched' ⟨same, stands'⟩

theorem print_simulates (keyword : Token) (value : Expr NodeId) (ih : SimulatesWithin ledger fuel)
    (matched : Matched ledger world machine state) (stands : Stands machine.heap world machine.frame scopes place)
    (settled : ∀ use ∈ value.uses, ledger.Has (.use use scopes)) :
    Simulates ledger noFrame world machine
      (fun later heap ending mirror => SameEnding ledger heap later ending mirror.1 ∧
        Stands heap later machine.frame scopes mirror.2)
      (Treewalk.exec (fuel + 1) (.print keyword value) machine)
      (ledger.manner.exec place (fuel + 1) (.print keyword value.strip) state) := by
  simp only [Treewalk.exec, Manner.exec, manner_loops]
  apply evaluated_simulates ledger fuel scopes place world machine state value _ _ ih matched stands settled
  intro later after state' result mirror matched' stands' same
  rw [Value.alike_display result mirror (same_alike ledger _ _ result mirror same)]
  apply simulates_bind ledger noFrame later after state' (fun _ _ _ _ => True)
  · exact write_simulates ledger later after state' noFrame keyword.line _ matched'
  · intro last final state'' _ _ reached _
    have stands'' := reached_stands ledger later last after final state'' scopes place reached stands'
    rw [reached.frame] at stands''
    exact simulates_pure ledger noFrame last final state'' _ _ _ reached.matched ⟨trivial, stands''⟩

theorem exprStmt_simulates (value : Expr NodeId) (ih : SimulatesWithin ledger fuel)
    (matched : Matched ledger world machine state) (stands : Stands machine.heap world machine.frame scopes place)
    (settled : ∀ use ∈ value.uses, ledger.Has (.use use scopes)) :
    Simulates ledger noFrame world machine
      (fun later heap ending mirror => SameEnding ledger heap later ending mirror.1 ∧
        Stands heap later machine.frame scopes mirror.2)
      (Treewalk.exec (fuel + 1) (.expr value) machine) (ledger.manner.exec place (fuel + 1) (.expr value.strip) state) := by
  simp only [Treewalk.exec, Manner.exec, manner_loops]
  apply evaluated_simulates ledger fuel scopes place world machine state value _ _ ih matched stands settled
  intro later after state' _ _ matched' stands' _
  exact simulates_pure ledger noFrame later after state' _ _ _ matched' ⟨trivial, stands'⟩

-- The end of a declaration: the place behind it.
theorem declared_simulates (name : Token) (slot : Slot) (content : Option Value)
    (matched : Matched ledger world machine state) (stands : Stands machine.heap world machine.frame scopes place)
    (settled : ledger.Has (.binding name scopes))
    (same : SameSlot ledger machine.heap world (some slot) (some content)) :
    Simulates ledger (· = machine.frame) world machine
      (fun later heap ending mirror => SameEnding ledger heap later ending mirror.1 ∧
        Stands heap later machine.frame (Scope.bind name scopes) mirror.2)
      ((Treewalk.Run.change name.line (fun heap frame => heap.bind frame name.lexeme slot) >>=
        fun _ => pure Treewalk.Ending.normal) machine)
      ((declare place name content >>= fun after => pure (Ending.normal, after)) state) := by
  apply simulates_bind ledger (· = machine.frame) world machine state
    (fun later heap _ after => Stands heap later machine.frame (Scope.bind name scopes) after)
  · exact declare_simulates ledger world machine state name slot content scopes place matched stands settled same
  · intro later after state' _ place' reached stands'
    exact simulates_pure ledger _ later after state' _ _ _ reached.matched ⟨trivial, stands'⟩

-- An initializer sees the names before the declaration, and in a local scope the variable that waits for its value.
theorem initial_simulates (name : Token) (value : Expr NodeId) (ih : SimulatesWithin ledger fuel)
    (matched : Matched ledger world machine state) (stands : Stands machine.heap world machine.frame scopes place)
    (isInner : place.isInner = inner)
    (settled : ∀ use ∈ value.uses, ledger.Has (.use use (Scope.declare name scopes)))
    (binding : ledger.Has (.binding name scopes))
    (plain : ledger.refuses = false → inner = true →
      value.strip.uses.filter (fun use => use.writes && use.name.lexeme == name.lexeme) = []) :
    Simulates ledger noFrame world machine (fun later heap => Same ledger heap later)
      (Treewalk.eval fuel value machine)
      (ledger.manner.eval place.names (place.waiting name) fuel value.strip state) := by
  cases scopes with
  | nil =>
      cases place with
      | inner names => exact stands.elim
      | outermost => exact value_simulates ledger fuel [] .outermost world machine state value ih matched stands settled
  | cons scope outer =>
      cases place with
      | outermost => exact stands.elim
      | inner names =>
          rw [Expr.uses_strip] at plain
          have meets := meets_initial ledger (scope :: outer) name value.uses settled binding (List.cons_ne_nil _ _)
            fun accepts => plain accepts isInner.symm
          have undeclared : scope.declares name.lexeme = false := binding scope rfl
          apply ih.eval value (scope :: outer) names (some name.lexeme) world machine state matched ?_ meets
          refine ⟨stands.1, ?_⟩
          intro waiting waits
          cases waits
          have missing := stands.2 name.lexeme
          rw [undeclared, Option.isSome_eq_false_iff, Option.isNone_iff_eq_none] at missing
          exact ⟨stands.1.1, stands.1.2.1, missing⟩

theorem var_simulates (name : Token) (value : Option (Expr NodeId)) (ih : SimulatesWithin ledger fuel)
    (matched : Matched ledger world machine state) (stands : Stands machine.heap world machine.frame scopes place)
    (isInner : place.isInner = inner) (fits : Fits ledger inFunction inner scopes (.var name value)) :
    Simulates ledger (· = machine.frame) world machine
      (fun later heap ending mirror => SameEnding ledger heap later ending mirror.1 ∧
        Stands heap later machine.frame (Scope.bind name scopes) mirror.2)
      (Treewalk.exec (fuel + 1) (.var name value) machine)
      (ledger.manner.exec place (fuel + 1) (.var name (value.map Expr.strip)) state) := by
  have binding : ledger.Has (.binding name scopes) := fits.settled _ List.mem_cons_self
  cases value with
  | none =>
      simp only [Option.map_none, Treewalk.exec, Manner.exec, manner_loops]
      exact declared_simulates ledger scopes place world machine state name .unassigned none matched stands binding trivial
  | some value =>
      have settled : ∀ use ∈ value.uses, ledger.Has (.use use (Scope.declare name scopes)) := by
        intro use inside
        exact fits.settled _ (List.mem_cons_of_mem _ (List.mem_map.mpr ⟨use, inside, rfl⟩))
      have evaluated : Simulates ledger noFrame world machine (fun later heap => Same ledger heap later)
          (Treewalk.eval fuel value machine)
          (ledger.manner.eval place.names (place.waiting name) fuel value.strip state) :=
        initial_simulates ledger fuel inner scopes place world machine state name value ih matched stands isInner settled
          binding fun accepts => by simpa [Stmt.strip, Stmt.ownWrites, Expr.usesOption] using fits.plain accepts
      simp only [Option.map_some, Treewalk.exec, Manner.exec, manner_loops]
      apply simulates_bind ledger (· = machine.frame) world machine state (fun later heap value mirror =>
        Same ledger heap later value mirror ∧ Stands heap later machine.frame scopes place)
      · apply simulates_weaken ledger _ world machine noFrame (fun later heap => Same ledger heap later)
        · exact evaluated
        · exact fun _ => False.elim
        · intro later after state' result mirror reached same
          have stands' := reached_stands ledger world later machine after state' scopes place reached stands
          rw [reached.frame] at stands'
          exact ⟨same, stands'⟩
      · rintro later after state' result mirror reached ⟨same, stands'⟩
        rw [← reached.frame] at stands' ⊢
        exact declared_simulates ledger scopes place later after state' name (.holds result) (some mirror)
          reached.matched stands' binding same

theorem func_simulates (name : Token) (params : List Token) (body : List (Stmt NodeId))
    (matched : Matched ledger world machine state) (stands : Stands machine.heap world machine.frame scopes place)
    (fits : Fits ledger inFunction inner scopes (.func name params body)) :
    Simulates ledger (· = machine.frame) world machine
      (fun later heap ending mirror => SameEnding ledger heap later ending mirror.1 ∧
        Stands heap later machine.frame (Scope.bind name scopes) mirror.2)
      (Treewalk.exec (fuel + 1) (.func name params body) machine)
      (ledger.manner.exec place (fuel + 1) (.func name params (Stmt.stripAll body)) state) := by
  have binding : ledger.Has (.binding name scopes) := fits.settled _ List.mem_cons_self
  have bindings : ∀ mention ∈ bindingMentions ([] :: Scope.bind name scopes) params, ledger.Has mention := by
    intro mention inside
    exact fits.settled mention (List.mem_append_left _ (List.mem_cons_of_mem _ inside))
  have bodyFits : FitsAll ledger true true (Scope.bindAll ([] :: Scope.bind name scopes) params) body :=
    ⟨fun mention inside => fits.settled mention (List.mem_append_right _ inside), fits.placed, fits.plain⟩
  simp only [Treewalk.exec, Manner.exec, manner_loops]
  rw [run_assoc]
  apply simulates_bind ledger (· = machine.frame) world machine state
    (fun later heap _ after => Stands heap later machine.frame (Scope.bind name scopes) after)
  · exact declareFunction_simulates ledger world machine state name params body scopes place matched stands binding
      bindings bodyFits
  · intro later after state' _ place' reached stands'
    exact simulates_pure ledger _ later after state' _ _ _ reached.matched ⟨trivial, stands'⟩

theorem block_simulates (body : List (Stmt NodeId)) (ih : SimulatesWithin ledger fuel)
    (matched : Matched ledger world machine state) (stands : Stands machine.heap world machine.frame scopes place)
    (fits : FitsAll ledger inFunction true ([] :: scopes) body) :
    Simulates ledger noFrame world machine
      (fun later heap ending mirror => SameEnding ledger heap later ending mirror.1 ∧
        Stands heap later machine.frame scopes mirror.2)
      (Treewalk.exec (fuel + 1) (.block body) machine) (ledger.manner.exec place (fuel + 1) (.block (Stmt.stripAll body)) state) := by
  simp only [Treewalk.exec, Manner.exec, manner_loops]
  apply simulates_then ledger noFrame world machine state (fun later heap => SameEnding ledger heap later)
  · apply inner_simulates ledger world machine state (fun later heap => SameEnding ledger heap later) machine.frame
      (Treewalk.execAll fuel body) (ledger.manner.execAll (.inner place.names) fuel (Stmt.stripAll body)) matched
    rintro machine' rfl matched'
    exact ih.execAll body inFunction true ([] :: scopes) (.inner place.names) world _ state matched'
      (stands_inner ledger world machine state machine.frame scopes place.names matched (stands_linked _ _ _ _ _ stands))
      rfl fits
  · intro later after state' ending mirror reached same
    have stands' := reached_stands ledger world later machine after state' scopes place reached stands
    rw [reached.frame] at stands'
    exact simulates_pure ledger noFrame later after state' _ ending _ reached.matched ⟨same, stands'⟩

-- A statement that declares nothing, run where another one stands.
theorem inside_simulates (stmt : Stmt NodeId) (ih : SimulatesWithin ledger fuel)
    (matched : Matched ledger world machine state) (stands : Stands machine.heap world machine.frame scopes place)
    (isInner : place.isInner = inner) (fits : Fits ledger inFunction inner scopes stmt)
    (plain : stmt.strip.isDeclaration = false) :
    Simulates ledger (· = machine.frame) world machine
      (fun later heap ending mirror => SameEnding ledger heap later ending mirror.1 ∧
        Stands heap later machine.frame scopes place)
      (Treewalk.exec fuel stmt machine) (ledger.manner.exec place fuel stmt.strip state) := by
  apply simulates_weaken ledger _ world machine (· = machine.frame)
  · exact ih.exec stmt inFunction inner scopes place world machine state matched stands isInner fits
  · exact fun _ same => same
  · rintro later after state' ending mirror reached ⟨same, stands'⟩
    rw [Stmt.after_unchanged scopes stmt fits.placed plain] at stands'
    exact ⟨same, stands_again ledger scopes place world machine _ later after state' mirror.2 reached stands stands'⟩

theorem chosen_simulates (stmt : Stmt NodeId) (ih : SimulatesWithin ledger fuel)
    (matched : Matched ledger world machine state) (stands : Stands machine.heap world machine.frame scopes place)
    (isInner : place.isInner = inner) (fits : Fits ledger inFunction inner scopes stmt)
    (plain : stmt.strip.isDeclaration = false) :
    Simulates ledger (· = machine.frame) world machine
      (fun later heap ending mirror => SameEnding ledger heap later ending mirror.1 ∧
        Stands heap later machine.frame scopes mirror.2)
      (Treewalk.exec fuel stmt machine)
      ((ledger.manner.exec place fuel stmt.strip >>= fun mirror => pure (mirror.1, place)) state) := by
  apply simulates_then ledger _ world machine state
  · exact inside_simulates ledger fuel inFunction inner scopes place world machine state stmt ih matched stands isInner
      fits plain
  · rintro later after state' ending mirror reached ⟨same, stands'⟩
    exact simulates_pure ledger _ later after state' _ ending _ reached.matched ⟨same, stands'⟩

-- A condition, then one of two runs that leave the place as it is.
theorem tested_simulates {α : Type} (condition : Expr NodeId) (yes no : Treewalk.Run Treewalk.Ending)
    (mirrorYes mirrorNo : Run α) (result : World → Heap → Treewalk.Ending → α → Prop) (ih : SimulatesWithin ledger fuel)
    (matched : Matched ledger world machine state) (stands : Stands machine.heap world machine.frame scopes place)
    (settled : ∀ use ∈ condition.uses, ledger.Has (.use use scopes))
    (chosen : ∀ later after state', Matched ledger later after state' → after.frame = machine.frame →
      Stands after.heap later after.frame scopes place →
      Simulates ledger (· = after.frame) later after result (yes after) (mirrorYes state'))
    (unchosen : ∀ later after state', Matched ledger later after state' → after.frame = machine.frame →
      Stands after.heap later after.frame scopes place →
      Simulates ledger (· = after.frame) later after result (no after) (mirrorNo state')) :
    Simulates ledger (· = machine.frame) world machine result
      ((Treewalk.eval fuel condition >>= fun test => if test.toBool = true then yes else no) machine)
      ((ledger.manner.eval place.names none fuel condition.strip >>= fun test => if test.toBool = true then mirrorYes else mirrorNo)
        state) := by
  apply simulates_bind ledger (· = machine.frame) world machine state (fun later heap value mirror =>
    Same ledger heap later value mirror ∧ Stands heap later machine.frame scopes place)
  · apply simulates_weaken ledger _ world machine noFrame (fun later heap => Same ledger heap later)
    · exact value_simulates ledger fuel scopes place world machine state condition ih matched stands settled
    · exact fun _ => False.elim
    · intro later after state' test mirror reached same
      have stands' := reached_stands ledger world later machine after state' scopes place reached stands
      rw [reached.frame] at stands'
      exact ⟨same, stands'⟩
  · rintro later after state' test mirror reached ⟨same, stands'⟩
    rw [Value.alike_toBool test mirror (same_alike ledger _ _ test mirror same)]
    rw [← reached.frame] at stands' ⊢
    split
    · exact chosen later after state' reached.matched reached.frame stands'
    · exact unchosen later after state' reached.matched reached.frame stands'

theorem branch_simulates (condition : Expr NodeId) (yes : Stmt NodeId) (no : Option (Stmt NodeId))
    (ih : SimulatesWithin ledger fuel) (matched : Matched ledger world machine state)
    (stands : Stands machine.heap world machine.frame scopes place) (isInner : place.isInner = inner)
    (fits : Fits ledger inFunction inner scopes (.branch condition yes no)) :
    Simulates ledger (· = machine.frame) world machine
      (fun later heap ending mirror => SameEnding ledger heap later ending mirror.1 ∧
        Stands heap later machine.frame scopes mirror.2)
      (Treewalk.exec (fuel + 1) (.branch condition yes no) machine)
      (ledger.manner.exec place (fuel + 1) (Stmt.strip (.branch condition yes no)) state) := by
  obtain ⟨settled, placed, plain⟩ := fits
  cases no with
  | none =>
      simp only [Stmt.strip, Stmt.placed, Bool.and_eq_true, Bool.not_eq_true'] at placed
      have yesFits : Fits ledger inFunction inner scopes yes :=
        ⟨fun mention inside => settled mention (List.mem_append_right _ inside), placed.1, plain⟩
      simp only [Stmt.strip, Treewalk.exec, Manner.exec, manner_loops]
      apply tested_simulates ledger fuel scopes place world machine state condition _ _ _ _ _ ih matched stands
      · exact fun use inside => settled _ (List.mem_append_left _ (List.mem_map.mpr ⟨use, inside, rfl⟩))
      · intro later after state' matched' frame stands'
        rw [← frame]
        exact chosen_simulates ledger fuel inFunction inner scopes place later after state' yes ih matched' stands' isInner
          yesFits placed.2
      · intro later after state' matched' frame stands'
        rw [← frame]
        exact simulates_pure ledger _ later after state' _ _ _ matched' ⟨trivial, stands'⟩
  | some no =>
      simp only [Stmt.strip, Stmt.placed, Bool.and_eq_true, Bool.not_eq_true'] at placed
      simp only [Stmt.strip, Stmt.ownWrites, List.append_eq_nil_iff] at plain
      have yesFits : Fits ledger inFunction inner scopes yes :=
        ⟨fun mention inside => settled mention (List.mem_append_left _ (List.mem_append_right _ inside)), placed.1.1,
          fun accepts => (plain accepts).1⟩
      have noFits : Fits ledger inFunction inner scopes no := by
        refine ⟨fun mention inside => settled mention (List.mem_append_right _ ?_), placed.2.1, fun accepts => (plain accepts).2⟩
        rw [Stmt.after_unchanged scopes yes placed.1.1 placed.1.2]
        exact inside
      simp only [Stmt.strip, Treewalk.exec, Manner.exec, manner_loops]
      apply tested_simulates ledger fuel scopes place world machine state condition _ _ _ _ _ ih matched stands
      · exact fun use inside => settled _ (List.mem_append_left _ (List.mem_append_left _
          (List.mem_map.mpr ⟨use, inside, rfl⟩)))
      · intro later after state' matched' frame stands'
        rw [← frame]
        exact chosen_simulates ledger fuel inFunction inner scopes place later after state' yes ih matched' stands' isInner
          yesFits placed.1.2
      · intro later after state' matched' frame stands'
        rw [← frame]
        exact chosen_simulates ledger fuel inFunction inner scopes place later after state' no ih matched' stands' isInner
          noFits placed.2.2

theorem loop_simulates (condition : Expr NodeId) (body : Stmt NodeId) (ih : SimulatesWithin ledger fuel)
    (matched : Matched ledger world machine state) (stands : Stands machine.heap world machine.frame scopes place)
    (isInner : place.isInner = inner) (fits : Fits ledger inFunction inner scopes (.loop condition body)) :
    Simulates ledger (· = machine.frame) world machine
      (fun later heap ending mirror => SameEnding ledger heap later ending mirror.1 ∧
        Stands heap later machine.frame scopes mirror.2)
      (Treewalk.exec (fuel + 1) (.loop condition body) machine)
      (ledger.manner.exec place (fuel + 1) (.loop condition.strip body.strip) state) := by
  obtain ⟨settled, placed, plain⟩ := fits
  simp only [Stmt.strip, Stmt.placed, Bool.and_eq_true, Bool.not_eq_true'] at placed
  simp only [Treewalk.exec, Manner.exec, manner_loops]
  apply simulates_then ledger _ world machine state
  · exact ih.execLoop condition body inFunction inner scopes place world machine state matched stands isInner
      (fun use inside => settled _ (List.mem_append_left _ (List.mem_map.mpr ⟨use, inside, rfl⟩)))
      ⟨fun mention inside => settled mention (List.mem_append_right _ inside), placed.1, plain⟩ placed.2
  · rintro later after state' ending mirror reached ⟨same, stands'⟩
    exact simulates_pure ledger _ later after state' _ ending _ reached.matched ⟨same, stands'⟩

theorem execLoop_simulates (condition : Expr NodeId) (body : Stmt NodeId) (ih : SimulatesWithin ledger fuel)
    (matched : Matched ledger world machine state) (stands : Stands machine.heap world machine.frame scopes place)
    (isInner : place.isInner = inner) (settled : ∀ use ∈ condition.uses, ledger.Has (.use use scopes))
    (fits : Fits ledger inFunction inner scopes body) (plain : body.strip.isDeclaration = false) :
    Simulates ledger (· = machine.frame) world machine
      (fun later heap ending mirror => SameEnding ledger heap later ending mirror ∧
        Stands heap later machine.frame scopes place)
      (Treewalk.execLoop (fuel + 1) condition body machine)
      (ledger.manner.execLoop place (fuel + 1) condition.strip body.strip state) := by
  simp only [Treewalk.execLoop, Manner.execLoop]
  apply tested_simulates ledger fuel scopes place world machine state condition _ _ _ _ _ ih matched stands settled
  · intro later after state' matched' frame stands'
    rw [← frame]
    apply simulates_bind ledger _ later after state'
    · exact inside_simulates ledger fuel inFunction inner scopes place later after state' body ih matched' stands' isInner
        fits plain
    · rintro last final state'' ending ⟨mirror, _⟩ reached ⟨same, stands''⟩
      cases ending with
      | normal =>
          cases mirror with
          | returned value => exact same.elim
          | normal =>
              rw [← reached.frame] at stands'' ⊢
              exact ih.execLoop condition body inFunction inner scopes place last final state'' reached.matched stands''
                isInner settled fits plain
      | returned value =>
          cases mirror with
          | normal => exact same.elim
          | returned mirror => exact simulates_pure ledger _ last final state'' _ _ _ reached.matched ⟨same, stands''⟩
  · intro later after state' matched' frame stands'
    rw [← frame]
    exact simulates_pure ledger _ later after state' _ _ _ matched' ⟨trivial, stands'⟩

theorem exec_simulates (stmt : Stmt NodeId) (ih : SimulatesWithin ledger fuel)
    (matched : Matched ledger world machine state) (stands : Stands machine.heap world machine.frame scopes place)
    (isInner : place.isInner = inner) (fits : Fits ledger inFunction inner scopes stmt) :
    Simulates ledger (· = machine.frame) world machine
      (fun later heap ending mirror => SameEnding ledger heap later ending mirror.1 ∧
        Stands heap later machine.frame (stmt.after scopes) mirror.2)
      (Treewalk.exec (fuel + 1) stmt machine) (ledger.manner.exec place (fuel + 1) stmt.strip state) := by
  cases stmt with
  | ret keyword value =>
      apply simulates_unchanged
      exact return_simulates ledger fuel scopes place world machine state keyword value ih matched stands
        (fun use inside => fits.settled _ (List.mem_cons_of_mem _ (List.mem_map.mpr ⟨use, inside, rfl⟩)))
  | print keyword value =>
      apply simulates_unchanged
      exact print_simulates ledger fuel scopes place world machine state keyword value ih matched stands
        (fun use inside => fits.settled _ (List.mem_map.mpr ⟨use, inside, rfl⟩))
  | expr value =>
      apply simulates_unchanged
      exact exprStmt_simulates ledger fuel scopes place world machine state value ih matched stands
        (fun use inside => fits.settled _ (List.mem_map.mpr ⟨use, inside, rfl⟩))
  | var name value =>
      exact var_simulates ledger fuel inFunction inner scopes place world machine state name value ih matched stands
        isInner fits
  | block body =>
      apply simulates_unchanged
      exact block_simulates ledger fuel inFunction scopes place world machine state body ih matched stands
        ⟨fits.settled, fits.placed, fits.plain⟩
  | func name params body =>
      exact func_simulates ledger fuel inFunction inner scopes place world machine state name params body matched stands
        fits
  | branch condition yes no =>
      have unchanged : (Stmt.branch condition yes no).after scopes = scopes := by
        apply Stmt.after_unchanged scopes _ fits.placed
        cases no <;> rfl
      rw [unchanged]
      exact branch_simulates ledger fuel inFunction inner scopes place world machine state condition yes no ih matched
        stands isInner fits
  | loop condition body =>
      have unchanged : (Stmt.loop condition body).after scopes = scopes := Stmt.after_unchanged scopes _ fits.placed rfl
      rw [unchanged]
      exact loop_simulates ledger fuel inFunction inner scopes place world machine state condition body ih matched stands
        isInner fits

theorem execAll_simulates (stmts : List (Stmt NodeId)) (ih : SimulatesWithin ledger fuel)
    (matched : Matched ledger world machine state) (stands : Stands machine.heap world machine.frame scopes place)
    (isInner : place.isInner = inner) (fits : FitsAll ledger inFunction inner scopes stmts) :
    Simulates ledger (· = machine.frame) world machine (fun later heap => SameEnding ledger heap later)
      (Treewalk.execAll (fuel + 1) stmts machine) (ledger.manner.execAll place (fuel + 1) (Stmt.stripAll stmts) state) := by
  obtain ⟨settled, placed, plain⟩ := fits
  cases stmts with
  | nil =>
      simp only [Stmt.stripAll, Treewalk.execAll, Manner.execAll]
      exact simulates_pure ledger _ world machine state _ _ _ matched trivial
  | cons first rest =>
      simp only [Stmt.stripAll, Stmt.placedAll, Bool.and_eq_true] at placed
      simp only [Stmt.stripAll, Stmt.ownWritesAll, List.append_eq_nil_iff] at plain
      have firstFits : Fits ledger inFunction inner scopes first :=
        ⟨fun mention inside => settled mention (List.mem_append_left _ inside), placed.1,
          fun accepts => (plain accepts).1⟩
      simp only [Stmt.stripAll, Treewalk.execAll, Manner.execAll]
      apply simulates_bind ledger _ world machine state
      · exact ih.exec first inFunction inner scopes place world machine state matched stands isInner firstFits
      · rintro later after state' ending ⟨mirror, place'⟩ reached ⟨same, stands'⟩
        cases ending with
        | returned value =>
            cases mirror with
            | normal => exact same.elim
            | returned mirror => exact simulates_pure ledger _ later after state' _ _ _ reached.matched same
        | normal =>
            cases mirror with
            | returned value => exact same.elim
            | normal =>
                rw [← reached.frame] at stands' ⊢
                have inner' : place'.isInner = inner := by
                  have empty := stands_isEmpty _ _ _ _ _ stands'
                  rw [Stmt.after_isEmpty first scopes, stands_isEmpty _ _ _ _ _ stands, isInner] at empty
                  exact (Bool.not_inj empty).symm
                exact ih.execAll rest inFunction inner (first.after scopes) place' later after state' reached.matched
                  stands' inner' ⟨fun mention inside => settled mention (List.mem_append_right _ inside), placed.2,
                    fun accepts => (plain accepts).2⟩

theorem invoke_simulates (callee : Treewalk.Value) (mirror : Value) (arguments : List Treewalk.Value)
    (mirrors : List Value) (ih : SimulatesWithin ledger fuel) (matched : Matched ledger world machine state)
    (same : Same ledger machine.heap world callee mirror)
    (sameArguments : SameAll ledger machine.heap world arguments mirrors)
    (arity : callee.arity? = some arguments.length) :
    Simulates ledger noFrame world machine (fun later heap => Same ledger heap later)
      (Treewalk.invoke (fuel + 1) callee arguments machine) (ledger.manner.invoke (fuel + 1) mirror mirrors state) := by
  cases callee with
  | datum value => cases arity
  | clock =>
      cases mirror with
      | datum value => exact same.elim
      | closure closure => exact same.elim
      | clock =>
          simp only [Treewalk.invoke, Manner.invoke]
          exact readClock_simulates ledger world machine state matched
  | closure closure =>
      cases mirror with
      | datum value => exact same.elim
      | clock => exact same.elim
      | closure mirror =>
          obtain ⟨-, -, params, body, scopes, linked, bindings, fits⟩ := same
          simp only [Treewalk.invoke, Manner.invoke]
          rw [run_assoc, mirror_assoc]
          apply simulates_bind ledger noFrame world machine state (fun later heap => SameEnding ledger heap later)
          · apply inner_simulates ledger world machine state (fun later heap => SameEnding ledger heap later) closure.home
              _ _ matched
            rintro machine' rfl matched'
            have stands := stands_inner ledger world machine state closure.home scopes mirror.home matched linked
            have growth := growth_push machine.heap world (some closure.home)
            rw [← params, ← body]
            apply simulates_bind ledger _ world _ state
            · exact bindParams_simulates ledger closure.params arguments mirrors ([] :: scopes) mirror.home world _ state
                matched' stands bindings (sameAll_grows ledger world world _ _ growth arguments mirrors sameArguments)
                (Option.some.inj arity)
            · intro later after state' _ names reached stands'
              rw [← reached.frame] at stands' ⊢
              exact ih.execAll closure.body true true (Scope.bindAll ([] :: scopes) closure.params) (.inner names) later
                after state' reached.matched stands' rfl fits
          · intro later after state' ending endingMirror reached sameEnding
            apply simulates_pure ledger noFrame later after state' _ _ _ reached.matched
            cases ending with
            | normal =>
                cases endingMirror with
                | normal => rfl
                | returned value => exact sameEnding.elim
            | returned value =>
                cases endingMirror with
                | normal => exact sameEnding.elim
                | returned mirror => exact sameEnding

end statements

theorem simulates_within (ledger : Ledger) (fuel : Nat) : SimulatesWithin ledger fuel := by
  induction fuel with
  | zero =>
      constructor
      · intros
        rw [Manner.eval_unfueled]
        exact .outOfFuel
      · intros
        rw [Manner.evalAll_unfueled]
        exact .outOfFuel
      · intros
        rw [Manner.invoke_unfueled]
        exact .outOfFuel
      · intros
        rw [Manner.exec_unfueled]
        exact .outOfFuel
      · intros
        rw [Manner.execAll_unfueled]
        exact .outOfFuel
      · intros
        rw [Manner.execLoop_unfueled]
        exact .outOfFuel
  | succ fuel ih =>
      constructor
      · intro expr scopes names waiting world machine state
        exact eval_simulates ledger fuel scopes names waiting world machine state expr ih
      · intro exprs scopes names waiting world machine state
        exact evalAll_simulates ledger fuel scopes names waiting world machine state exprs ih
      · intro callee mirror arguments mirrors world machine state
        exact invoke_simulates ledger fuel world machine state callee mirror arguments mirrors ih
      · intro stmt inFunction inner scopes place world machine state
        exact exec_simulates ledger fuel inFunction inner scopes place world machine state stmt ih
      · intro stmts inFunction inner scopes place world machine state
        exact execAll_simulates ledger fuel inFunction inner scopes place world machine state stmts ih
      · intro condition body inFunction inner scopes place world machine state
        exact execLoop_simulates ledger fuel inFunction inner scopes place world machine state condition body ih

end Treewalk.Lexical
