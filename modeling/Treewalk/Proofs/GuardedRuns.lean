import Treewalk.Proofs.Guarded
import Treewalk.Proofs.Operators

/-!
Every run of an analysed program is guarded, by induction on the fuel: one lemma for each kind of expression and
statement says what a step more of fuel adds.
-/

set_option autoImplicit false

namespace Treewalk.Binding

def EndingSound (register : Register) (heap : Heap) : Ending → Prop
  | .normal => True
  | .returned value => Sound register heap value

-- What holds of all runs with some fuel, for each kind of thing that runs.
structure GuardedWithin (register : Register) (fuel : Nat) : Prop where
  eval : ∀ (expr : Expr NodeId) (scopes : List Scope) (machine : Machine), Orderly register machine →
    Overlooks machine.heap scopes machine.frame → (∀ use ∈ expr.uses, register.Has (.use use scopes)) →
    Guarded register noFrame machine (Sound register) (Traced.eval fuel expr machine)
  evalAll : ∀ (exprs : List (Expr NodeId)) (scopes : List Scope) (machine : Machine), Orderly register machine →
    Overlooks machine.heap scopes machine.frame → (∀ use ∈ Expr.usesAll exprs, register.Has (.use use scopes)) →
    Guarded register noFrame machine (fun heap values => ∀ value ∈ values, Sound register heap value)
      (Traced.evalAll fuel exprs machine)
  invoke : ∀ (callee : Value) (arguments : List Value) (machine : Machine), Orderly register machine →
    Sound register machine.heap callee → (∀ argument ∈ arguments, Sound register machine.heap argument) →
    callee.arity? = some arguments.length →
    Guarded register noFrame machine (Sound register) (Traced.invoke fuel callee arguments machine)
  exec : ∀ (stmt : Stmt NodeId) (inFunction : Bool) (scopes : List Scope) (machine : Machine),
    Orderly register machine → Stands machine.heap scopes machine.frame → Fits register inFunction scopes stmt →
    Guarded register (· = machine.frame) machine
      (fun heap ending => EndingSound register heap ending ∧ Stands heap (stmt.after scopes) machine.frame)
      (Traced.exec fuel stmt machine)
  execAll : ∀ (stmts : List (Stmt NodeId)) (inFunction : Bool) (scopes : List Scope) (machine : Machine),
    Orderly register machine → Stands machine.heap scopes machine.frame → FitsAll register inFunction scopes stmts →
    Guarded register (· = machine.frame) machine (EndingSound register) (Traced.execAll fuel stmts machine)
  execLoop : ∀ (condition : Expr NodeId) (body : Stmt NodeId) (inFunction : Bool) (scopes : List Scope)
    (machine : Machine), Orderly register machine → Stands machine.heap scopes machine.frame →
    (∀ use ∈ condition.uses, register.Has (.use use scopes)) → Fits register inFunction scopes body →
    body.strip.isDeclaration = false →
    Guarded register (· = machine.frame) machine
      (fun heap ending => EndingSound register heap ending ∧ Stands heap scopes machine.frame)
      (Traced.execLoop fuel condition body machine)

-- What operators answer: data, or a fault about operands.
inductive Plain : Except Fault Value → Prop where
  | answer (datum : Datum) : Plain (.ok (.datum datum))
  | refusal (fault : Fault) (known : ∀ name, fault.cause ≠ .unbound name) : Plain (.error fault)

theorem plain_of_judged (operator : Token) (answer : Except Fault Value) (judged : Judged operator answer) :
    Plain answer := by
  cases judged with
  | answer datum => exact .answer datum
  | refusal cause made =>
      refine .refusal _ fun name unbound => ?_
      cases made <;> cases unbound

theorem applyBinary_plain (operator : Token) (left right : Value) : Plain (applyBinary operator left right) :=
  plain_of_judged operator _ (applyBinary_judged operator left right)

theorem applyUnary_plain (operator : Token) (operand : Value) : Plain (applyUnary operator operand) :=
  plain_of_judged operator _ (applyUnary_judged operator operand)

section expressions

variable (register : Register) (fuel : Nat) (scopes : List Scope) (machine : Machine)

theorem answer_guarded (answer : Except Fault Value) (plain : Plain answer) (orderly : Orderly register machine) :
    Guarded register noFrame machine (Sound register) (Traced.quiet (Run.lift answer) machine) := by
  cases plain with
  | answer datum =>
      exact guarded_done register noFrame machine _ _ _ machine rfl (advanced_refl register noFrame machine orderly)
        trivial
  | refusal fault known => exact guarded_fault register noFrame machine _ _ fault machine rfl orderly rfl known

theorem advanced_overlooks (after : Machine) (advanced : Advanced register noFrame machine after)
    (orderly : Orderly register machine) (overlooks : Overlooks machine.heap scopes machine.frame) :
    Overlooks after.heap scopes after.frame := by
  have made := overlooks_made register machine scopes orderly overlooks
  rw [advanced.frame]
  exact overlooks_grows machine.heap after.heap scopes machine.frame advanced.grows
    (advanced.keeps machine.frame made id) overlooks

-- Two expressions one after the other, in the same place.
theorem both_guarded {α : Type} (result : Heap → α → Prop) (first : Expr NodeId) (next : Value → Traced α)
    (ih : GuardedWithin register fuel) (orderly : Orderly register machine)
    (overlooks : Overlooks machine.heap scopes machine.frame)
    (has : ∀ use ∈ first.uses, register.Has (.use use scopes))
    (goOn : ∀ after value, Orderly register after → Overlooks after.heap scopes after.frame →
      Sound register after.heap value → Guarded register noFrame after result (next value after)) :
    Guarded register noFrame machine result ((Traced.eval fuel first >>= next) machine) := by
  apply guarded_bind register noFrame machine (Sound register)
  · exact ih.eval first scopes machine orderly overlooks has
  · intro after value advanced sound
    exact goOn after value advanced.orderly
      (advanced_overlooks register scopes machine after advanced orderly overlooks) sound

theorem binary_guarded (left : Expr NodeId) (operator : Token) (right : Expr NodeId)
    (ih : GuardedWithin register fuel) (orderly : Orderly register machine)
    (overlooks : Overlooks machine.heap scopes machine.frame)
    (has : ∀ use ∈ left.uses ++ right.uses, register.Has (.use use scopes)) :
    Guarded register noFrame machine (Sound register) (Traced.eval (fuel + 1) (.binary left operator right) machine) := by
  simp only [Traced.eval]
  apply guarded_mark
  · exact found_other register _ rfl
  · apply both_guarded register fuel scopes machine _ left _ ih orderly overlooks
      (fun use inside => has use (List.mem_append_left _ inside))
    intro after first orderly' overlooks' _
    apply both_guarded register fuel scopes after _ right _ ih orderly' overlooks'
      (fun use inside => has use (List.mem_append_right _ inside))
    intro last second orderly'' _ _
    exact answer_guarded register last _ (applyBinary_plain operator first second) orderly''

theorem logical_guarded (left : Expr NodeId) (operator : Token) (right : Expr NodeId)
    (ih : GuardedWithin register fuel) (orderly : Orderly register machine)
    (overlooks : Overlooks machine.heap scopes machine.frame)
    (has : ∀ use ∈ left.uses ++ right.uses, register.Has (.use use scopes)) :
    Guarded register noFrame machine (Sound register)
      (Traced.eval (fuel + 1) (.logical left operator right) machine) := by
  simp only [Traced.eval]
  apply guarded_mark
  · exact found_other register _ rfl
  · apply both_guarded register fuel scopes machine _ left _ ih orderly overlooks
      (fun use inside => has use (List.mem_append_left _ inside))
    intro after first orderly' overlooks' sound
    split
    · exact guarded_pure register noFrame after _ first orderly' sound
    · exact ih.eval right scopes after orderly' overlooks' (fun use inside => has use (List.mem_append_right _ inside))

theorem ternary_guarded (condition yes no : Expr NodeId) (ih : GuardedWithin register fuel)
    (orderly : Orderly register machine) (overlooks : Overlooks machine.heap scopes machine.frame)
    (has : ∀ use ∈ condition.uses ++ yes.uses ++ no.uses, register.Has (.use use scopes)) :
    Guarded register noFrame machine (Sound register) (Traced.eval (fuel + 1) (.ternary condition yes no) machine) := by
  simp only [Traced.eval]
  apply guarded_mark
  · exact found_other register _ rfl
  · apply both_guarded register fuel scopes machine _ condition _ ih orderly overlooks
      (fun use inside => has use (List.mem_append_left _ (List.mem_append_left _ inside)))
    intro after test orderly' overlooks' _
    split
    · exact ih.eval yes scopes after orderly' overlooks'
        (fun use inside => has use (List.mem_append_left _ (List.mem_append_right _ inside)))
    · exact ih.eval no scopes after orderly' overlooks' (fun use inside => has use (List.mem_append_right _ inside))

theorem assign_guarded (label : NodeId) (name : Token) (value : Expr NodeId) (ih : GuardedWithin register fuel)
    (orderly : Orderly register machine) (overlooks : Overlooks machine.heap scopes machine.frame)
    (has : ∀ use ∈ value.uses ++ [⟨label, name, true⟩], register.Has (.use use scopes)) :
    Guarded register noFrame machine (Sound register) (Traced.eval (fuel + 1) (.assign label name value) machine) := by
  have hasOwn : register.Has (.use ⟨label, name, true⟩ scopes) :=
    has _ (List.mem_append_right _ (List.mem_singleton.mpr rfl))
  simp only [Traced.eval]
  apply guarded_mark
  · exact use_found register machine scopes ⟨label, name, true⟩ _ rfl rfl orderly overlooks hasOwn
  · apply both_guarded register fuel scopes machine _ value _ ih orderly overlooks
      (fun use inside => has use (List.mem_append_left _ inside))
    intro after result orderly' overlooks' sound
    rw [Traced.bind_assoc]
    apply guarded_bind register noFrame after (fun _ _ => True)
    · exact store_guarded register after scopes label name result orderly' overlooks' hasOwn sound
    · intro last _ advanced _
      exact guarded_pure register noFrame last _ result advanced.orderly
        (sound_grows register _ _ advanced.grows result sound)

theorem call_guarded (callee : Expr NodeId) (close : Token) (arguments : List (Expr NodeId))
    (ih : GuardedWithin register fuel) (orderly : Orderly register machine)
    (overlooks : Overlooks machine.heap scopes machine.frame)
    (has : ∀ use ∈ callee.uses ++ Expr.usesAll arguments, register.Has (.use use scopes)) :
    Guarded register noFrame machine (Sound register)
      (Traced.eval (fuel + 1) (.call callee close arguments) machine) := by
  simp only [Traced.eval]
  apply guarded_mark
  · exact found_other register _ rfl
  · apply both_guarded register fuel scopes machine _ callee _ ih orderly overlooks
      (fun use inside => has use (List.mem_append_left _ inside))
    intro after target orderly' overlooks' soundTarget
    apply guarded_bind register noFrame after (fun heap values => ∀ value ∈ values, Sound register heap value)
    · exact ih.evalAll arguments scopes after orderly' overlooks'
        (fun use inside => has use (List.mem_append_right _ inside))
    · intro last values advanced soundValues
      apply guarded_bind register noFrame last (fun _ _ => target.arity? = some values.length)
      · exact checkCall_guarded register last close.line target values.length advanced.orderly
      · intro final _ advanced' arity
        apply deeper_guarded register final _ _ advanced'.orderly
        rintro inside rfl orderly''
        exact ih.invoke target values _ orderly''
          (sound_grows register _ _ (grows_trans _ _ _ advanced.grows advanced'.grows) target soundTarget)
          (fun value among => sound_grows register _ _ advanced'.grows value (soundValues value among)) arity

theorem eval_guarded (expr : Expr NodeId) (ih : GuardedWithin register fuel) (orderly : Orderly register machine)
    (overlooks : Overlooks machine.heap scopes machine.frame)
    (has : ∀ use ∈ expr.uses, register.Has (.use use scopes)) :
    Guarded register noFrame machine (Sound register) (Traced.eval (fuel + 1) expr machine) := by
  cases expr with
  | literal value =>
      simp only [Traced.eval]
      apply guarded_mark
      · exact found_other register _ rfl
      · exact guarded_pure register noFrame machine _ _ orderly trivial
  | group inner =>
      simp only [Traced.eval]
      apply guarded_mark
      · exact found_other register _ rfl
      · exact ih.eval inner scopes machine orderly overlooks has
  | unary operator operand =>
      simp only [Traced.eval]
      apply guarded_mark
      · exact found_other register _ rfl
      · apply both_guarded register fuel scopes machine _ operand _ ih orderly overlooks has
        intro after value orderly' _ _
        exact answer_guarded register after _ (applyUnary_plain operator value) orderly'
  | binary left operator right => exact binary_guarded register fuel scopes machine left operator right ih orderly overlooks has
  | logical left operator right =>
      exact logical_guarded register fuel scopes machine left operator right ih orderly overlooks has
  | ternary condition yes no => exact ternary_guarded register fuel scopes machine condition yes no ih orderly overlooks has
  | comma first second =>
      simp only [Traced.eval]
      apply guarded_mark
      · exact found_other register _ rfl
      · apply both_guarded register fuel scopes machine _ first _ ih orderly overlooks
          (fun use inside => has use (List.mem_append_left _ inside))
        intro after _ orderly' overlooks' _
        exact ih.eval second scopes after orderly' overlooks' (fun use inside => has use (List.mem_append_right _ inside))
  | var label name =>
      simp only [Traced.eval]
      exact lookup_guarded register machine scopes label name orderly overlooks (has _ (List.mem_singleton.mpr rfl))
  | assign label name value => exact assign_guarded register fuel scopes machine label name value ih orderly overlooks has
  | call callee close arguments =>
      exact call_guarded register fuel scopes machine callee close arguments ih orderly overlooks has

theorem evalAll_guarded (exprs : List (Expr NodeId)) (ih : GuardedWithin register fuel)
    (orderly : Orderly register machine) (overlooks : Overlooks machine.heap scopes machine.frame)
    (has : ∀ use ∈ Expr.usesAll exprs, register.Has (.use use scopes)) :
    Guarded register noFrame machine (fun heap values => ∀ value ∈ values, Sound register heap value)
      (Traced.evalAll (fuel + 1) exprs machine) := by
  cases exprs with
  | nil =>
      simp only [Traced.evalAll]
      exact guarded_pure register noFrame machine _ _ orderly (fun _ inside => absurd inside List.not_mem_nil)
  | cons first rest =>
      simp only [Traced.evalAll]
      apply both_guarded register fuel scopes machine _ first _ ih orderly overlooks
        (fun use inside => has use (List.mem_append_left _ inside))
      intro after value orderly' overlooks' sound
      apply guarded_bind register noFrame after (fun heap values => ∀ value ∈ values, Sound register heap value)
      · exact ih.evalAll rest scopes after orderly' overlooks' (fun use inside => has use (List.mem_append_right _ inside))
      · intro last values advanced soundRest
        apply guarded_pure register noFrame last _ _ advanced.orderly
        intro other inside
        rcases List.mem_cons.mp inside with rfl | among
        · exact sound_grows register _ _ advanced.grows other sound
        · exact soundRest other among

end expressions

section statements

variable (register : Register) (fuel : Nat) (inFunction : Bool) (scopes : List Scope) (machine : Machine)

theorem advanced_stands (after : Machine) (advanced : Advanced register noFrame machine after)
    (orderly : Orderly register machine) (stands : Stands machine.heap scopes machine.frame) :
    Stands after.heap scopes machine.frame := by
  have made := stands_made register machine scopes orderly stands
  exact stands_grows machine.heap after.heap scopes machine.frame advanced.grows
    (advanced.keeps machine.frame made id) stands

-- An expression evaluated where a statement stands, and what follows it there.
theorem evaluated_guarded {α : Type} (changed : FrameId → Prop) (result : Heap → α → Prop) (expr : Expr NodeId)
    (next : Value → Traced α) (ih : GuardedWithin register fuel) (orderly : Orderly register machine)
    (stands : Stands machine.heap scopes machine.frame) (has : ∀ use ∈ expr.uses, register.Has (.use use scopes))
    (goOn : ∀ after value, Orderly register after → after.frame = machine.frame →
      Stands after.heap scopes after.frame → Sound register after.heap value →
      Guarded register changed after result (next value after)) :
    Guarded register changed machine result ((Traced.eval fuel expr >>= next) machine) := by
  apply guarded_bind register changed machine
    (fun heap value => Sound register heap value ∧ Stands heap scopes machine.frame)
  · apply guarded_weaken register changed machine noFrame (Sound register)
    · exact ih.eval expr scopes machine orderly (stands_overlooks machine.heap scopes machine.frame stands) has
    · exact fun _ => False.elim
    · intro after value advanced sound
      exact ⟨sound, advanced_stands register scopes machine after advanced orderly stands⟩
  · rintro after value advanced ⟨sound, stands'⟩
    rw [← advanced.frame] at stands'
    exact goOn after value advanced.orderly advanced.frame stands' sound

theorem return_guarded (keyword : Token) (value : Option (Expr NodeId)) (ih : GuardedWithin register fuel)
    (orderly : Orderly register machine) (stands : Stands machine.heap scopes machine.frame)
    (has : ∀ use ∈ Expr.usesOption value, register.Has (.use use scopes)) :
    Guarded register (· = machine.frame) machine
      (fun heap ending => EndingSound register heap ending ∧ Stands heap scopes machine.frame)
      (Traced.exec (fuel + 1) (.ret keyword value) machine) := by
  simp only [Traced.exec]
  apply guarded_mark
  · exact found_other register _ rfl
  · cases value with
    | none => exact guarded_pure register _ machine _ _ orderly ⟨trivial, stands⟩
    | some value =>
        apply evaluated_guarded register fuel scopes machine _ _ value _ ih orderly stands has
        intro after result orderly' frame stands' sound
        rw [← frame]
        exact guarded_pure register _ after _ _ orderly' ⟨sound, stands'⟩

theorem print_guarded (keyword : Token) (value : Expr NodeId) (ih : GuardedWithin register fuel)
    (orderly : Orderly register machine) (stands : Stands machine.heap scopes machine.frame)
    (has : ∀ use ∈ value.uses, register.Has (.use use scopes)) :
    Guarded register (· = machine.frame) machine
      (fun heap ending => EndingSound register heap ending ∧ Stands heap scopes machine.frame)
      (Traced.exec (fuel + 1) (.print keyword value) machine) := by
  simp only [Traced.exec]
  apply guarded_mark
  · exact found_other register _ rfl
  · apply evaluated_guarded register fuel scopes machine _ _ value _ ih orderly stands has
    intro after result orderly' frame stands' _
    rw [← frame]
    apply guarded_unchanged
    apply guarded_bind register noFrame after (fun _ _ => True)
    · exact write_guarded register after noFrame keyword.line _ orderly'
    · intro last _ advanced _
      exact guarded_pure register noFrame last _ _ advanced.orderly
        ⟨trivial, advanced_stands register scopes after last advanced orderly' stands'⟩

-- The end of a declaration.
theorem declared_guarded (name : Token) (slot : Slot) (orderly : Orderly register machine)
    (stands : Stands machine.heap scopes machine.frame) (has : register.Has (.binding name scopes))
    (sound : ∀ value, slot = .holds value → Sound register machine.heap value) :
    Guarded register (· = machine.frame) machine
      (fun heap ending => EndingSound register heap ending ∧ Stands heap (Scope.bind name scopes) machine.frame)
      ((Traced.quiet (Run.change name.line (fun heap frame => heap.bind frame name.lexeme slot)) >>=
        fun _ => pure Ending.normal) machine) := by
  apply guarded_bind register _ machine (fun heap _ => Stands heap (Scope.bind name scopes) machine.frame)
  · exact declare_guarded register machine name slot scopes orderly stands has sound
  · intro after _ advanced stands'
    exact guarded_pure register _ after _ _ advanced.orderly ⟨trivial, stands'⟩

theorem var_guarded (name : Token) (value : Option (Expr NodeId)) (ih : GuardedWithin register fuel)
    (orderly : Orderly register machine) (stands : Stands machine.heap scopes machine.frame)
    (fits : Fits register inFunction scopes (.var name value)) :
    Guarded register (· = machine.frame) machine
      (fun heap ending => EndingSound register heap ending ∧ Stands heap (Scope.bind name scopes) machine.frame)
      (Traced.exec (fuel + 1) (.var name value) machine) := by
  have binding : register.Has (.binding name scopes) := fits.settled _ List.mem_cons_self
  simp only [Traced.exec]
  apply guarded_mark
  · exact found_other register _ rfl
  · cases value with
    | none =>
        exact declared_guarded register scopes machine name .unassigned orderly stands binding
          (fun _ same => Slot.noConfusion same)
    | some value =>
        have has : ∀ use ∈ value.uses, register.Has (.use use (Scope.declare name scopes)) := by
          intro use inside
          exact fits.settled _ (List.mem_cons_of_mem _ (List.mem_map.mpr ⟨use, inside, rfl⟩))
        -- The initializer runs in scopes that declare the variable, and leaves the frame without it.
        have overlooks := stands_initializer machine.heap name scopes machine.frame stands binding.1
        apply guarded_bind register (· = machine.frame) machine
          (fun heap value => Sound register heap value ∧ Stands heap scopes machine.frame)
        · apply guarded_weaken register _ machine noFrame (Sound register)
          · exact ih.eval value (Scope.declare name scopes) machine orderly overlooks has
          · exact fun _ => False.elim
          · intro after result advanced sound
            exact ⟨sound, advanced_stands register scopes machine after advanced orderly stands⟩
        · rintro after result advanced ⟨sound, stands'⟩
          rw [← advanced.frame] at stands' ⊢
          apply declared_guarded register scopes after name (.holds result) advanced.orderly stands' binding
          intro stored same
          cases same
          exact sound

theorem func_guarded (name : Token) (params : List Token) (body : List (Stmt NodeId))
    (orderly : Orderly register machine) (stands : Stands machine.heap scopes machine.frame)
    (fits : Fits register inFunction scopes (.func name params body)) :
    Guarded register (· = machine.frame) machine
      (fun heap ending => EndingSound register heap ending ∧ Stands heap (Scope.bind name scopes) machine.frame)
      (Traced.exec (fuel + 1) (.func name params body) machine) := by
  have binding : register.Has (.binding name scopes) := fits.settled _ List.mem_cons_self
  have bindings : ∀ mention ∈ bindingMentions ([] :: Scope.bind name scopes) params, register.Has mention := by
    intro mention inside
    exact fits.settled mention (List.mem_append_left _ (List.mem_cons_of_mem _ inside))
  have bodyFits : FitsAll register true (Scope.bindAll ([] :: Scope.bind name scopes) params) body :=
    ⟨fun mention inside => fits.settled mention (List.mem_append_right _ inside), fits.placed⟩
  simp only [Traced.exec]
  apply guarded_mark
  · exact found_other register _ rfl
  · rw [Traced.bind_assoc, ← Traced.quiet_bind]
    apply guarded_bind register _ machine (fun heap _ => Stands heap (Scope.bind name scopes) machine.frame)
    · exact declareFunction_guarded register machine name params body scopes orderly stands binding bindings bodyFits
    · intro after _ advanced stands'
      exact guarded_pure register _ after _ _ advanced.orderly ⟨trivial, stands'⟩

theorem block_guarded (body : List (Stmt NodeId)) (ih : GuardedWithin register fuel)
    (orderly : Orderly register machine) (stands : Stands machine.heap scopes machine.frame)
    (fits : FitsAll register inFunction ([] :: scopes) body) :
    Guarded register (· = machine.frame) machine
      (fun heap ending => EndingSound register heap ending ∧ Stands heap scopes machine.frame)
      (Traced.exec (fuel + 1) (.block body) machine) := by
  simp only [Traced.exec]
  apply guarded_mark
  · exact found_other register _ rfl
  · apply guarded_weaken register _ machine noFrame (EndingSound register)
    · apply inner_guarded register machine (EndingSound register) machine.frame (Traced.execAll fuel body) orderly
      rintro inside rfl orderly'
      exact ih.execAll body inFunction ([] :: scopes) _ orderly'
        (stands_open machine.heap scopes machine.frame orderly.rooted stands.1) fits
    · exact fun _ => False.elim
    · intro after ending advanced sound
      exact ⟨sound, advanced_stands register scopes machine after advanced orderly stands⟩

-- A statement that declares nothing, run where another one stands.
theorem inside_guarded (stmt : Stmt NodeId) (ih : GuardedWithin register fuel) (orderly : Orderly register machine)
    (stands : Stands machine.heap scopes machine.frame) (fits : Fits register inFunction scopes stmt)
    (plain : stmt.strip.isDeclaration = false) :
    Guarded register (· = machine.frame) machine
      (fun heap ending => EndingSound register heap ending ∧ Stands heap scopes machine.frame)
      (Traced.exec fuel stmt machine) := by
  have guarded := ih.exec stmt inFunction scopes machine orderly stands fits
  rw [Stmt.after_unchanged scopes stmt fits.placed plain] at guarded
  exact guarded

theorem branch_guarded (condition : Expr NodeId) (yes : Stmt NodeId) (no : Option (Stmt NodeId))
    (ih : GuardedWithin register fuel) (orderly : Orderly register machine)
    (stands : Stands machine.heap scopes machine.frame)
    (fits : Fits register inFunction scopes (.branch condition yes no)) :
    Guarded register (· = machine.frame) machine
      (fun heap ending => EndingSound register heap ending ∧ Stands heap scopes machine.frame)
      (Traced.exec (fuel + 1) (.branch condition yes no) machine) := by
  obtain ⟨settled, placed⟩ := fits
  simp only [Traced.exec]
  apply guarded_mark
  · exact found_other register _ rfl
  · cases no with
    | none =>
        simp only [Stmt.strip, Stmt.placed, Bool.and_eq_true, Bool.not_eq_true'] at placed
        have yesFits : Fits register inFunction scopes yes :=
          ⟨fun mention inside => settled mention (List.mem_append_right _ inside), placed.1⟩
        apply evaluated_guarded register fuel scopes machine _ _ condition _ ih orderly stands
        · exact fun use inside => settled _ (List.mem_append_left _ (List.mem_map.mpr ⟨use, inside, rfl⟩))
        · intro after test orderly' frame stands' _
          rw [← frame]
          split
          · exact inside_guarded register fuel inFunction scopes after yes ih orderly' stands' yesFits placed.2
          · exact guarded_pure register _ after _ _ orderly' ⟨trivial, stands'⟩
    | some no =>
        simp only [Stmt.strip, Stmt.placed, Bool.and_eq_true, Bool.not_eq_true'] at placed
        have yesFits : Fits register inFunction scopes yes :=
          ⟨fun mention inside => settled mention (List.mem_append_left _ (List.mem_append_right _ inside)), placed.1.1⟩
        have noFits : Fits register inFunction scopes no := by
          refine ⟨fun mention inside => settled mention (List.mem_append_right _ ?_), placed.2.1⟩
          rw [Stmt.after_unchanged scopes yes placed.1.1 placed.1.2]
          exact inside
        apply evaluated_guarded register fuel scopes machine _ _ condition _ ih orderly stands
        · exact fun use inside => settled _ (List.mem_append_left _ (List.mem_append_left _
            (List.mem_map.mpr ⟨use, inside, rfl⟩)))
        · intro after test orderly' frame stands' _
          rw [← frame]
          split
          · exact inside_guarded register fuel inFunction scopes after yes ih orderly' stands' yesFits placed.1.2
          · exact inside_guarded register fuel inFunction scopes after no ih orderly' stands' noFits placed.2.2

theorem loop_guarded (condition : Expr NodeId) (body : Stmt NodeId) (ih : GuardedWithin register fuel)
    (orderly : Orderly register machine) (stands : Stands machine.heap scopes machine.frame)
    (fits : Fits register inFunction scopes (.loop condition body)) :
    Guarded register (· = machine.frame) machine
      (fun heap ending => EndingSound register heap ending ∧ Stands heap scopes machine.frame)
      (Traced.exec (fuel + 1) (.loop condition body) machine) := by
  obtain ⟨settled, placed⟩ := fits
  simp only [Stmt.strip, Stmt.placed, Bool.and_eq_true, Bool.not_eq_true'] at placed
  simp only [Traced.exec]
  apply guarded_mark
  · exact found_other register _ rfl
  · exact ih.execLoop condition body inFunction scopes machine orderly stands
      (fun use inside => settled _ (List.mem_append_left _ (List.mem_map.mpr ⟨use, inside, rfl⟩)))
      ⟨fun mention inside => settled mention (List.mem_append_right _ inside), placed.1⟩ placed.2

theorem execLoop_guarded (condition : Expr NodeId) (body : Stmt NodeId) (ih : GuardedWithin register fuel)
    (orderly : Orderly register machine) (stands : Stands machine.heap scopes machine.frame)
    (has : ∀ use ∈ condition.uses, register.Has (.use use scopes)) (fits : Fits register inFunction scopes body)
    (plain : body.strip.isDeclaration = false) :
    Guarded register (· = machine.frame) machine
      (fun heap ending => EndingSound register heap ending ∧ Stands heap scopes machine.frame)
      (Traced.execLoop (fuel + 1) condition body machine) := by
  simp only [Traced.execLoop]
  apply evaluated_guarded register fuel scopes machine _ _ condition _ ih orderly stands has
  intro after test orderly' frame stands' _
  rw [← frame]
  split
  · apply guarded_bind register _ after
    · exact inside_guarded register fuel inFunction scopes after body ih orderly' stands' fits plain
    · rintro last ending advanced ⟨sound, stands''⟩
      cases ending with
      | normal =>
          rw [← advanced.frame] at stands'' ⊢
          exact ih.execLoop condition body inFunction scopes last advanced.orderly stands'' has fits plain
      | returned value => exact guarded_pure register _ last _ _ advanced.orderly ⟨sound, stands''⟩
  · exact guarded_pure register _ after _ _ orderly' ⟨trivial, stands'⟩

theorem exec_guarded (stmt : Stmt NodeId) (ih : GuardedWithin register fuel) (orderly : Orderly register machine)
    (stands : Stands machine.heap scopes machine.frame) (fits : Fits register inFunction scopes stmt) :
    Guarded register (· = machine.frame) machine
      (fun heap ending => EndingSound register heap ending ∧ Stands heap (stmt.after scopes) machine.frame)
      (Traced.exec (fuel + 1) stmt machine) := by
  cases stmt with
  | ret keyword value =>
      exact return_guarded register fuel scopes machine keyword value ih orderly stands
        (fun use inside => fits.settled _ (List.mem_cons_of_mem _ (List.mem_map.mpr ⟨use, inside, rfl⟩)))
  | print keyword value =>
      exact print_guarded register fuel scopes machine keyword value ih orderly stands
        (fun use inside => fits.settled _ (List.mem_map.mpr ⟨use, inside, rfl⟩))
  | expr value =>
      simp only [Traced.exec]
      apply guarded_mark
      · exact found_other register _ rfl
      · apply evaluated_guarded register fuel scopes machine _ _ value _ ih orderly stands
          (fun use inside => fits.settled _ (List.mem_map.mpr ⟨use, inside, rfl⟩))
        intro after _ orderly' frame stands' _
        rw [← frame]
        exact guarded_pure register _ after _ _ orderly' ⟨trivial, stands'⟩
  | var name value => exact var_guarded register fuel inFunction scopes machine name value ih orderly stands fits
  | block body =>
      exact block_guarded register fuel inFunction scopes machine body ih orderly stands ⟨fits.settled, fits.placed⟩
  | func name params body =>
      exact func_guarded register fuel inFunction scopes machine name params body orderly stands fits
  | branch condition yes no =>
      have unchanged : (Stmt.branch condition yes no).after scopes = scopes := by
        apply Stmt.after_unchanged scopes _ fits.placed
        cases no <;> rfl
      rw [unchanged]
      exact branch_guarded register fuel inFunction scopes machine condition yes no ih orderly stands fits
  | loop condition body =>
      have unchanged : (Stmt.loop condition body).after scopes = scopes := Stmt.after_unchanged scopes _ fits.placed rfl
      rw [unchanged]
      exact loop_guarded register fuel inFunction scopes machine condition body ih orderly stands fits

theorem execAll_guarded (stmts : List (Stmt NodeId)) (ih : GuardedWithin register fuel)
    (orderly : Orderly register machine) (stands : Stands machine.heap scopes machine.frame)
    (fits : FitsAll register inFunction scopes stmts) :
    Guarded register (· = machine.frame) machine (EndingSound register) (Traced.execAll (fuel + 1) stmts machine) := by
  obtain ⟨settled, placed⟩ := fits
  cases stmts with
  | nil =>
      simp only [Traced.execAll]
      exact guarded_pure register _ machine _ _ orderly trivial
  | cons first rest =>
      simp only [Stmt.stripAll, Stmt.placedAll, Bool.and_eq_true] at placed
      simp only [Traced.execAll]
      apply guarded_bind register _ machine
      · exact ih.exec first inFunction scopes machine orderly stands
          ⟨fun mention inside => settled mention (List.mem_append_left _ inside), placed.1⟩
      · rintro after ending advanced ⟨sound, stands'⟩
        cases ending with
        | returned value => exact guarded_pure register _ after _ _ advanced.orderly sound
        | normal =>
            rw [← advanced.frame] at stands' ⊢
            exact ih.execAll rest inFunction (first.after scopes) after advanced.orderly stands'
              ⟨fun mention inside => settled mention (List.mem_append_right _ inside), placed.2⟩

theorem invoke_guarded (callee : Value) (arguments : List Value) (ih : GuardedWithin register fuel)
    (orderly : Orderly register machine) (sound : Sound register machine.heap callee)
    (soundArguments : ∀ argument ∈ arguments, Sound register machine.heap argument)
    (arity : callee.arity? = some arguments.length) :
    Guarded register noFrame machine (Sound register) (Traced.invoke (fuel + 1) callee arguments machine) := by
  simp only [Traced.invoke]
  apply guarded_mark
  · exact found_other register _ rfl
  · cases callee with
    | datum value => cases arity
    | clock => exact readClock_guarded register machine orderly
    | closure closure =>
        obtain ⟨scopes, encloses, bindings, fits⟩ := sound
        dsimp only
        rw [Traced.bind_assoc]
        apply guarded_bind register noFrame machine (EndingSound register)
        · apply inner_guarded register machine (EndingSound register) closure.home _ orderly
          rintro inside rfl orderly'
          have stands := stands_open machine.heap scopes closure.home orderly.rooted encloses
          have grows := grows_push machine.heap (some closure.home)
          apply guarded_bind register _ _
          · exact bindParams_guarded register closure.params arguments ([] :: scopes) _ orderly' stands bindings
              (fun value among => sound_grows register _ _ grows value (soundArguments value among))
              (Option.some.inj arity)
          · intro after _ advanced stands'
            rw [← advanced.frame] at stands' ⊢
            exact ih.execAll closure.body true _ after advanced.orderly stands' fits
        · intro after ending advanced soundEnding
          apply guarded_pure register noFrame after _ _ advanced.orderly
          cases ending with
          | normal => trivial
          | returned value => exact soundEnding

end statements

theorem guarded_within (register : Register) (fuel : Nat) : GuardedWithin register fuel := by
  induction fuel with
  | zero =>
      constructor <;> intros <;>
        simp only [Traced.eval, Traced.evalAll, Traced.invoke, Traced.exec, Traced.execAll, Traced.execLoop] <;>
        exact guarded_outOfFuel register _ _ _
  | succ fuel ih =>
      constructor
      · intro expr scopes machine
        exact eval_guarded register fuel scopes machine expr ih
      · intro exprs scopes machine
        exact evalAll_guarded register fuel scopes machine exprs ih
      · intro callee arguments machine
        exact invoke_guarded register fuel machine callee arguments ih
      · intro stmt inFunction scopes machine
        exact exec_guarded register fuel inFunction scopes machine stmt ih
      · intro stmts inFunction scopes machine
        exact execAll_guarded register fuel inFunction scopes machine stmts ih
      · intro condition body inFunction scopes machine
        exact execLoop_guarded register fuel inFunction scopes machine condition body ih

theorem runProgram_guarded (register : Register) (fuel : Nat) (stmts : List (Stmt NodeId)) : ∀ machine : Machine,
    Orderly register machine → machine.frame = globalFrame → FitsAll register false [] stmts →
    Guarded register (· = machine.frame) machine (fun _ _ => True) (Traced.runProgram fuel stmts machine) := by
  induction stmts with
  | nil =>
      intro machine orderly _ _
      exact guarded_pure register _ machine _ () orderly trivial
  | cons first rest ih =>
      rintro machine orderly root ⟨settled, placed⟩
      simp only [Stmt.stripAll, Stmt.placedAll, Bool.and_eq_true] at placed
      have stands : Stands machine.heap [] machine.frame :=
        ⟨root, ready_nil, fun inner innermost => absurd innermost (Option.not_mem_none inner)⟩
      have after_nil : first.after [] = [] := List.isEmpty_iff.mp (Stmt.after_isEmpty first [])
      apply guarded_bind register _ machine
      · exact (guarded_within register fuel).exec first false [] machine orderly stands
          ⟨fun mention inside => settled mention (List.mem_append_left _ inside), placed.1⟩
      · intro after _ advanced _
        rw [← advanced.frame]
        refine ih after advanced.orderly (advanced.frame.trans root) ⟨?_, placed.2⟩
        intro mention inside
        refine settled mention (List.mem_append_right _ ?_)
        rw [after_nil]
        exact inside

end Treewalk.Binding
