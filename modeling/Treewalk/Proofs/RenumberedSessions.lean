import Treewalk.Proofs.Renumbering
import Treewalk.Proofs.Sessions

/-!
Sessions under other numbers. If the machines of two sessions differ in the numbers of uses only, then every step does
the same in both: it writes the same, adds the same messages and leaves the same flags, and the machines still differ in
numbers only.
-/

set_option autoImplicit false

namespace Treewalk

namespace Paired

-- Numbers from one on stand for those some places further on, and older ones for themselves.
def Pairing.renumbered (first shift : Nat) : Pairing where
  tokens := Eq
  labels (label other : Nat) := label < first ∧ other = label ∨ first ≤ label ∧ other = label + shift
  kinds := by
    intro token other same
    rw [same]
  lexemes := by
    intro token other same
    rw [same]

theorem renumbered_oneToOne (first shift : Nat) : (Pairing.renumbered first shift).OneToOne := by
  intro label label' other other' labels others
  simp only [Pairing.renumbered] at labels others
  omega

-- The machines differ in the numbers they know and use, also in the code of the functions they hold.
structure Renumbered (first shift : Nat) (machine mirror : Machine) : Prop where
  matched : Matched (Pairing.renumbered first shift) machine mirror machine mirror
  aligned : (Pairing.renumbered first shift).Aligned machine.labels mirror.labels
  agree : (Pairing.renumbered first shift).Agree machine.distances mirror.distances

variable {first shift : Nat} {machine mirror : Machine}

-- A run leaves numbers as they are.
theorem renumbered_after {after after' : Machine} (renumbered : Renumbered first shift machine mirror)
    (reached : Matched (Pairing.renumbered first shift) machine mirror after after') :
    Renumbered first shift after after' where
  matched := { reached with distances := rfl, labels := rfl, mirrorDistances := rfl, mirrorLabels := rfl }
  aligned := by
    rw [reached.labels, reached.mirrorLabels]
    exact renumbered.aligned
  agree := by
    rw [reached.distances, reached.mirrorDistances]
    exact renumbered.agree

theorem renumbered_prepare (renumbered : Renumbered first shift machine mirror) (program : List (Stmt Unit)) :
    StmtPairAll (Pairing.renumbered first shift) (machine.prepare program).1 (mirror.prepare program).1 ∧
      Renumbered first shift (machine.prepare program).2 (mirror.prepare program).2 := by
  obtain ⟨paired, aligned⟩ := stmtPairAll_numbered (fun _ => rfl) program machine.labels mirror.labels renumbered.aligned
  have agree := prepare_agree (renumbered_oneToOne first shift) machine mirror program paired renumbered.agree
  have matched := renumbered.matched
  refine ⟨paired, ?_, aligned, agree⟩
  exact ⟨matched.heap, matched.frame, matched.depth, matched.limit, matched.closures, matched.sink, matched.clock, rfl,
    rfl, rfl, rfl⟩

theorem renumbered_loadExpr (renumbered : Renumbered first shift machine mirror) (expr : Expr Unit) :
    ExprPair (Pairing.renumbered first shift) (machine.loadExpr expr).1 (mirror.loadExpr expr).1 ∧
      Renumbered first shift (machine.loadExpr expr).2 (mirror.loadExpr expr).2 := by
  obtain ⟨paired, aligned⟩ := exprPair_numbered (fun _ => rfl) expr machine.labels mirror.labels renumbered.aligned
  have matched := renumbered.matched
  refine ⟨paired, ?_, aligned, renumbered.agree⟩
  exact ⟨matched.heap, matched.frame, matched.depth, matched.limit, matched.closures, matched.sink, matched.clock, rfl,
    rfl, rfl, rfl⟩

theorem renumbered_emit (renumbered : Renumbered first shift machine mirror) (text : String) :
    (mirror.emit text).1 = (machine.emit text).1 ∧
      Renumbered first shift (machine.emit text).2 (mirror.emit text).2 := by
  unfold Machine.emit
  rw [renumbered.matched.sink]
  exact ⟨rfl, { renumbered.matched with sink := rfl }, renumbered.aligned, renumbered.agree⟩

end Paired

namespace Session

open Paired

-- Two sessions in the middle of a step, with what each of them had told before it.
structure Alike (first shift : Nat) (before before' : List String) (session mirror : Session) : Prop where
  machines : Renumbered first shift session.machine mirror.machine
  messages : ∃ added, session.messages = before ++ added ∧ mirror.messages = before' ++ added
  hadError : session.hadError = mirror.hadError
  hadRuntimeError : session.hadRuntimeError = mirror.hadRuntimeError
  failure : session.failure = mirror.failure

section steps

variable {first shift : Nat} {before before' : List String} {session mirror : Session}

theorem alike_reset (machines : Renumbered first shift session.machine mirror.machine) :
    Alike first shift session.messages mirror.messages session.reset mirror.reset :=
  ⟨machines, ⟨[], (List.append_nil _).symm, (List.append_nil _).symm⟩, rfl, rfl, rfl⟩

variable (alike : Alike first shift before before' session mirror)

include alike

theorem messages_alike (more : List String) :
    ∃ added, session.messages ++ more = before ++ added ∧ mirror.messages ++ more = before' ++ added := by
  obtain ⟨added, messages, messages'⟩ := alike.messages
  refine ⟨added ++ more, ?_, ?_⟩
  · rw [messages, List.append_assoc]
  · rw [messages', List.append_assoc]

theorem alike_reject (complaints : List String) :
    Alike first shift before before' (session.reject complaints) (mirror.reject complaints) := by
  unfold reject
  split
  · exact alike
  · exact { alike with messages := messages_alike alike complaints, hadError := rfl }

theorem alike_report (fault : Fault) : Alike first shift before before' (session.report fault) (mirror.report fault) :=
  { alike with messages := messages_alike alike [fault.display], hadRuntimeError := rfl }

theorem alike_machines (machine other : Machine) (machines : Renumbered first shift machine other) :
    Alike first shift before before' { session with machine := machine } { mirror with machine := other } :=
  { alike with machines := machines }

-- The session behind a run of a program that ended alike.
theorem alike_conclude (ready ready' : Machine) (outcome outcome' : Outcome Unit)
    (machines : Renumbered first shift ready ready')
    (similar : Similar (Pairing.renumbered first shift) ready ready' (fun _ _ => True) outcome outcome') :
    Option.Rel (Alike first shift before before') (session.conclude outcome) (mirror.conclude outcome') := by
  cases similar with
  | done _ _ after after' reached _ => exact .some (alike_machines alike after after' (renumbered_after machines reached))
  | fault cause token token' after after' paired reached =>
      cases paired
      have ended := alike_machines alike after after' (renumbered_after machines reached)
      exact .some (alike_report ended ⟨cause, token.line⟩)
  | outOfFuel => exact .none

theorem alike_execute (fuel : Nat) (program : List (Stmt Unit)) :
    Option.Rel (Alike first shift before before') (session.execute fuel program) (mirror.execute fuel program) := by
  obtain ⟨paired, machines⟩ := renumbered_prepare alike.machines program
  by_cases resolved : misuses program = []
  · rw [execute_resolved fuel session program resolved, execute_resolved fuel mirror program resolved]
    have similar := runProgram_similar machines.agree fuel _ _ paired _ _ machines.matched
    exact alike_conclude alike _ _ _ _ machines similar
  · rw [execute_misused fuel session program resolved, execute_misused fuel mirror program resolved]
    exact .some (alike_reject (alike_machines alike _ _ machines) _)

omit alike in
theorem alike_echo (lines : List String) : ∀ session mirror : Session,
    Alike first shift before before' session mirror →
    Alike first shift before before' (session.echo lines) (mirror.echo lines) := by
  induction lines with
  | nil => exact fun _ _ alike => alike
  | cons line rest ih =>
      intro session mirror alike
      obtain ⟨refusals, machines⟩ := renumbered_emit alike.machines (line ++ "\n")
      simp only [echo]
      generalize session.machine.emit (line ++ "\n") = emitted at refusals machines ⊢
      generalize mirror.machine.emit (line ++ "\n") = emitted' at refusals machines ⊢
      obtain ⟨refusal, machine⟩ := emitted
      obtain ⟨refusal', other⟩ := emitted'
      cases refusals
      cases refusal with
      | none => exact ih _ _ (alike_machines alike machine other machines)
      | some reason => exact { alike with machines := machines, failure := rfl }

theorem alike_evaluate (fuel : Nat) (expr : Expr Unit) :
    Option.Rel (Alike first shift before before') (session.evaluate fuel expr) (mirror.evaluate fuel expr) := by
  obtain ⟨paired, machines⟩ := renumbered_loadExpr alike.machines expr
  have similar := (similar_within machines.agree fuel).eval _ _ _ _ paired machines.matched
  simp only [evaluate]
  generalize eval fuel (session.machine.loadExpr expr).1 (session.machine.loadExpr expr).2 = outcome at similar ⊢
  generalize eval fuel (mirror.machine.loadExpr expr).1 (mirror.machine.loadExpr expr).2 = outcome' at similar ⊢
  cases similar with
  | done value value' after after' reached same =>
      dsimp only
      rw [Value.alike_display value value' (same_alike same)]
      exact .some (alike_echo _ _ _ (alike_machines alike after after' (renumbered_after machines reached)))
  | fault cause token token' after after' matching reached =>
      cases matching
      have ended := alike_machines alike after after' (renumbered_after machines reached)
      exact .some (alike_report ended ⟨cause, token.line⟩)
  | outOfFuel => exact .none

theorem alike_runTokens (fuel : Nat) (tokens : List Token) :
    Option.Rel (Alike first shift before before') (session.runTokens fuel tokens) (mirror.runTokens fuel tokens) := by
  simp only [runTokens]
  split
  · exact alike_execute alike fuel _
  · exact .some (alike_reject alike _)

theorem alike_runLineTokens (fuel : Nat) (tokens : List Token) :
    Option.Rel (Alike first shift before before') (session.runLineTokens fuel tokens)
      (mirror.runLineTokens fuel tokens) := by
  simp only [runLineTokens]
  split
  · exact alike_execute alike fuel _
  · cases (readExpression tokens).result with
    | some expr => exact alike_evaluate alike fuel expr
    | none => exact .some (alike_reject alike _)

end steps

theorem alike_step {first shift : Nat} (fuel : Nat) (kind : Step) (source : String) (session mirror : Session)
    (machines : Renumbered first shift session.machine mirror.machine) :
    Option.Rel (Alike first shift session.messages mirror.messages) (session.step fuel kind source)
      (mirror.step fuel kind source) := by
  have clean := alike_reset machines
  simp only [step]
  split
  · exact .some (alike_reject clean _)
  · cases kind with
    | run => exact alike_runTokens clean fuel _
    | line => exact alike_runLineTokens clean fuel _
    | tree => exact .some (alike_echo _ _ _ (alike_reject clean _))

-- What can be seen of a step: what it wrote, what it told, and the flags it left.
structure Observation where
  output : ByteArray
  messages : List String
  hadError : Bool
  hadRuntimeError : Bool
  failure : Option String

def observe (before after : Session) : Observation where
  output := after.machine.sink.written.extract before.machine.sink.written.size after.machine.sink.written.size
  messages := after.messages.drop before.messages.length
  hadError := after.hadError
  hadRuntimeError := after.hadRuntimeError
  failure := after.failure

/-- What can be seen of steps on texts, one after another, up to one that runs out of fuel. -/
def observations (fuel : Nat) (session : Session) : List (Step × String) → List (Option Observation)
  | [] => []
  | (kind, source) :: rest => match session.step fuel kind source with
    | none => [none]
    | some after => some (session.observe after) :: after.observations fuel rest

theorem observe_alike {first shift : Nat} (session mirror after after' : Session)
    (machines : Renumbered first shift session.machine mirror.machine)
    (alike : Alike first shift session.messages mirror.messages after after') :
    session.observe after = mirror.observe after' := by
  obtain ⟨added, messages, messages'⟩ := alike.messages
  have told : after.messages.drop session.messages.length = after'.messages.drop mirror.messages.length := by
    rw [messages, messages', List.drop_left, List.drop_left]
  simp only [observe, machines.matched.sink, alike.machines.matched.sink, told, alike.hadError, alike.hadRuntimeError,
    alike.failure]

theorem observations_alike {first shift : Nat} (fuel : Nat) (steps : List (Step × String)) :
    ∀ session mirror : Session, Renumbered first shift session.machine mirror.machine →
    session.observations fuel steps = mirror.observations fuel steps := by
  induction steps with
  | nil => exact fun _ _ _ => rfl
  | cons next rest ih =>
      intro session mirror machines
      obtain ⟨kind, source⟩ := next
      have stepped := alike_step fuel kind source session mirror machines
      simp only [observations]
      generalize session.step fuel kind source = ended at stepped ⊢
      generalize mirror.step fuel kind source = ended' at stepped ⊢
      cases stepped with
      | none => rfl
      | @some after after' alike =>
          simp only [observe_alike session mirror after after' machines alike, ih after after' alike.machines]

end Session

end Treewalk
