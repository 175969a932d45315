import Treewalk.Proofs.RenumberedSessions
import Treewalk.Proofs.RunningInPieces

/-!
A rejected step leaves no trace. A text that cannot be scanned or read, or that misuses names, leaves nothing in the
machine but numbers that are used up and distances recorded under them, and no function has these numbers. The steps
behind it do what they would have done without it.
-/

set_option autoImplicit false

namespace Treewalk

-- A step that runs nothing, since its text has mistakes.
inductive Rejected : Step → String → Prop where
  | unscanned (kind : Step) (source : String) (runs : kind ≠ .tree) (errors : (scan source).errors ≠ []) :
      Rejected kind source
  | unread (source : String) (scanned : (scan source).errors = [])
      (errors : (readProgram (scan source).tokens).errors ≠ []) : Rejected .run source
  | neither (source : String) (scanned : (scan source).errors = [])
      (errors : (readProgram (scan source).tokens).errors ≠ [])
      (unread : (readExpression (scan source).tokens).result = none) : Rejected .line source
  | misused (kind : Step) (source : String) (runs : kind ≠ .tree) (scanned : (scan source).errors = [])
      (read : (readProgram (scan source).tokens).errors = []) (errors : misuses (programOf source) ≠ []) :
      Rejected kind source

-- Uses up numbers.
def Machine.spend (machine : Machine) (count : Nat) : Machine := { machine with labels := machine.labels + count }

theorem learns_itself (machine : Machine) (fresh : machine.Unrecorded) : machine.Learns machine :=
  ⟨Nat.le_refl _, fun _ _ => rfl, fresh, rfl⟩

theorem learns_spend (machine ready : Machine) (count : Nat) (learns : machine.Learns ready) :
    machine.Learns (ready.spend count) where
  more := Nat.le_trans learns.more (Nat.le_add_right _ count)
  kept := learns.kept
  unrecorded label above := learns.unrecorded label (Nat.le_trans (Nat.le_add_right _ count) above)
  same := by
    have same := learns.same
    generalize ready.distances = distances at same
    generalize ready.labels = labels at same
    rw [same]
    rfl

namespace Paired

-- What a machine learns between two programs changes nothing but numbers: the functions it holds have older ones.
theorem renumbered_learns (history : List (List (Stmt NodeId))) (machine ready : Machine)
    (resting : Binding.Resting history machine) (learns : machine.Learns ready) :
    Renumbered machine.labels (ready.labels - machine.labels) machine ready := by
  have shifted : ready.labels = machine.labels + (ready.labels - machine.labels) := (Nat.add_sub_of_le learns.more).symm
  have heap := sameHeap_resting (Pairing.renumbered machine.labels (ready.labels - machine.labels)) history machine
    resting (fun _ _ => rfl) (fun _ below => .inl ⟨below, rfl⟩)
  constructor
  · rw [learns.same]
    exact ⟨heap, rfl, rfl, rfl, rfl, rfl, rfl, rfl, rfl, rfl, rfl⟩
  · intro count
    refine .inr ⟨Nat.le_add_right _ count, ?_⟩
    rw [Nat.add_right_comm, ← shifted]
  · intro label label' labels
    rcases labels with ⟨below, same⟩ | ⟨above, moved⟩
    · rw [same]
      exact (learns.kept label below).symm
    · have beyond : ready.labels ≤ label' := by
        rw [shifted, moved]
        exact Nat.add_le_add_right above _
      rw [resting.unrecorded label above, learns.unrecorded label' beyond]

end Paired

namespace Session

open Paired

def spend (session : Session) (count : Nat) : Session := { session with machine := session.machine.spend count }

theorem execute_rejected (fuel : Nat) (session : Session) (program : List (Stmt Unit)) (misused : misuses program ≠ [])
    (fresh : session.machine.Unrecorded) :
    ∃ after, session.execute fuel program = some after ∧ session.machine.Learns after.machine := by
  rw [execute_misused fuel session program misused]
  refine ⟨_, rfl, ?_⟩
  rw [reject_machine]
  exact prepare_learns session.machine program fresh

-- All that a rejected step does to the machine.
theorem step_rejected (fuel : Nat) (session : Session) (kind : Step) (source : String) (rejected : Rejected kind source)
    (fresh : session.machine.Unrecorded) :
    ∃ after, session.step fuel kind source = some after ∧ session.machine.Learns after.machine := by
  -- Complaints about a text leave the machine as it was.
  have complained (complaints : List String) : session.machine.Learns (session.reset.reject complaints).machine := by
    rw [reject_machine]
    exact learns_itself session.machine fresh
  cases rejected with
  | unscanned _ _ runs errors => exact ⟨_, step_unscanned fuel session source kind errors, complained _⟩
  | unread _ scanned errors =>
      rw [step_run fuel session source scanned]
      exact ⟨_, runTokens_unread fuel session.reset _ errors, complained _⟩
  | neither _ scanned errors unread =>
      rw [step_line fuel session source scanned, runLineTokens_unread fuel session.reset _ errors, unread]
      exact ⟨_, runTokens_unread fuel session.reset _ errors, complained _⟩
  | misused _ _ runs scanned read errors =>
      have executed := execute_rejected fuel session.reset (programOf source) errors fresh
      have tokens := runTokens_read fuel session.reset (scan source).tokens read
      cases kind with
      | run =>
          rw [step_run fuel session source scanned, tokens]
          exact executed
      | line =>
          rw [step_line fuel session source scanned, runLineTokens_read fuel session.reset _ read, tokens]
          exact executed
      | tree => exact absurd rfl runs

-- Also if reading the text has used up numbers before it was rejected.
theorem rejected_step_leaves_no_trace (session : Session) (fuel : Nat) (kind : Step) (source : String)
    (reached : session.Reachable) (rejected : Rejected kind source) :
    ∃ after, session.step fuel kind source = some after ∧ after.machine.sink = session.machine.sink ∧
      after.machine.heap = session.machine.heap ∧ after.machine.frame = session.machine.frame ∧
      ∀ (spent enough : Nat) (later : List (Step × String)),
        (after.spend spent).observations enough later = session.observations enough later := by
  obtain ⟨history, past⟩ := used_of_reachable session reached
  have resting := Binding.resting_of_ran history session.machine past
  obtain ⟨after, stepped, learns⟩ := step_rejected fuel session kind source rejected resting.unrecorded
  have sink : after.machine.sink = session.machine.sink := by rw [learns.same]
  have heap : after.machine.heap = session.machine.heap := by rw [learns.same]
  have frame : after.machine.frame = session.machine.frame := by rw [learns.same]
  refine ⟨after, stepped, sink, heap, frame, fun spent enough later => ?_⟩
  have further := learns_spend session.machine after.machine spent learns
  exact (observations_alike enough later session (after.spend spent)
    (renumbered_learns history session.machine _ resting further)).symm

-- A name is declared twice in a block, behind uses whose distances are recorded.

def redeclaring : String := "\x7b var b = a; print b; var b = same(b); \x7d"

def usingLocals : List (Step × String) := [(.run, "\x7b var c = same(a); print c; \x7d"), (.line, "same(1)")]

theorem redeclaring_leaves_no_trace :
    ∃ session, unused.step 20 .run defining = some session ∧ session.Reachable ∧ Rejected .run redeclaring ∧
      ∃ after, session.step 20 .run redeclaring = some after ∧ after.machine.sink = session.machine.sink ∧
        after.machine.heap = session.machine.heap ∧ after.machine.frame = session.machine.frame ∧
        (after.spend 3).observations 20 usingLocals = session.observations 20 usingLocals := by
  have ended : (unused.step 20 .run defining).isSome = true := by decide +kernel
  obtain ⟨session, ran⟩ := Option.isSome_iff_exists.mp ended
  have reached : session.Reachable := .step unused session 20 .run defining (.start _ _) ran
  have misused : (misuses (programOf redeclaring)).isEmpty = false := by decide +kernel
  have rejected : Rejected .run redeclaring :=
    .misused .run redeclaring (by decide) (by decide +kernel) (List.isEmpty_iff.mp (by decide +kernel))
      (List.isEmpty_eq_false_iff.mp misused)
  obtain ⟨after, stepped, sink, heap, frame, same⟩ :=
    rejected_step_leaves_no_trace session 20 .run redeclaring reached rejected
  exact ⟨session, ran, reached, rejected, after, stepped, sink, heap, frame, same 3 20 usingLocals⟩

end Session

end Treewalk
