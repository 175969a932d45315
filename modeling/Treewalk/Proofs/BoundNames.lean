import Mathlib
import Treewalk.Proofs.History

/-!
Every use with a recorded distance finds its frame. Whatever ran before on the machine, at each moment of a run the
frame at that distance exists and is a local one, and it binds the name except where an initializer assigns to its
own variable. So a run fails for want of a binding only at a global name or at such an assignment, and the second
does happen: the analysis lets those assignments pass.
-/

set_option autoImplicit false

namespace Treewalk

namespace Binding

open Grammar (plainToken textToken)

theorem resolved_uses_find_their_frames (history : List (List (Stmt NodeId))) (machine : Machine)
    (ran : machine.Ran history) (tokens : List Token) (read : (readProgram tokens).errors = [])
    (resolved : misuses (readProgram tokens).result = []) (fuel : Nat) :
    (Machine.traced fuel (readProgram tokens).result machine).2 =
      Machine.interpret fuel (readProgram tokens).result machine ∧
    (∀ moment ∈ (Machine.traced fuel (readProgram tokens).result machine).1, ∀ use, moment.use? = some use →
      ∀ distance, moment.machine.distances[use.label]? = some distance →
        ∃ home, moment.machine.heap.ancestor? distance moment.machine.frame = some home ∧ home ≠ globalFrame ∧
          (moment.machine.heap.binds home use.name.lexeme = true ↔
            ¬ OwnIn ((machine.prepare (readProgram tokens).result).1 :: history) use)) ∧
    (∀ name line after,
      Machine.interpret fuel (readProgram tokens).result machine = .fault ⟨.unbound name, line⟩ after →
        ∃ moment ∈ (Machine.traced fuel (readProgram tokens).result machine).1.getLast?, ∃ use,
          moment.use? = some use ∧ use.name.lexeme = name ∧ use.name.line = line ∧
          (moment.machine.distances[use.label]? = none ∨
            OwnIn ((machine.prepare (readProgram tokens).result).1 :: history) use)) := by
  have resting := resting_of_ran history machine ran
  have guarded := interpret_guarded history machine (readProgram tokens).result fuel resting resolved
    (Grammar.readProgram_placed tokens read)
  have erased : (Machine.traced fuel (readProgram tokens).result machine).2 =
      Machine.interpret fuel (readProgram tokens).result machine :=
    congrFun (Machine.traced_erases fuel (readProgram tokens).result) machine
  refine ⟨erased, guarded.found, ?_⟩
  intro name line after failed
  have ends := guarded.ends
  change Ends _ _ _ _ _ (Machine.traced fuel (readProgram tokens).result machine).2 at ends
  rw [erased, failed] at ends
  cases ends with
  | fault _ _ _ _ missing => exact missing name rfl

-- `{ var a = (a = "one"); print a; }`

def ownInitializer : List Token :=
  [plainToken .leftBrace "\x7b", plainToken .kwVar "var", plainToken .identifier "a", plainToken .equal "=",
    plainToken .leftParen "(", plainToken .identifier "a", plainToken .equal "=",
    textToken "one", plainToken .rightParen ")", plainToken .semicolon ";",
    plainToken .kwPrint "print", plainToken .identifier "a", plainToken .semicolon ";", plainToken .rightBrace "\x7d"]

def firstMachine : Machine := Machine.start 8 (Sink.empty none) (Clock.ticking 0)

theorem ownInitializer_finds_frames :
    (readProgram ownInitializer).errors = [] ∧ misuses (readProgram ownInitializer).result = [] ∧
    (∀ moment ∈ (Machine.traced 10 (readProgram ownInitializer).result firstMachine).1, ∀ use,
      moment.use? = some use → ∀ distance, moment.machine.distances[use.label]? = some distance →
        ∃ home, moment.machine.heap.ancestor? distance moment.machine.frame = some home ∧ home ≠ globalFrame ∧
          (moment.machine.heap.binds home use.name.lexeme = true ↔
            ¬ OwnIn [(firstMachine.prepare (readProgram ownInitializer).result).1] use)) := by
  have read : (readProgram ownInitializer).errors = [] := by rfl
  have resolved : misuses (readProgram ownInitializer).result = [] := by rfl
  have found := resolved_uses_find_their_frames [] firstMachine (.start 8 (Sink.empty none) (Clock.ticking 0))
    ownInitializer read resolved 10
  exact ⟨read, resolved, found.2.1⟩

-- The last moment of its run is the assignment, with distance 0 on record and a frame that does not bind the name.
theorem ownInitializer_unbound :
    (readProgram ownInitializer).errors = [] ∧ misuses (readProgram ownInitializer).result = [] ∧
    ((Machine.traced 10 (readProgram ownInitializer).result firstMachine).1.getLast?.map fun moment =>
      (moment.use?.map (·.name.lexeme), moment.use?.bind (moment.machine.distances[·.label]?),
        moment.machine.heap.binds moment.machine.frame "a")) = some (some "a", some 0, false) ∧
    (match Machine.interpret 10 (readProgram ownInitializer).result firstMachine with
      | .fault fault _ => some fault
      | _ => none) = some ⟨.unbound "a", 1⟩ := by
  refine ⟨by rfl, by rfl, ?_, ?_⟩
  · cbv
  · cbv

end Binding

end Treewalk
