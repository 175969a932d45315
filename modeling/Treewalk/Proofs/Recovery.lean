import Treewalk.Proofs.TotalReading

/-!
Going on after a mistake. A declaration that fails leaves nothing behind but its mistakes: reading goes on at the next
boundary, with commas as operators again, and from there on gives what it gives when it starts there afresh.
-/

set_option autoImplicit false

namespace Treewalk

open Grammar (plainToken)

section fresh

variable (tokens : List Token) (start : Nat)

-- Tokens without those in front, which are all before the first end.
theorem ofTokens_drop (early : start ≤ firstEnd tokens) :
    (Input.ofTokens (tokens.drop start)).tokens = (Input.ofTokens tokens).tokens.drop start ∧
      (start < firstEnd tokens → (Input.ofTokens (tokens.drop start)).stop = (Input.ofTokens tokens).stop) := by
  rw [← tapeOf_last] at early ⊢
  change start ≤ (Input.ofTokens tokens).tokens.length at early
  change _ ∧ (start < (Input.ofTokens tokens).tokens.length → _)
  rcases tokens_split tokens with free | ⟨body, stop, later, rfl, free, ended⟩
  · rw [ofTokens_free tokens free, ofTokens_free _ fun token inside => free token (List.mem_of_mem_drop inside)]
    refine ⟨rfl, fun before => ?_⟩
    rw [List.getLast?_drop, if_neg (Nat.not_le.mpr before)]
  · rw [ofTokens_ended body later stop free ended] at early ⊢
    rw [List.drop_append_of_le_length early,
      ofTokens_ended _ later stop (fun token inside => free token (List.mem_of_mem_drop inside)) ended]
    exact ⟨rfl, fun _ => rfl⟩

-- Where no token is left, the end itself is of no account.
theorem readProgram_drop (record : List Event) (early : start ≤ firstEnd tokens)
    (rereads : Rereads (tapeOf tokens) start record) :
    readProgram (tokens.drop start) = ⟨stmtsIn record, errorsIn record⟩ := by
  obtain ⟨left, stops⟩ := ofTokens_drop tokens start early
  have ample : 24 * ((tapeOf tokens).last - start) + 22 ≤ (Input.ofTokens (tokens.drop start)).bound := by
    rw [Input.bound, left, List.length_drop]
    change 24 * ((Input.ofTokens tokens).tokens.length - start) + 22 ≤ _
    omega
  have read := rereads _ ample
  change readDeclarations _ false (Input.ofTokens tokens).stop ((Input.ofTokens tokens).tokens.drop start) = _ at read
  have fresh : readDeclarations (Input.ofTokens (tokens.drop start)).bound false (Input.ofTokens (tokens.drop start)).stop
      (Input.ofTokens (tokens.drop start)).tokens = ⟨some (stmtsIn record), [], errorsIn record⟩ := by
    rw [← read, left]
    by_cases before : start < firstEnd tokens
    · rw [stops before]
    · have none : (Input.ofTokens tokens).tokens.drop start = [] := by
        rw [← tapeOf_last] at before
        exact List.drop_eq_nil_of_le (Nat.le_of_not_gt before)
      obtain ⟨bound, positive⟩ := Nat.exists_eq_add_one.mpr
        (show 0 < (Input.ofTokens (tokens.drop start)).bound by omega)
      rw [none, positive, readDeclarations_nil, readDeclarations_nil]
  rw [readProgram, Input.program, fresh]
  rfl

end fresh

theorem recovery_leaves_nothing (tokens : List Token) (extra : Nat) :
    readProgram tokens =
        ⟨stmtsIn (Walk.program extra tokens).record, errorsIn (Walk.program extra tokens).record⟩ ∧
      ∀ early round late, (Walk.program extra tokens).record = early ++ .tried round :: late →
        round.commas = true ∧ (round.failedAt = none → round.stmt.isSome = true) ∧
        (∀ stood, round.failedAt = some stood →
          round.stmt = none ∧ round.errors ≠ [] ∧ Resumes (closed tokens) stood round.finish) ∧
        (round.inBlock = false → readProgram (tokens.drop round.finish) = ⟨stmtsIn late, errorsIn late⟩) := by
  obtain ⟨record, walks, reads, trail⟩ := program_walked tokens extra
  rw [walks]
  refine ⟨reads, fun early round late split => ?_⟩
  change record = _ at split
  subst split
  obtain ⟨sound, rereads⟩ := trail_round early late round trail
  have within := sound.within
  have failed := sound.failed
  rw [tapeOf_last] at within
  rw [tapeOf_tokens] at failed
  refine ⟨sound.commas, sound.given, failed, fun outside => ?_⟩
  exact readProgram_drop tokens round.finish late within (rereads outside)

-- `f(a +; print x, y;` fails in an argument, where commas are no operators.
def brokenCall : List Token :=
  [plainToken .identifier "f", plainToken .leftParen "(", plainToken .identifier "a", plainToken .plus "+",
    plainToken .semicolon ";", plainToken .kwPrint "print", plainToken .identifier "x", plainToken .comma ",",
    plainToken .identifier "y", plainToken .semicolon ";"]

def brokenRound : Round := ⟨false, 0, true, some 4, 5, none, [⟨plainToken .semicolon ";", .expression⟩]⟩

theorem brokenCall_split : ∃ early late, (Walk.program 0 brokenCall).record = early ++ .tried brokenRound :: late := by
  have found : (Walk.program 0 brokenCall).record[50]? = some (.tried brokenRound) := rfl
  exact List.append_of_mem (List.mem_of_getElem? found)

theorem brokenCall_recovers : ∃ early late, (Walk.program 0 brokenCall).record = early ++ .tried brokenRound :: late ∧
    Resumes (closed brokenCall) 4 5 ∧ readProgram (brokenCall.drop 5) = ⟨stmtsIn late, errorsIn late⟩ := by
  obtain ⟨early, late, split⟩ := brokenCall_split
  obtain ⟨_, _, failed, fresh⟩ := (recovery_leaves_nothing brokenCall 0).2 early brokenRound late split
  exact ⟨early, late, split, (failed 4 rfl).2.2, fresh rfl⟩

end Treewalk
