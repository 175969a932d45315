import Treewalk.Proofs.JoinedTokens
import Treewalk.Proofs.CursorPrograms

/-!
Tokens behind a program. Declarations that were read without a mistake are read the same when other tokens follow, and what
follows is read as it is on its own, mistakes included. Only an `else` could reach back: it would carry on an `if` at the
end of the program.
-/

set_option autoImplicit false

namespace Treewalk

open Grammar (plainToken)

-- With enough room declarations are read to the last token, and the bound plays no part.
theorem readDeclarations_ample (stop : Token) (tokens : List Token) (free : ∀ token ∈ tokens, token.kind ≠ .endOfInput)
    (ended : stop.kind = .endOfInput) :
    ∃ stmts errors, ∀ bound, 24 * tokens.length + 22 ≤ bound →
      readDeclarations bound false stop tokens = ⟨some stmts, [], errors⟩ := by
  let tape : Tape := ⟨tokens, stop, [], free, ended⟩
  have room : 24 * (tape.last - 0) + 22 ≤ 24 * tokens.length + 22 := Nat.le_refl _
  obtain ⟨record, -, rereads, -⟩ := declarations_walked room (Nat.zero_le _)
  exact ⟨stmtsIn record, errorsIn record, fun bound room => rereads bound room⟩

section behind

variable (stop : Token) (rest : List Token) (stmts : List (Stmt Unit)) (errors : List ParseError)
  (behind : ∀ bound, 24 * rest.length + 22 ≤ bound → readDeclarations bound false stop rest = ⟨some stmts, [], errors⟩)

include behind

-- A declaration is read, and the next one starts where it ended, with one unit of the bound less.
theorem readDeclarations_built (program : List (Stmt Unit)) : ∀ (tokens : List Token) (bound : Nat),
    Grammar.Builds true .declarations tokens rest program → 24 * tokens.length + 22 ≤ bound →
    readDeclarations bound false stop tokens = ⟨some (program ++ stmts), [], errors⟩ := by
  induction program with
  | nil =>
      intro tokens bound built room
      cases built
      exact behind bound room
  | cons tree others ih =>
      intro tokens bound built room
      cases built with
      | more tokens middle _ _ _ declared later =>
          have shorter : middle.length < tokens.length := Grammar.builds_shorter _ _ _ _ _ declared
          obtain ⟨bound, rfl⟩ := Nat.exists_eq_add_one.mpr (show 0 < bound by omega)
          have read := (Grammar.stmt_complete_within bound).declaration stop tokens middle tree (by omega) declared
          have tried := (Reading.gives_recover _ (Grammar.declaration_honest bound) stop tokens middle _).mpr ⟨tree, rfl, read⟩
          cases tokens with
          | nil => exact absurd shorter (Nat.not_lt_zero _)
          | cons first tokens =>
              exact readDeclarations_cons stop first tokens bound (some tree) middle [] errors (others ++ stmts) tried
                (ih middle bound later (by omega))

end behind

section inputs

variable (first second : List Token) (free : ∀ token ∈ first, token.kind ≠ .endOfInput)

include free

-- Behind other tokens, tokens end as they do on their own.
theorem ofTokens_append (nonempty : second ≠ []) :
    Input.ofTokens (first ++ second) = ⟨first ++ (Input.ofTokens second).tokens, (Input.ofTokens second).stop⟩ := by
  rcases tokens_split second with unended | ⟨body, stop, later, rfl, unended, ended⟩
  · have none : ∀ token ∈ first ++ second, token.kind ≠ .endOfInput := fun token inside =>
      (List.mem_append.mp inside).elim (free token) (unended token)
    have last : (first ++ second).getLast? = second.getLast? := by
      rw [List.getLast?_append, List.getLast?_eq_some_getLast nonempty]
      rfl
    rw [ofTokens_free second unended, ofTokens_free _ none, last]
  · have none : ∀ token ∈ first ++ body, token.kind ≠ .endOfInput := fun token inside =>
      (List.mem_append.mp inside).elim (free token) (unended token)
    rw [ofTokens_ended body later stop unended ended, ← List.append_assoc, ofTokens_ended _ later stop none ended]

end inputs

-- What tokens start with, they start with up to their end.
theorem not_ahead_ofTokens (wanted : Kind → Bool) (tokens : List Token) (missing : ¬ Ahead wanted tokens) :
    ¬ Ahead wanted (Input.ofTokens tokens).tokens := by
  rcases tokens_split tokens with unended | ⟨body, stop, later, rfl, unended, ended⟩
  · rwa [ofTokens_free tokens unended]
  · rw [ofTokens_ended body later stop unended ended]
    cases body with
    | nil => exact not_ahead_nil wanted
    | cons token body => rwa [List.cons_append, ahead_cons, ← ahead_cons wanted token body] at missing

theorem readProgram_append (first second : List Token) (free : ∀ token ∈ first, token.kind ≠ .endOfInput)
    (clean : (readProgram first).errors = []) (noElse : ¬ Ahead (· = .kwElse) second) :
    (readProgram (first ++ second)).result = (readProgram first).result ++ (readProgram second).result ∧
      (readProgram (first ++ second)).errors = (readProgram second).errors := by
  by_cases empty : second = []
  · subst empty
    rw [List.append_nil, clean]
    exact ⟨(List.append_nil _).symm, rfl⟩
  · have inputs := ofTokens_append first second free empty
    have unended := ofTokens_unended second
    have ended := Grammar.ofTokens_stop second
    have started := not_ahead_ofTokens _ second noElse
    obtain ⟨stmts, errors, behind⟩ := readDeclarations_ample (Input.ofTokens second).stop (Input.ofTokens second).tokens
      unended ended
    -- The program is derived on its own, and then in front of the other tokens.
    have alone := (Grammar.readProgram_iff first [] free (by simp) _).mp (by rw [List.append_nil]; exact ⟨clean, rfl⟩)
    have whole := Grammar.builds_moved id keepsText_id (Input.ofTokens second).tokens true _ _ _ _ alone fun _ => started
    simp only [Grammar.shifted, List.map_id, List.nil_append, Grammar.Part.movedTree, Stmt.movedAll_id] at whole
    have later : readProgram second = ⟨stmts, errors⟩ := by
      rw [readProgram, Input.program, behind _ (by rw [Input.bound]; omega)]
      rfl
    have room : 24 * (first ++ (Input.ofTokens second).tokens).length + 22 ≤ (Input.ofTokens (first ++ second)).bound := by
      rw [inputs]
      change _ ≤ 24 * ((first ++ (Input.ofTokens second).tokens).length + 2)
      omega
    have both := readDeclarations_built _ _ stmts errors behind _ _ _ whole room
    rw [later, readProgram, Input.program, inputs]
    rw [inputs] at both
    rw [both]
    exact ⟨rfl, rfl⟩

-- `if (a) c;` and, behind it, `) c; c; var`: two mistakes with a statement between them.

def loneIf : List Token :=
  [plainToken .kwIf "if", plainToken .leftParen "(", plainToken .identifier "a", plainToken .rightParen ")",
    plainToken .identifier "c", plainToken .semicolon ";"]

def brokenRest : List Token :=
  [plainToken .rightParen ")", plainToken .identifier "c", plainToken .semicolon ";", plainToken .identifier "c",
    plainToken .semicolon ";", plainToken .kwVar "var"]

theorem loneIf_before_mistakes :
    (∀ token ∈ loneIf, token.kind ≠ .endOfInput) ∧ (readProgram loneIf).errors = [] ∧
      ¬ Ahead (· = .kwElse) brokenRest ∧
      (readProgram brokenRest).errors.map ParseError.cause = [.expression, .variableName] ∧
      (readProgram (loneIf ++ brokenRest)).result = (readProgram loneIf).result ++ (readProgram brokenRest).result ∧
      (readProgram (loneIf ++ brokenRest)).errors = (readProgram brokenRest).errors := by
  have free : ∀ token ∈ loneIf, token.kind ≠ .endOfInput := by decide
  have clean : (readProgram loneIf).errors = [] := by rfl
  have noElse : ¬ Ahead (· = .kwElse) brokenRest := by decide
  exact ⟨free, clean, noElse, by rfl, readProgram_append loneIf brokenRest free clean noElse⟩

end Treewalk
