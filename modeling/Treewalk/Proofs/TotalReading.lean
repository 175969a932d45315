import Treewalk.Proofs.CursorPrograms

/-!
Reading is total, whatever the tokens are. The cursor finds a token wherever it looks, never moves past the first end, and
gets on with every attempt at a declaration, so that no bound beyond the usual one is ever needed. A program is read
right up to the first end, and nothing behind that end plays a part.
-/

set_option autoImplicit false

namespace Treewalk

open Grammar (plainToken)

-- Walks from the first token, with some room beyond the usual bound.

def Walk.program (extra : Nat) (tokens : List Token) : Walked (List (Stmt Unit)) :=
  Walk.declarations ((Input.ofTokens tokens).bound + extra) false (closed tokens) ⟨0, true⟩

def Walk.expression (extra : Nat) (tokens : List Token) : Walked (Expr Unit) :=
  Walk.whole ((Input.ofTokens tokens).bound + extra) (closed tokens) ⟨0, true⟩

-- A walk comes to an end of its own, inside the tokens and at or before the first end, and gets on with every attempt.
structure Finishes {α : Type} (tokens : List Token) (walked : Walked α) (result : Option α) (errors : List ParseError) :
    Prop where
  ended : walked.ended = result.elim .failed .given
  errors : errorsIn walked.record = errors
  within : walked.cursor.place ≤ firstEnd tokens
  looks : ∀ place, .looked place ∈ walked.record → place < (closed tokens).length
  moves : ∀ place, .moved place ∈ walked.record → place ≤ firstEnd tokens
  advances : ∀ round, .tried round ∈ walked.record → round.start < round.finish

section input

variable (tokens : List Token)

theorem firstEnd_isEnd : IsEnd (closed tokens) (firstEnd tokens) := by
  rw [← tapeOf_tokens, ← tapeOf_last]
  exact (isEnd_iff _ (Nat.le_refl _)).mpr rfl

theorem firstEnd_lt : firstEnd tokens < (closed tokens).length := by
  obtain ⟨token, found, _⟩ := firstEnd_isEnd tokens
  exact (List.getElem?_eq_some_iff.mp found).1

theorem bound_ample (extra : Nat) : 24 * ((tapeOf tokens).last - 0) + 22 ≤ (Input.ofTokens tokens).bound + extra := by
  change 24 * ((Input.ofTokens tokens).tokens.length - 0) + 22 ≤ 24 * ((Input.ofTokens tokens).tokens.length + 2) + extra
  omega

-- The tokens before the first end and that end are all that is read.
theorem ofTokens_prefix (others : List Token)
    (same : (closed others).take (firstEnd tokens + 1) = (closed tokens).take (firstEnd tokens + 1)) :
    Input.ofTokens others = Input.ofTokens tokens := by
  have free := ofTokens_unended tokens
  have ended := Grammar.ofTokens_stop tokens
  have first : (closed tokens).take (firstEnd tokens + 1) =
      (Input.ofTokens tokens).tokens ++ [(Input.ofTokens tokens).stop] := by
    rw [← tapeOf_last, ← tapeOf_tokens]
    change ((Input.ofTokens tokens).tokens ++ _ :: _).take ((Input.ofTokens tokens).tokens.length + 1) = _
    rw [List.take_length_add_append]
    rfl
  have shape : closed others = (Input.ofTokens tokens).tokens ++
      (Input.ofTokens tokens).stop :: (closed others).drop (firstEnd tokens + 1) := by
    have whole := List.take_append_drop (firstEnd tokens + 1) (closed others)
    rw [same, first, List.append_assoc] at whole
    exact whole.symm
  obtain ⟨later, split⟩ := closed_split others
  calc Input.ofTokens others
      = Input.ofTokens (closed others) := by
        rw [split, ofTokens_ended _ _ _ (ofTokens_unended others) (Grammar.ofTokens_stop others)]
    _ = Input.ofTokens tokens := by
        rw [shape, ofTokens_ended _ _ _ free ended]

theorem finishes_of_trail {α : Type} (walked : Walked α) (result : Option α)
    (ended : walked.ended = result.elim .failed .given) (within : walked.cursor.place ≤ firstEnd tokens)
    (trail : Trail (tapeOf tokens) walked.record) : Finishes tokens walked result (errorsIn walked.record) := by
  have places (place : Nat) (happened : .looked place ∈ walked.record ∨ .moved place ∈ walked.record) :
      place ≤ firstEnd tokens := by
    rw [← tapeOf_last]
    exact trail_place walked.record trail place happened
  refine ⟨ended, rfl, within, ?_, ?_, ?_⟩
  · intro place looked
    exact Nat.lt_of_le_of_lt (places place (.inl looked)) (firstEnd_lt tokens)
  · intro place moved
    exact places place (.inr moved)
  · intro round tried
    obtain ⟨early, late, shape⟩ := List.append_of_mem tried
    exact (trail_round early late round (shape ▸ trail)).1.advances

-- The walk over a program, and the program that is read, which no room beyond the bound changes.
theorem program_walked (extra : Nat) :
    ∃ record, Walk.program extra tokens = ⟨.given (stmtsIn record), ⟨firstEnd tokens, true⟩, record⟩ ∧
      readProgram tokens = ⟨stmtsIn record, errorsIn record⟩ ∧ Trail (tapeOf tokens) record := by
  obtain ⟨record, walks, rereads, trail⟩ := declarations_walked (bound_ample tokens extra) (Nat.zero_le _)
  rw [tapeOf_tokens, tapeOf_last] at walks
  have read := rereads (Input.ofTokens tokens).bound (bound_ample tokens 0)
  rw [List.drop_zero] at read
  change readDeclarations _ false (Input.ofTokens tokens).stop (Input.ofTokens tokens).tokens = _ at read
  refine ⟨record, walks, ?_, trail⟩
  rw [readProgram, Input.program, read]
  rfl

theorem whole_follows (tape : Tape) (bound : Nat) (input : Input) (room : Room tape 0 19 bound input.bound) :
    Walk.Follows tape true 0 0 (Walk.whole bound) input.whole := by
  refine Walk.follows_bind (Grammar.readExpr_follows room) fun value middle _ _ inside => ?_
  refine Walk.follows_atEnd inside (fun _ => ?_) fun _ => ?_
  · exact Walk.follows_pure value inside (Nat.zero_le _)
  · exact Walk.follows_failHere _ inside

theorem expression_finishes (extra : Nat) :
    ∃ value, Finishes tokens (Walk.expression extra tokens) value (readExpression tokens).errors ∧
      (readExpression tokens).result = if (readExpression tokens).errors.isEmpty then value else none := by
  have walking := bound_ample tokens extra
  have reading := bound_ample tokens 0
  have follows := whole_follows (tapeOf tokens) ((Input.ofTokens tokens).bound + extra) (Input.ofTokens tokens)
    ⟨Nat.zero_le _, by omega, by omega⟩
  unfold Walk.Follows at follows
  rw [List.drop_zero, tapeOf_tokens] at follows
  change Agrees _ true 0 0 (Walk.expression extra tokens)
    ((Input.ofTokens tokens).whole (Input.ofTokens tokens).stop (Input.ofTokens tokens).tokens) at follows
  rw [readExpression, Input.expression]
  generalize Walk.expression extra tokens = walked at follows ⊢
  generalize (Input.ofTokens tokens).whole _ _ = reply at follows ⊢
  cases follows with
  | given value after record _ _ within sound =>
    rw [tapeOf_last] at within
    exact ⟨some value, finishes_of_trail tokens _ _ rfl within (trail_sound record sound), rfl⟩
  | failed after record _ within sound _ =>
    rw [tapeOf_last] at within
    exact ⟨none, finishes_of_trail tokens _ _ rfl within (trail_sound record sound), rfl⟩

end input

theorem reading_total (tokens : List Token) (extra : Nat) :
    Finishes tokens (Walk.program extra tokens) (some (readProgram tokens).result) (readProgram tokens).errors ∧
      (Walk.program extra tokens).cursor.place = firstEnd tokens ∧ IsEnd (closed tokens) (firstEnd tokens) ∧
      (∃ value, Finishes tokens (Walk.expression extra tokens) value (readExpression tokens).errors ∧
        (readExpression tokens).result = if (readExpression tokens).errors.isEmpty then value else none) ∧
      ∀ others, (closed others).take (firstEnd tokens + 1) = (closed tokens).take (firstEnd tokens + 1) →
        readProgram others = readProgram tokens ∧ readExpression others = readExpression tokens := by
  obtain ⟨record, walks, reads, trail⟩ := program_walked tokens extra
  refine ⟨?_, by rw [walks], firstEnd_isEnd tokens, expression_finishes tokens extra, ?_⟩
  · rw [walks, reads]
    exact finishes_of_trail tokens _ _ rfl (Nat.le_refl _) trail
  · intro others same
    have inputs := ofTokens_prefix tokens others same
    rw [readProgram, readExpression, inputs]
    exact ⟨rfl, rfl⟩

-- A number without its value, an end behind it, and a word that is never reached.
def cutOff : List Token :=
  [plainToken .kwPrint "print", plainToken .number "1", Token.endAt 1, plainToken .kwVar "var"]

theorem cutOff_reads_alike : firstEnd cutOff = 2 ∧ (closed (cutOff.take 2)).take 3 = (closed cutOff).take 3 ∧
    Finishes cutOff (Walk.program 0 cutOff) (some (readProgram cutOff).result) (readProgram cutOff).errors ∧
    readProgram (cutOff.take 2) = readProgram cutOff ∧ readExpression (cutOff.take 2) = readExpression cutOff :=
  ⟨rfl, rfl, (reading_total cutOff 0).1, (reading_total cutOff 0).2.2.2.2 (cutOff.take 2) rfl⟩

end Treewalk
