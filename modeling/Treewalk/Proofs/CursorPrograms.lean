import Treewalk.Proofs.CursorStatements
import Treewalk.Proofs.Parsing

/-!
Whole programs read with a cursor. The tokens are closed by an end where they have none at the end, and the walk over the
declarations outside all blocks leads from the first token to the first end. Behind each attempt lies what a reading of the
remaining tokens gives, whatever its bound.
-/

set_option autoImplicit false

namespace Treewalk

-- Tokens that end with an end of the input, which is added where it is missing.
def closed (tokens : List Token) : List Token :=
  if tokens.getLast?.any (·.kind = .endOfInput) then tokens
  else tokens ++ [Token.endAt (tokens.getLast?.elim 1 Token.line)]

def firstEnd (tokens : List Token) : Nat := (closed tokens).findIdx (·.kind = .endOfInput)

theorem findIdx_tape (tape : Tape) : tape.tokens.findIdx (·.kind = .endOfInput) = tape.last := by
  have none : tape.body.findIdx (·.kind = .endOfInput) = tape.body.length :=
    List.findIdx_eq_length.mpr (by simpa using tape.free)
  simp [Tape.tokens, Tape.last, List.findIdx_append, none, List.findIdx_cons, tape.ended]

-- Either no token is an end, or there is a first one.
theorem tokens_split (tokens : List Token) :
    (∀ token ∈ tokens, token.kind ≠ .endOfInput) ∨
      ∃ body stop later, tokens = body ++ stop :: later ∧ (∀ token ∈ body, token.kind ≠ .endOfInput) ∧
        stop.kind = .endOfInput := by
  cases found : tokens.find? (·.kind = .endOfInput) with
  | none => exact .inl (by simpa using found)
  | some stop =>
    obtain ⟨ended, body, later, shape, free⟩ := List.find?_eq_some_iff_append.mp found
    exact .inr ⟨body, stop, later, shape, by simpa using free, by simpa using ended⟩

theorem ofTokens_free (tokens : List Token) (free : ∀ token ∈ tokens, token.kind ≠ .endOfInput) :
    Input.ofTokens tokens = ⟨tokens, Token.endAt (tokens.getLast?.elim 1 Token.line)⟩ := by
  have missing : tokens.find? (·.kind = .endOfInput) = none := List.find?_eq_none.mpr (by simpa using free)
  have all := Grammar.ofTokens_tokens tokens [] free (by simp)
  rw [List.append_nil] at all
  simp only [Input.ofTokens] at all ⊢
  rw [all, missing, Option.getD_none]

theorem ofTokens_ended (body later : List Token) (stop : Token) (free : ∀ token ∈ body, token.kind ≠ .endOfInput)
    (ended : stop.kind = .endOfInput) : Input.ofTokens (body ++ stop :: later) = ⟨body, stop⟩ := by
  have found : (body ++ stop :: later).find? (·.kind = .endOfInput) = some stop :=
    List.find?_eq_some_iff_append.mpr ⟨by simpa using ended, body, later, rfl, by simpa using free⟩
  have before := Grammar.ofTokens_tokens body (stop :: later) free (by simpa using ended)
  simp only [Input.ofTokens] at before ⊢
  rw [before, found, Option.getD_some]

theorem closed_split (tokens : List Token) :
    ∃ later, closed tokens = (Input.ofTokens tokens).tokens ++ (Input.ofTokens tokens).stop :: later := by
  rcases tokens_split tokens with free | ⟨body, stop, later, rfl, free, ended⟩
  · have unclosed : tokens.getLast?.any (·.kind = .endOfInput) = false := by
      cases last : tokens.getLast? with
      | none => rfl
      | some token => simpa using free token (List.mem_of_getLast? last)
    rw [ofTokens_free tokens free, closed, unclosed]
    exact ⟨[], rfl⟩
  · rw [ofTokens_ended body later stop free ended, closed]
    by_cases ends : (body ++ stop :: later).getLast?.any (·.kind = .endOfInput) = true
    · exact ⟨later, by rw [if_pos ends]⟩
    · exact ⟨later ++ [_], by rw [if_neg ends, List.append_assoc, List.cons_append]⟩

theorem ofTokens_unended (tokens : List Token) : ∀ token ∈ (Input.ofTokens tokens).tokens, token.kind ≠ .endOfInput := by
  rcases tokens_split tokens with free | ⟨body, stop, later, rfl, free, ended⟩
  · rw [ofTokens_free tokens free]
    exact free
  · rw [ofTokens_ended body later stop free ended]
    exact free

def tapeOf (tokens : List Token) : Tape where
  body := (Input.ofTokens tokens).tokens
  stop := (Input.ofTokens tokens).stop
  later := (closed tokens).drop ((Input.ofTokens tokens).tokens.length + 1)
  free := ofTokens_unended tokens
  ended := Grammar.ofTokens_stop tokens

theorem tapeOf_tokens (tokens : List Token) : (tapeOf tokens).tokens = closed tokens := by
  obtain ⟨later, shape⟩ := closed_split tokens
  simp [Tape.tokens, tapeOf, shape, List.drop_append]

theorem tapeOf_last (tokens : List Token) : (tapeOf tokens).last = firstEnd tokens := by
  rw [← findIdx_tape, tapeOf_tokens, firstEnd]

-- The statements that attempts outside all blocks have given.
def Event.stmt? : Event → Option (Stmt Unit)
  | .tried round => if round.inBlock then none else round.stmt
  | _ => none

def stmtsIn (record : List Event) : List (Stmt Unit) := record.filterMap Event.stmt?

theorem stmtsIn_append (first second : List Event) : stmtsIn (first ++ second) = stmtsIn first ++ stmtsIn second :=
  List.filterMap_append

-- A record holds what a reading of the declarations from a place gives, with any bound that suffices.
def Rereads (tape : Tape) (place : Nat) (record : List Event) : Prop :=
  ∀ other, 24 * (tape.last - place) + 22 ≤ other →
    readDeclarations other false tape.stop (tape.body.drop place) = ⟨some (stmtsIn record), [], errorsIn record⟩

-- What happens in a walk over a program. Behind an attempt outside all blocks lies what the tokens from there on give.
inductive Trail (tape : Tape) : List Event → Prop where
  | done : Trail tape []
  | within (event : Event) (late : List Event) (sound : event.Sound tape) (trail : Trail tape late) :
      Trail tape (event :: late)
  | round (round : Round) (late : List Event) (outside : round.inBlock = false) (sound : round.Sound tape)
      (rereads : Rereads tape round.finish late) (trail : Trail tape late) : Trail tape (.tried round :: late)

section trails

variable {tape : Tape} {place bound : Nat}

theorem stmtsIn_nested (record : List Event) (sound : ∀ event ∈ record, event.Sound tape) : stmtsIn record = [] := by
  refine List.filterMap_eq_nil_iff.mpr fun event inside => ?_
  cases event with
  | tried round => exact if_pos (sound _ inside).1
  | _ => rfl

theorem trail_nested (record late : List Event) (sound : ∀ event ∈ record, event.Sound tape) (trail : Trail tape late) :
    Trail tape (record ++ late) := by
  induction record with
  | nil => exact trail
  | cons event record ih =>
    obtain ⟨first, others⟩ := List.forall_mem_cons.mp sound
    exact .within event (record ++ late) first (ih others)

theorem trail_sound (record : List Event) (sound : ∀ event ∈ record, event.Sound tape) : Trail tape record := by
  have trail := trail_nested record [] sound .done
  rwa [List.append_nil] at trail

-- The same walk goes with one reading only, so the bound of the reading plays no part.
theorem follows_unique {α : Type} {commas : Bool} {least : Nat} {walk : Walk α} {first second : Reading α}
    (one : Walk.Follows tape commas place least walk first) (two : Walk.Follows tape commas place least walk second) :
    first tape.stop (tape.body.drop place) = second tape.stop (tape.body.drop place) := by
  unfold Walk.Follows at one two
  generalize walk tape.tokens ⟨place, commas⟩ = walked at one two
  generalize first tape.stop (tape.body.drop place) = reply at one ⊢
  generalize second tape.stop (tape.body.drop place) = answer at two ⊢
  cases one with
  | given value after record => cases two with | given => rfl
  | failed after record => cases two with | failed => rfl

theorem readDeclarations_nil (stop : Token) (other : Nat) : readDeclarations (other + 1) false stop [] = ⟨some [], [], []⟩ := rfl

theorem readDeclarations_cons (stop first : Token) (tokens : List Token) (other : Nat) (given : Option (Stmt Unit))
    (rest : List Token) (errors later : List ParseError) (stmts : List (Stmt Unit))
    (tried : (readDeclaration other).recover stop (first :: tokens) = ⟨some given, rest, errors⟩)
    (others : readDeclarations other false stop rest = ⟨some stmts, [], later⟩) :
    readDeclarations (other + 1) false stop (first :: tokens) = ⟨some (given.toList ++ stmts), [], errors ++ later⟩ := by
  simp [readDeclarations, Bind.bind, Reading.bind, Reading.atEnd, Reading.nextIs, tried, others, Pure.pure, Reading.pure]

-- An attempt outside all blocks is behind what happened during it, and before the rest of the program.
theorem round_added (round : Round) (record rest : List Event) (outside : round.inBlock = false)
    (errors : errorsIn record = round.errors) (sound : ∀ event ∈ record, event.Sound tape) :
    stmtsIn (record ++ .tried round :: rest) = round.stmt.toList ++ stmtsIn rest ∧
      errorsIn (record ++ .tried round :: rest) = round.errors ++ errorsIn rest := by
  have alone : stmtsIn (.tried round :: rest) = round.stmt.toList ++ stmtsIn rest := by
    cases given : round.stmt <;> simp [stmtsIn, Event.stmt?, outside, given]
  rw [stmtsIn_append, stmtsIn_nested record sound, List.nil_append, errorsIn_append, errors]
  exact ⟨alone, rfl⟩

theorem declarations_walked (room : 24 * (tape.last - place) + 22 ≤ bound) (inside : place ≤ tape.last) :
    ∃ record, Walk.declarations bound false tape.tokens ⟨place, true⟩ =
        ⟨.given (stmtsIn record), ⟨tape.last, true⟩, record⟩ ∧ Rereads tape place record ∧ Trail tape record := by
  -- One attempt takes the cursor on, and the attempts behind it are those from where it ended.
  induction bound generalizing place with
  | zero => omega
  | succ bound ih =>
    by_cases before : place < tape.last
    · have declared (other : Nat) (ample : 24 * (tape.last - place) + 21 ≤ other) :
          Walk.Follows tape true place (place + 1) (Walk.declaration bound) (readDeclaration other) :=
        (Grammar.stmts_follow tape bound other).declaration place ⟨inside, by omega, ample⟩
      have start := declared bound (by omega)
      obtain ⟨round, record, walks, reads, ⟨outside, starts, soundRound⟩, errors, sound⟩ :=
        Walk.tryRound_walked false (show tape.last - place < bound by omega) before start
      have advances : place < round.finish := starts ▸ soundRound.advances
      obtain ⟨rest, walksRest, rereads, trail⟩ := ih (by omega) soundRound.within
      obtain ⟨ends, looked, quietEnds, soundEnds⟩ : Walk.Steps tape true place Walk.atEnd false place :=
        Walk.steps_unended before
      obtain ⟨fits, looksOn, quietFits, soundFits⟩ : Walk.Steps tape true place (Walk.nextFits (· = .rightBrace)) _ place :=
        Walk.steps_nextFits _ inside
      obtain ⟨stmts, mistakes⟩ := round_added round record rest outside errors sound
      have soundLooks := Walk.sound_append soundEnds soundFits
      have allStmts : stmtsIn (ends ++ fits ++ (record ++ .tried round :: rest)) = round.stmt.toList ++ stmtsIn rest := by
        rw [stmtsIn_append, stmtsIn_nested _ soundLooks, List.nil_append, stmts]
      have allErrors : errorsIn (ends ++ fits ++ (record ++ .tried round :: rest)) = round.errors ++ errorsIn rest := by
        rw [errorsIn_append, errorsIn_append, quietEnds, quietFits, List.nil_append, List.nil_append, mistakes]
      refine ⟨ends ++ fits ++ (record ++ .tried round :: rest), ?_, ?_, ?_⟩
      · rw [allStmts]
        simp [Walk.declarations, Bind.bind, Walk.bind, looked, looksOn, walks, walksRest, Pure.pure, Walk.pure]
      · intro other ample
        obtain ⟨other, rfl⟩ := Nat.exists_eq_add_one.mpr (show 0 < other by omega)
        rw [allStmts, allErrors, tape.drop_next place before]
        refine readDeclarations_cons _ _ _ other round.stmt _ round.errors _ _ ?_ (rereads other (by omega))
        rw [← tape.drop_next place before, ← reads, Reading.recover, Reading.recover]
        rw [follows_unique (declared other (by omega)) start]
      · exact trail_nested _ _ soundLooks (trail_nested _ _ sound (.round round rest outside soundRound rereads trail))
    · have ends : place = tape.last := Nat.le_antisymm inside (Nat.le_of_not_gt before)
      subst ends
      obtain ⟨record, walks, quiet, sound⟩ :
          Walk.Steps tape true tape.last (Walk.declarations (bound + 1) false) [] tape.last :=
        Walk.steps_bind Walk.steps_ended (Walk.steps_pure [])
      have none : stmtsIn record = [] := stmtsIn_nested record sound
      refine ⟨record, by rw [walks, none], ?_, trail_sound record sound⟩
      intro other ample
      obtain ⟨other, rfl⟩ := Nat.exists_eq_add_one.mpr (show 0 < other by omega)
      rw [tape.drop_last, none, quiet, readDeclarations_nil]

-- What holds at each event of a trail.

theorem trail_round (early late : List Event) (round : Round) (trail : Trail tape (early ++ .tried round :: late)) :
    round.Sound tape ∧ (round.inBlock = false → Rereads tape round.finish late) := by
  induction early with
  | nil =>
    cases trail with
    | within _ _ sound _ => exact ⟨sound.2, fun outside => absurd (outside.symm.trans sound.1) Bool.false_ne_true⟩
    | round _ _ _ sound rereads _ => exact ⟨sound, fun _ => rereads⟩
  | cons event early ih =>
    cases trail with
    | within _ _ _ trail => exact ih trail
    | round _ _ _ _ _ trail => exact ih trail

theorem trail_place (record : List Event) (trail : Trail tape record) (place : Nat)
    (happened : .looked place ∈ record ∨ .moved place ∈ record) : place ≤ tape.last := by
  induction trail with
  | done => simp at happened
  | within event late sound trail ih =>
    simp only [List.mem_cons] at happened
    rcases happened with (rfl | found) | (rfl | found)
    · exact sound
    · exact ih (.inl found)
    · exact sound
    · exact ih (.inr found)
  | round round late _ _ _ trail ih =>
    simp only [List.mem_cons, reduceCtorEq, false_or] at happened
    exact ih happened

end trails

end Treewalk
