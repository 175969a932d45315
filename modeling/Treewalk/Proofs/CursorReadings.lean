import Treewalk.Proofs.CursorSteps
import Treewalk.Proofs.ExprParsing

/-!
Walks and readings side by side. From any place at or before the first end, with room enough for both, a walk gives what
the reading of the tokens from there gives, or fails where it fails. It reports the same mistakes, leaves the cursor in
front of the tokens that the reading leaves, and the switch as it was. How much room there is beyond that plays no part.
-/

set_option autoImplicit false

namespace Treewalk

-- How a walk from a place and a reading from there end together. A success reaches at least as far as demanded.
inductive Agrees {α : Type} (tape : Tape) (commas : Bool) (place least : Nat) : Walked α → Reply α → Prop where
  | given (value : α) (after : Nat) (record : List Event) (onward : place ≤ after) (reached : least ≤ after)
      (within : after ≤ tape.last) (sound : ∀ event ∈ record, event.Sound tape) :
      Agrees tape commas place least ⟨.given value, ⟨after, commas⟩, record⟩
        ⟨some value, tape.body.drop after, errorsIn record⟩
  | failed (after : Nat) (record : List Event) (onward : place ≤ after) (within : after ≤ tape.last)
      (sound : ∀ event ∈ record, event.Sound tape) (blamed : errorsIn record ≠ []) :
      Agrees tape commas place least ⟨.failed, ⟨after, commas⟩, record⟩ ⟨none, tape.body.drop after, errorsIn record⟩

namespace Walk

variable {α β : Type} {tape : Tape} {commas : Bool} {place least : Nat}

def Follows (tape : Tape) (commas : Bool) (place least : Nat) (walk : Walk α) (reading : Reading α) : Prop :=
  Agrees tape commas place least (walk tape.tokens ⟨place, commas⟩) (reading tape.stop (tape.body.drop place))

theorem follows_pure (value : α) (inside : place ≤ tape.last) (reached : least ≤ place) :
    Follows tape commas place least (pure value) (pure value) :=
  .given value place [] (Nat.le_refl _) reached inside sound_nil

theorem follows_bind {reach : Nat} {first : Walk α} {next : α → Walk β} {reading : Reading α} {goOn : α → Reading β}
    (start : Follows tape commas place reach first reading)
    (further : ∀ value middle, place ≤ middle → reach ≤ middle → middle ≤ tape.last →
      Follows tape commas middle least (next value) (goOn value)) :
    Follows tape commas place least (first >>= next) (reading >>= goOn) := by
  change Agrees tape commas place least (Walk.bind first next tape.tokens ⟨place, commas⟩)
    (Reading.bind reading goOn tape.stop (tape.body.drop place))
  simp only [Walk.bind, Reading.bind]
  unfold Follows at start
  generalize first tape.tokens ⟨place, commas⟩ = walked at start
  generalize reading tape.stop (tape.body.drop place) = reply at start
  cases start with
  | failed after record onward within sound blamed => exact .failed after record onward within sound blamed
  | given value middle early onward reached within sound =>
    have later := further value middle onward reached within
    unfold Follows at later
    dsimp only
    generalize next value tape.tokens ⟨middle, commas⟩ = walked at later
    generalize goOn value tape.stop (tape.body.drop middle) = reply at later
    cases later with
    | given result after late beyond far inside fine =>
      rw [← errorsIn_append]
      exact .given result after (early ++ late) (Nat.le_trans onward beyond) far inside (sound_append sound fine)
    | failed after late beyond inside fine blamed =>
      rw [← errorsIn_append]
      refine .failed after (early ++ late) (Nat.le_trans onward beyond) inside (sound_append sound fine) ?_
      rw [errorsIn_append]
      exact List.append_ne_nil_of_right_ne_nil _ blamed

theorem follows_less {lower : Nat} {walk : Walk α} {reading : Reading α} (less : lower ≤ least)
    (follows : Follows tape commas place least walk reading) : Follows tape commas place lower walk reading := by
  unfold Follows at follows ⊢
  generalize walk tape.tokens ⟨place, commas⟩ = walked at follows ⊢
  generalize reading tape.stop (tape.body.drop place) = reply at follows ⊢
  cases follows with
  | given value after record onward reached within sound =>
    exact .given value after record onward (Nat.le_trans less reached) within sound
  | failed after record onward within sound blamed => exact .failed after record onward within sound blamed

theorem follows_map {f : α → β} {walk : Walk α} {reading : Reading α} (follows : Follows tape commas place least walk reading) :
    Follows tape commas place least (f <$> walk) (f <$> reading) :=
  follows_bind follows fun value _ _ reached inside => follows_pure (f value) inside reached

-- A walk that only steps, and a reading that takes as many tokens without a mistake.
theorem follows_steps {middle : Nat} {walk : Walk α} {reading : Reading α} {value : α}
    (steps : Steps tape commas place walk value middle)
    (read : reading tape.stop (tape.body.drop place) = ⟨some value, tape.body.drop middle, []⟩) (onward : place ≤ middle)
    {next : α → Walk β} {goOn : α → Reading β}
    (further : Follows tape commas middle least (next value) (goOn value)) :
    Follows tape commas place least (walk >>= next) (reading >>= goOn) := by
  obtain ⟨early, walked, quiet, sound⟩ := steps
  change Agrees tape commas place least (Walk.bind walk next tape.tokens ⟨place, commas⟩)
    (Reading.bind reading goOn tape.stop (tape.body.drop place))
  simp only [Walk.bind, Reading.bind, walked, read, List.nil_append]
  unfold Follows at further
  generalize next value tape.tokens ⟨middle, commas⟩ = walked at further
  generalize goOn value tape.stop (tape.body.drop middle) = reply at further
  have same (late : List Event) : errorsIn late = errorsIn (early ++ late) := by
    rw [errorsIn_append, quiet, List.nil_append]
  cases further with
  | given result after late beyond far inside fine =>
    dsimp only
    rw [same late]
    exact .given result after (early ++ late) (Nat.le_trans onward beyond) far inside (sound_append sound fine)
  | failed after late beyond inside fine blamed =>
    dsimp only
    rw [same late] at blamed ⊢
    exact .failed after (early ++ late) (Nat.le_trans onward beyond) inside (sound_append sound fine) blamed

theorem follows_peek {next : Token → Walk β} {goOn : Token → Reading β} (inside : place ≤ tape.last)
    (further : Follows tape commas place least (next (tape.next place)) (goOn (tape.next place))) :
    Follows tape commas place least (peek >>= next) (Reading.peek >>= goOn) :=
  follows_steps (steps_peek inside) rfl (Nat.le_refl _) further

theorem follows_here {next : Cursor → Walk β} {reading : Reading β}
    (further : Follows tape commas place least (next ⟨place, commas⟩) reading) :
    Follows tape commas place least (here >>= next) reading := further

theorem follows_accept {next : Option Token → Walk β} {goOn : Option Token → Reading β} (wanted : Kind → Bool)
    (inside : place ≤ tape.last)
    (missing : Follows tape commas place least (next none) (goOn none))
    (taken : place < tape.last → wanted (tape.next place).kind = true →
      Follows tape commas (place + 1) least (next (some (tape.next place))) (goOn (some (tape.next place)))) :
    Follows tape commas place least (accept wanted >>= next) (Reading.accept wanted >>= goOn) := by
  by_cases before : place < tape.last
  · have read (rest : List Token) : Reading.accept wanted tape.stop (tape.next place :: rest) =
        if wanted (tape.next place).kind then ⟨some (some (tape.next place)), rest, []⟩
        else ⟨some none, tape.next place :: rest, []⟩ := rfl
    by_cases fits : wanted (tape.next place).kind = true
    · refine follows_steps (steps_taken wanted before fits) ?_ (Nat.le_succ _) (taken before fits)
      rw [tape.drop_next place before, read, if_pos fits]
    · have unfit : wanted (tape.next place).kind = false := Bool.eq_false_iff.mpr fits
      refine follows_steps (steps_untaken wanted inside fun _ => unfit) ?_ (Nat.le_refl _) missing
      rw [tape.drop_next place before, read, if_neg fits]
  · have ends : place = tape.last := Nat.le_antisymm inside (Nat.le_of_not_gt before)
    refine follows_steps (steps_untaken wanted inside fun less => absurd less before) ?_ (Nat.le_refl _) missing
    rw [ends, tape.drop_last]
    rfl

-- A token whose kind is known already is taken.
theorem follows_known {kind : Kind} {next : Option Token → Walk β} {goOn : Option Token → Reading β} (wanted : Kind → Bool)
    (inside : place ≤ tape.last) (isKind : (tape.next place).kind = kind) (more : kind ≠ .endOfInput)
    (fits : wanted kind = true)
    (further : place < tape.last →
      Follows tape commas (place + 1) least (next (some (tape.next place))) (goOn (some (tape.next place)))) :
    Follows tape commas place least (accept wanted >>= next) (Reading.accept wanted >>= goOn) := by
  have before : place < tape.last := tape.before_of_kind inside isKind more
  have taken : wanted (tape.next place).kind = true := isKind ▸ fits
  refine follows_steps (steps_taken wanted before taken) ?_ (Nat.le_succ _) (further before)
  rw [tape.drop_next place before]
  exact if_pos taken

theorem follows_nextFits {next : Bool → Walk β} {goOn : Bool → Reading β} (kind : Kind) (inside : place ≤ tape.last)
    (further : ∀ answer, Follows tape commas place least (next answer) (goOn answer)) :
    Follows tape commas place least (nextFits (· = kind) >>= next) (Reading.nextIs kind >>= goOn) := by
  refine follows_steps (steps_nextFits _ inside) ?_ (Nat.le_refl _) (further _)
  by_cases before : place < tape.last
  · simp [Reading.nextIs, tape.drop_next place before, before]
  · have ends : place = tape.last := Nat.le_antisymm inside (Nat.le_of_not_gt before)
    simp [Reading.nextIs, ends, tape.drop_last]

theorem follows_atEnd {next : Bool → Walk β} {goOn : Bool → Reading β} (inside : place ≤ tape.last)
    (ended : place = tape.last → Follows tape commas place least (next true) (goOn true))
    (unended : place < tape.last → Follows tape commas place least (next false) (goOn false)) :
    Follows tape commas place least (atEnd >>= next) (Reading.atEnd >>= goOn) := by
  by_cases before : place < tape.last
  · refine follows_steps (steps_unended before) ?_ (Nat.le_refl _) (unended before)
    simp [Reading.atEnd, tape.drop_next place before]
  · have ends : place = tape.last := Nat.le_antisymm inside (Nat.le_of_not_gt before)
    subst ends
    refine follows_steps steps_ended ?_ (Nat.le_refl _) (ended rfl)
    simp [Reading.atEnd, tape.drop_last]

theorem follows_report (token : Token) (cause : ParseCause) (inside : place ≤ tape.last) :
    Follows tape commas place place (report token cause) (Reading.report token cause) :=
  .given () place [.reported ⟨token, cause⟩] (Nat.le_refl _) (Nat.le_refl _) inside (by simp [Event.Sound])

theorem follows_fail (token : Token) (cause : ParseCause) (inside : place ≤ tape.last) :
    Follows tape commas place least (fail token cause : Walk α) (Reading.fail token cause) :=
  .failed place [.reported ⟨token, cause⟩] (Nat.le_refl _) inside (by simp [Event.Sound]) (List.cons_ne_nil _ _)

theorem follows_failHere (cause : ParseCause) (inside : place ≤ tape.last) :
    Follows tape commas place least (failHere cause : Walk α) (Reading.failHere cause) :=
  follows_peek inside (follows_fail _ cause inside)

theorem follows_expect (kind : Kind) (cause : ParseCause) (inside : place ≤ tape.last) :
    Follows tape commas place (place + 1) (expect kind cause) (Reading.expect kind cause) :=
  follows_accept _ inside (follows_failHere cause inside) fun before _ => follows_pure _ before (Nat.le_refl _)

-- A complaint about too many moves nothing, so what follows is the same with and without it.
theorem follows_complaint {next : Unit → Walk β} {goOn : Unit → Reading β} (many : Prop) [Decidable many]
    (cause : ParseCause) (inside : place ≤ tape.last)
    (further : ∀ middle, place ≤ middle → middle ≤ tape.last → Follows tape commas middle least (next ()) (goOn ())) :
    Follows tape commas place least
      (if many then peek >>= fun token => report token cause >>= next else next ())
      (if many then Reading.peek >>= fun token => Reading.report token cause >>= goOn else goOn ()) := by
  by_cases complains : many
  · rw [if_pos complains, if_pos complains]
    refine follows_peek inside (follows_bind (follows_report _ cause inside) ?_)
    intro _ middle onward _ within
    exact further middle onward within
  · rw [if_neg complains, if_neg complains]
    exact further place (Nat.le_refl _) inside

theorem follows_withCommas {walk : Walk α} {reading : Reading α} (allowed : Bool)
    (follows : Follows tape allowed place least walk reading) :
    Follows tape commas place least (withCommas allowed walk) reading := by
  unfold Follows at follows ⊢
  simp only [withCommas]
  generalize walk tape.tokens ⟨place, allowed⟩ = walked at follows ⊢
  generalize reading tape.stop (tape.body.drop place) = reply at follows ⊢
  cases follows with
  | given value after record onward reached within sound => exact .given value after record onward reached within sound
  | failed after record onward within sound blamed => exact .failed after record onward within sound blamed

end Walk

-- Room from a place for a walk and a reading, which need not have the same bound.
structure Room (tape : Tape) (place rank bound other : Nat) : Prop where
  inside : place ≤ tape.last
  walking : 24 * (tape.last - place) + rank ≤ bound
  reading : 24 * (tape.last - place) + rank ≤ other

namespace Room

variable {tape : Tape} {place middle rank lower bound other : Nat}

theorem nonzero (room : Room tape place rank bound other) (positive : 0 < rank) :
    (∃ less, bound = less + 1) ∧ ∃ less, other = less + 1 := by
  obtain ⟨_, walking, reading⟩ := room
  exact ⟨Nat.exists_eq_add_one.mpr (by omega), Nat.exists_eq_add_one.mpr (by omega)⟩

theorem tighter (room : Room tape place rank (bound + 1) (other + 1)) (less : lower < rank) :
    Room tape place lower bound other := by
  obtain ⟨inside, walking, reading⟩ := room
  exact ⟨inside, by omega, by omega⟩

-- A token that was passed makes room for any rank.
theorem beyond (room : Room tape place rank (bound + 1) (other + 1)) (passed : place < middle) (inside : middle ≤ tape.last)
    (low : lower < 24) : Room tape middle lower bound other := by
  obtain ⟨_, walking, reading⟩ := room
  exact ⟨inside, by omega, by omega⟩

theorem onward (room : Room tape place rank bound other) (passed : place ≤ middle) (inside : middle ≤ tape.last) :
    Room tape middle rank bound other := by
  obtain ⟨_, walking, reading⟩ := room
  exact ⟨inside, by omega, by omega⟩

end Room

namespace Grammar

open Walk

variable {tape : Tape} {commas : Bool} {place bound other : Nat}

def Symbol.walk (bound : Nat) : (symbol : Symbol) → Walk symbol.Tree
  | .expr _ => Walk.expr bound
  | .level _ tier => Walk.level bound tier
  | .joined _ tier left => Walk.joined bound tier left
  | .operand _ tier => Walk.operand bound tier
  | .ternary _ => Walk.ternary bound
  | .unary => Walk.unary bound
  | .calls callee => Walk.calls bound callee
  | .arguments count => Walk.arguments bound count
  | .primary => Walk.primary bound

-- A symbol that depends on the switch is read under its setting.
def Symbol.Under (commas : Bool) : Symbol → Prop
  | .expr setting | .level setting _ | .joined setting _ _ | .operand setting _ | .ternary setting => setting = commas
  | .unary | .calls _ | .arguments _ | .primary => True

-- How many tokens a symbol takes at least.
def Symbol.least : Symbol → Nat
  | .joined _ _ _ | .calls _ => 0
  | _ => 1

def AllFollow (tape : Tape) (bound other : Nat) : Prop :=
  ∀ (symbol : Symbol) (commas : Bool) (place : Nat), symbol.Under commas → Room tape place symbol.rank bound other →
    Follows tape commas place (place + symbol.least) (symbol.walk bound) (symbol.read other)

theorem rank_low (symbol : Symbol) : symbol.rank < 24 := by
  cases symbol with
  | level commas tier => cases tier <;> simp [Symbol.rank]
  | operand commas tier => cases tier <;> simp [Symbol.rank]
  | _ => simp [Symbol.rank]

theorem expr_follows (follow : AllFollow tape bound other) (room : Room tape place 19 (bound + 1) (other + 1)) :
    Follows tape commas place (place + 1) (Walk.expr (bound + 1)) (readExpr (other + 1) commas) := by
  refine follows_bind (follow (.level commas .disjunction) commas place rfl (room.tighter (by simp [Symbol.rank]))) ?_
  intro target middle _ reached inside
  refine follows_accept _ inside (follows_pure target inside reached) fun before _ => ?_
  refine follows_bind (follow (.expr commas) commas (middle + 1) rfl (room.beyond (by omega) before (rank_low _))) ?_
  intro value after beyond _ within
  have passed : place + 1 ≤ after := by omega
  cases target with
  | var label name => exact follows_pure _ within passed
  | _ =>
    refine follows_bind (follows_report _ _ within) fun _ final _ later inside => ?_
    exact follows_pure value inside (Nat.le_trans passed later)

theorem level_follows (tier : Level) (follow : AllFollow tape bound other)
    (room : Room tape place (Symbol.level commas tier).rank (bound + 1) (other + 1)) :
    Follows tape commas place (place + 1) (Walk.level (bound + 1) tier) (readLevel (other + 1) commas tier) := by
  refine follows_bind (follow (.operand commas tier) commas place rfl (room.tighter (rank_level commas tier).1)) ?_
  intro first middle _ reached inside
  exact follows_less reached (follow (.joined commas tier first) commas middle rfl (room.beyond reached inside (rank_low _)))

theorem joined_follows (tier : Level) (left : Expr Unit) (follow : AllFollow tape bound other)
    (room : Room tape place 1 (bound + 1) (other + 1)) :
    Follows tape commas place place (Walk.joined (bound + 1) tier left) (readJoined (other + 1) commas tier left) := by
  refine follows_here (follows_accept _ room.inside (follows_pure left room.inside (Nat.le_refl _)) fun before _ => ?_)
  refine follows_bind (follow (.operand commas tier) commas (place + 1) rfl
    (room.beyond (Nat.lt_succ_self _) before (rank_low _))) ?_
  intro right middle onward _ inside
  refine follows_less (Nat.le_of_succ_le onward) ?_
  exact follow (.joined commas tier _) commas middle rfl (room.beyond onward inside (rank_low _))

theorem sequence_follows (follow : AllFollow tape bound other) (room : Room tape place 14 (bound + 1) (other + 1)) :
    Follows tape commas place (place + 1) (Walk.sequence (bound + 1)) (readSequence (other + 1) commas) := by
  refine follows_accept _ room.inside ?_ fun before _ => ?_
  · exact follow (.level commas .sequence) commas place rfl (room.tighter (by simp [Symbol.rank]))
  · refine follows_bind (follows_report _ _ before) fun _ middle onward _ inside => ?_
    refine follows_bind (follow (.level commas .sequence) commas middle rfl (room.beyond onward inside (rank_low _))) ?_
    intro _ after beyond _ within
    exact follows_pure _ within (Nat.le_trans onward beyond)

theorem operand_follows (tier : Level) (follow : ∀ smaller < bound + 1, ∀ other, AllFollow tape smaller other)
    (room : Room tape place (Symbol.operand commas tier).rank (bound + 1) (other + 1)) :
    Follows tape commas place (place + 1) (Walk.operand (bound + 1) tier) (readOperand (other + 1) commas tier) := by
  have here : AllFollow tape bound other := follow bound (Nat.lt_succ_self bound) other
  cases tier with
  | disjunction => exact here (.level commas .conjunction) commas place rfl (room.tighter (by simp [Symbol.rank]))
  | conjunction =>
    -- An operand that may lack its left side is one reading further away.
    have near : Room tape place 14 bound other := room.tighter (by simp [Symbol.rank])
    obtain ⟨⟨bound, rfl⟩, ⟨other, rfl⟩⟩ := near.nonzero (by decide)
    exact sequence_follows (follow bound (by omega) other) near
  | sequence => exact here (.ternary commas) commas place rfl (room.tighter (by simp [Symbol.rank]))
  | equality => exact here (.level commas .comparison) commas place rfl (room.tighter (by simp [Symbol.rank]))
  | comparison => exact here (.level commas .term) commas place rfl (room.tighter (by simp [Symbol.rank]))
  | term => exact here (.level commas .factor) commas place rfl (room.tighter (by simp [Symbol.rank]))
  | factor => exact here .unary commas place trivial (room.tighter (by simp [Symbol.rank]))

theorem ternary_follows (follow : AllFollow tape bound other) (room : Room tape place 11 (bound + 1) (other + 1)) :
    Follows tape commas place (place + 1) (Walk.ternary (bound + 1)) (readTernary (other + 1) commas) := by
  refine follows_bind (follow (.level commas .equality) commas place rfl (room.tighter (by simp [Symbol.rank]))) ?_
  intro condition middle _ reached inside
  refine follows_accept _ inside (follows_pure condition inside reached) fun before _ => ?_
  have branch (spot : Nat) (passed : place < spot) (within : spot ≤ tape.last) :
      Follows tape commas spot (spot + 1) (Walk.expr bound) (readExpr other commas) :=
    follow (.expr commas) commas spot rfl (room.beyond passed within (rank_low _))
  refine follows_bind (branch (middle + 1) (Nat.lt_succ_of_lt reached) before) ?_
  intro yes afterYes onYes _ withinYes
  refine follows_bind (follows_expect .colon .colonInTernary withinYes) ?_
  intro _ afterColon onColon _ withinColon
  refine follows_bind (branch afterColon (by omega) withinColon) ?_
  intro no after onNo _ within
  exact follows_pure _ within (by omega)

theorem unary_follows (follow : AllFollow tape bound other) (room : Room tape place 2 (bound + 1) (other + 1)) :
    Follows tape commas place (place + 1) (Walk.unary (bound + 1)) (readUnary (other + 1)) := by
  refine follows_accept _ room.inside ?_ fun before _ => ?_
  · refine follows_bind (follow .primary commas place trivial (room.tighter (by simp [Symbol.rank]))) ?_
    intro callee middle _ reached inside
    exact follows_less reached (follow (.calls callee) commas middle trivial (room.beyond reached inside (rank_low _)))
  · refine follows_bind (follow .unary commas (place + 1) trivial
      (room.beyond (Nat.lt_succ_self _) before (rank_low _))) ?_
    intro operand after onward _ within
    exact follows_pure _ within onward

theorem calls_follows (callee : Expr Unit) (follow : AllFollow tape bound other)
    (room : Room tape place 1 (bound + 1) (other + 1)) :
    Follows tape commas place place (Walk.calls (bound + 1) callee) (readCalls (other + 1) callee) := by
  refine follows_accept _ room.inside (follows_pure callee room.inside (Nat.le_refl _)) fun before _ => ?_
  have behind (given : List (Expr Unit)) (middle : Nat) (passed : place + 1 ≤ middle) (inside : middle ≤ tape.last) :
      Follows tape commas middle place
        (Walk.expect .rightParen .parenAfterArguments >>= fun close => Walk.calls bound (.call callee close given))
        (Reading.expect .rightParen .parenAfterArguments >>= fun close => readCalls other (.call callee close given)) := by
    refine follows_bind (follows_expect _ _ inside) fun close after onward _ within => ?_
    have reached : place < after := Nat.le_trans passed onward
    refine follows_less (Nat.le_of_lt reached) ?_
    exact follow (.calls _) commas after trivial (room.beyond reached within (rank_low _))
  refine follows_nextFits _ before fun closed => ?_
  cases closed with
  | true =>
    exact follows_bind (follows_pure [] before (Nat.le_refl _)) fun given middle onward _ inside =>
      behind given middle onward inside
  | false =>
    exact follows_bind (follow (.arguments 0) commas (place + 1) trivial
      (room.beyond (Nat.lt_succ_self _) before (rank_low _))) fun given middle onward _ inside =>
        behind given middle onward inside

theorem arguments_follow (count : Nat) (follow : AllFollow tape bound other)
    (room : Room tape place 20 (bound + 1) (other + 1)) :
    Follows tape commas place (place + 1) (Walk.arguments (bound + 1) count) (readArguments (other + 1) count) := by
  rw [Walk.arguments, readArguments]
  refine follows_complaint (argumentLimit ≤ count) _ room.inside fun start onward inside => ?_
  have space : Room tape start 19 bound other := (room.tighter (by decide)).onward onward inside
  refine follows_bind (follows_withCommas false (follow (.expr false) false start rfl space)) ?_
  intro first middle _ reached within
  have passed : place + 1 ≤ middle := Nat.le_trans (Nat.succ_le_succ onward) reached
  refine follows_accept _ within (follows_pure _ within passed) fun before _ => ?_
  refine follows_bind (follow (.arguments (count + 1)) commas (middle + 1) trivial
    (room.beyond (Nat.lt_succ_of_lt passed) before (rank_low _))) ?_
  intro rest after beyond _ far
  exact follows_pure _ far (by omega)

theorem primary_follows (follow : AllFollow tape bound other) (room : Room tape place 1 (bound + 1) (other + 1)) :
    Follows tape commas place (place + 1) (Walk.primary (bound + 1)) (readPrimary (other + 1)) := by
  refine follows_peek room.inside ?_
  have alone {kind : Kind} (isKind : (tape.next place).kind = kind) (more : kind ≠ .endOfInput) {value : Expr Unit}
      (wanted : Kind → Bool) (fits : wanted kind = true) :
      Follows tape commas place (place + 1) (Walk.accept wanted >>= fun _ => pure value)
        (Reading.accept wanted >>= fun _ => pure value) :=
    follows_known wanted room.inside isKind more fits fun before => follows_pure value before (Nat.le_refl _)
  cases isKind : (tape.next place).kind
  case kwFalse => exact alone isKind (by decide) _ (by decide)
  case kwTrue => exact alone isKind (by decide) _ (by decide)
  case kwNil => exact alone isKind (by decide) _ (by decide)
  case identifier => exact alone isKind (by decide) _ (by decide)
  case number | stringLiteral =>
    -- The token may come without its literal.
    refine follows_known _ room.inside isKind (by decide) (by decide) fun before => ?_
    cases (tape.next place).literal with
    | none => exact follows_fail _ _ before
    | some literal => exact follows_pure _ before (Nat.le_refl _)
  case leftParen =>
    refine follows_known _ room.inside isKind (by decide) (by decide) fun before => ?_
    refine follows_bind (follows_withCommas true (follow (.expr true) true (place + 1) rfl
      (room.beyond (Nat.lt_succ_self _) before (rank_low _)))) ?_
    intro inner middle onward _ inside
    refine follows_bind (follows_expect _ _ inside) fun _ after beyond _ within => ?_
    exact follows_pure _ within (Nat.le_trans onward beyond)
  all_goals exact follows_fail _ _ room.inside

theorem all_follow (tape : Tape) (bound other : Nat) : AllFollow tape bound other := by
  induction bound using Nat.strongRecOn generalizing other with
  | ind bound ih =>
    intro symbol commas place under room
    obtain ⟨⟨bound, rfl⟩, ⟨other, rfl⟩⟩ := room.nonzero (rank_positive symbol)
    have follow : AllFollow tape bound other := ih bound (Nat.lt_succ_self bound) other
    cases symbol with
    | expr setting => cases under; exact expr_follows follow room
    | level setting tier => cases under; exact level_follows tier follow room
    | joined setting tier left => cases under; exact joined_follows tier left follow room
    | operand setting tier => cases under; exact operand_follows tier ih room
    | ternary setting => cases under; exact ternary_follows follow room
    | unary => exact unary_follows follow room
    | calls callee => exact calls_follows callee follow room
    | arguments count => exact arguments_follow count follow room
    | primary => exact primary_follows follow room

theorem readExpr_follows (room : Room tape place 19 bound other) :
    Follows tape commas place (place + 1) (Walk.expr bound) (readExpr other commas) :=
  all_follow tape bound other (.expr commas) commas place rfl room

end Grammar

end Treewalk
