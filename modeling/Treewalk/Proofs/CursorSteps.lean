import Treewalk.Proofs.Cursor

/-!
Single steps of the cursor. As long as it stands at or before the first end of the input, every look finds a token, every
step stays there, and each operation of a walk does what the reading of the tokens from there on does. Going on
after a failure leads to the first place behind it where a statement may start.
-/

set_option autoImplicit false

namespace Treewalk

-- Tokens up to the first end of the input, that end, and all that lies behind it.
structure Tape where
  body : List Token
  stop : Token
  later : List Token
  free : ∀ token ∈ body, token.kind ≠ .endOfInput
  ended : stop.kind = .endOfInput

namespace Tape

variable (tape : Tape)

def tokens : List Token := tape.body ++ tape.stop :: tape.later

-- The place of the first end.
def last : Nat := tape.body.length

def next (place : Nat) : Token := (tape.body.drop place).head?.getD tape.stop

theorem tokens_at (place : Nat) (inside : place ≤ tape.last) : tape.tokens[place]? = some (tape.next place) := by
  rw [tokens, next, List.head?_drop]
  by_cases before : place < tape.last
  · rw [List.getElem?_append_left before, List.getElem?_eq_getElem before, Option.getD_some]
  · have same : place = tape.body.length := Nat.le_antisymm inside (Nat.le_of_not_gt before)
    simp [same]

theorem next_last : tape.next tape.last = tape.stop := by
  simp [next, last]

theorem next_free (place : Nat) (before : place < tape.last) : (tape.next place).kind ≠ .endOfInput := by
  rw [next, List.head?_drop, List.getElem?_eq_getElem before, Option.getD_some]
  exact tape.free _ (List.getElem_mem before)

theorem before_of_kind {place : Nat} {kind : Kind} (inside : place ≤ tape.last) (isKind : (tape.next place).kind = kind)
    (more : kind ≠ .endOfInput) : place < tape.last := by
  by_cases ends : place = tape.last
  · rw [ends, tape.next_last, tape.ended] at isKind
    exact absurd isKind.symm more
  · exact Nat.lt_of_le_of_ne inside ends

theorem drop_last : tape.body.drop tape.last = [] := List.drop_length

theorem drop_next (place : Nat) (before : place < tape.last) :
    tape.body.drop place = tape.next place :: tape.body.drop (place + 1) := by
  rw [next, List.head?_drop, List.getElem?_eq_getElem before, Option.getD_some]
  exact List.drop_eq_getElem_cons before

end Tape

-- A place where a statement may start: at the end, at a word that starts one, or behind a semicolon.
def Boundary (tokens : List Token) (place : Nat) : Prop :=
  (∃ token, tokens[place]? = some token ∧
    token.kind ∈ [.endOfInput, .kwFun, .kwVar, .kwFor, .kwIf, .kwWhile, .kwPrint, .kwReturn]) ∨
  ∃ token, tokens[place - 1]? = some token ∧ token.kind = .semicolon

def IsEnd (tokens : List Token) (place : Nat) : Prop :=
  ∃ token, tokens[place]? = some token ∧ token.kind = .endOfInput

-- Reading that failed at a place goes on at the first boundary behind it, or stays at the end.
structure Resumes (tokens : List Token) (stood finish : Nat) : Prop where
  stays : IsEnd tokens stood → finish = stood
  moves : ¬ IsEnd tokens stood →
    stood < finish ∧ Boundary tokens finish ∧ ∀ between, stood < between → between < finish → ¬ Boundary tokens between

structure Round.Sound (tape : Tape) (round : Round) : Prop where
  advances : round.start < round.finish
  within : round.finish ≤ tape.last
  commas : round.commas = true
  given : round.failedAt = none → round.stmt.isSome = true
  failed : ∀ stood, round.failedAt = some stood →
    round.stmt = none ∧ round.errors ≠ [] ∧ Resumes tape.tokens stood round.finish

def Event.Sound (tape : Tape) : Event → Prop
  | .looked place => place ≤ tape.last
  | .moved place => place ≤ tape.last
  | .reported _ => True
  | .tried round => round.inBlock = true ∧ round.Sound tape

theorem errorsIn_append (first second : List Event) : errorsIn (first ++ second) = errorsIn first ++ errorsIn second :=
  List.filterMap_append

namespace Walk

variable {α β : Type}

theorem sound_nil {tape : Tape} : ∀ event ∈ ([] : List Event), event.Sound tape :=
  fun _ inside => absurd inside List.not_mem_nil

theorem sound_append {tape : Tape} {first second : List Event} (early : ∀ event ∈ first, event.Sound tape)
    (late : ∀ event ∈ second, event.Sound tape) : ∀ event ∈ first ++ second, event.Sound tape := by
  intro event inside
  rcases List.mem_append.mp inside with before | behind
  · exact early event before
  · exact late event behind

theorem bind_given (first : Walk α) (next : α → Walk β) (tokens : List Token) (cursor after : Cursor) (value : α)
    (record : List Event) (walked : first tokens cursor = ⟨.given value, after, record⟩) :
    (first >>= next) tokens cursor =
      ⟨(next value tokens after).ended, (next value tokens after).cursor, record ++ (next value tokens after).record⟩ := by
  change Walk.bind first next tokens cursor = _
  simp only [Walk.bind, walked]

-- A walk gives a value and takes the cursor somewhere, without a mistake and without leaving the input.
def Steps (tape : Tape) (commas : Bool) (place : Nat) (walk : Walk α) (value : α) (after : Nat) : Prop :=
  ∃ record, walk tape.tokens ⟨place, commas⟩ = ⟨.given value, ⟨after, commas⟩, record⟩ ∧ errorsIn record = [] ∧
    ∀ event ∈ record, event.Sound tape

section steps

variable {tape : Tape} {commas : Bool} {place middle after : Nat}

theorem steps_pure (value : α) : Steps tape commas place (pure value) value place :=
  ⟨[], rfl, rfl, sound_nil⟩

theorem steps_bind {first : Walk α} {next : α → Walk β} {value : α} {result : β}
    (start : Steps tape commas place first value middle) (goOn : Steps tape commas middle (next value) result after) :
    Steps tape commas place (first >>= next) result after := by
  obtain ⟨early, walked, quiet, sound⟩ := start
  obtain ⟨late, further, still, fine⟩ := goOn
  refine ⟨early ++ late, ?_, ?_, sound_append sound fine⟩
  · rw [bind_given first next _ _ _ value early walked, further]
  · rw [errorsIn_append, quiet, still, List.append_nil]

theorem steps_here : Steps tape commas place here ⟨place, commas⟩ place :=
  ⟨[], rfl, rfl, sound_nil⟩

theorem steps_look (spot : Nat) (inside : spot ≤ tape.last) : Steps tape commas place (look spot) (tape.next spot) place := by
  refine ⟨[.looked spot], ?_, rfl, ?_⟩
  · rw [look, tape.tokens_at spot inside]
  · intro event found
    rw [List.mem_singleton.mp found]
    exact inside

theorem steps_peek (inside : place ≤ tape.last) : Steps tape commas place peek (tape.next place) place :=
  steps_bind steps_here (steps_look place inside)

theorem steps_previous (inside : place ≤ tape.last) : Steps tape commas place previous (tape.next (place - 1)) place :=
  steps_bind steps_here (steps_look _ (Nat.le_trans (Nat.sub_le _ _) inside))

theorem steps_ended : Steps tape commas tape.last atEnd true tape.last := by
  have same : decide ((tape.next tape.last).kind = .endOfInput) = true := by
    rw [tape.next_last, tape.ended, decide_eq_true rfl]
  rw [← same]
  exact steps_bind (steps_peek (Nat.le_refl _)) (steps_pure _)

theorem steps_unended (before : place < tape.last) : Steps tape commas place atEnd false place := by
  rw [← decide_eq_false (tape.next_free place before)]
  exact steps_bind (steps_peek (Nat.le_of_lt before)) (steps_pure _)

theorem steps_advance (before : place < tape.last) : Steps tape commas place advance (tape.next place) (place + 1) := by
  have moved : Steps tape commas place step () (place + 1) := by
    refine ⟨[.moved (place + 1)], rfl, rfl, ?_⟩
    intro event found
    rw [List.mem_singleton.mp found]
    exact before
  exact steps_bind (steps_unended before) (steps_bind moved (steps_previous before))

theorem steps_nextFits (wanted : Kind → Bool) (inside : place ≤ tape.last) :
    Steps tape commas place (nextFits wanted) (decide (place < tape.last) && wanted (tape.next place).kind) place := by
  by_cases before : place < tape.last
  · rw [decide_eq_true before, Bool.true_and]
    exact steps_bind (steps_unended before) (steps_bind (steps_peek inside) (steps_pure _))
  · have ends : place = tape.last := Nat.le_antisymm inside (Nat.le_of_not_gt before)
    rw [decide_eq_false before, Bool.false_and, ends]
    exact steps_bind steps_ended (steps_pure _)

theorem steps_taken (wanted : Kind → Bool) (before : place < tape.last) (fits : wanted (tape.next place).kind = true) :
    Steps tape commas place (accept wanted) (some (tape.next place)) (place + 1) := by
  have looked : Steps tape commas place (nextFits wanted) _ place := steps_nextFits wanted (Nat.le_of_lt before)
  rw [decide_eq_true before, fits, Bool.true_and] at looked
  exact steps_bind looked (steps_bind (steps_advance before) (steps_pure _))

theorem steps_untaken (wanted : Kind → Bool) (inside : place ≤ tape.last)
    (missing : place < tape.last → wanted (tape.next place).kind = false) :
    Steps tape commas place (accept wanted) none place := by
  have looked : Steps tape commas place (nextFits wanted) _ place := steps_nextFits wanted inside
  have unfit : (decide (place < tape.last) && wanted (tape.next place).kind) = false := by
    by_cases before : place < tape.last
    · rw [missing before, Bool.and_false]
    · rw [decide_eq_false before, Bool.false_and]
  rw [unfit] at looked
  exact steps_bind looked (steps_pure _)

end steps

end Walk

section resuming

variable {tape : Tape}

theorem isEnd_iff (place : Nat) (inside : place ≤ tape.last) : IsEnd tape.tokens place ↔ place = tape.last := by
  rw [IsEnd, tape.tokens_at place inside]
  by_cases before : place < tape.last
  · simp [tape.next_free place before, Nat.ne_of_lt before]
  · have ends : place = tape.last := Nat.le_antisymm inside (Nat.le_of_not_gt before)
    simp [ends, tape.next_last, tape.ended]

theorem boundary_iff (place : Nat) (inside : place ≤ tape.last) :
    Boundary tape.tokens place ↔
      place = tape.last ∨ (tape.next (place - 1)).kind = .semicolon ∨ (tape.next place).kind.startsStatement = true := by
  have listed (kind : Kind) :
      kind ∈ [.endOfInput, .kwFun, .kwVar, .kwFor, .kwIf, .kwWhile, .kwPrint, .kwReturn] ↔
        kind = .endOfInput ∨ kind.startsStatement = true := by
    cases kind <;> decide
  have atEnd : (tape.next place).kind = .endOfInput ↔ place = tape.last := by
    rw [← isEnd_iff place inside, IsEnd, tape.tokens_at place inside]
    simp
  rw [Boundary, tape.tokens_at place inside, tape.tokens_at (place - 1) (Nat.le_trans (Nat.sub_le _ _) inside)]
  simp only [Option.some.injEq, exists_eq_left', listed, atEnd]
  rw [or_assoc, @or_comm ((tape.next place).kind.startsStatement = true)]

-- The search stops exactly at a boundary; elsewhere one token is passed, and what is left is the same search.
theorem seek_steps (commas : Bool) (bound place : Nat) (room : tape.last - place < bound) (inside : place ≤ tape.last) :
    ∃ finish, Walk.Steps tape commas place (Walk.seek bound) () finish ∧ place ≤ finish ∧ finish ≤ tape.last ∧
      seekStatement ((tape.next (place - 1)).kind = .semicolon) (tape.body.drop place) = tape.body.drop finish ∧
      Boundary tape.tokens finish ∧ ∀ between, place ≤ between → between < finish → ¬ Boundary tape.tokens between := by
  induction bound generalizing place with
  | zero => exact absurd room (Nat.not_lt_zero _)
  | succ bound ih =>
    have nothingBetween (between : Nat) (low : place ≤ between) (high : between < place) :
        ¬ Boundary tape.tokens between := absurd high (Nat.not_lt.mpr low)
    by_cases last : place = tape.last
    · subst last
      refine ⟨tape.last, Walk.steps_bind Walk.steps_ended (Walk.steps_pure ()), Nat.le_refl _, inside, ?_,
        (boundary_iff _ inside).mpr (.inl rfl), nothingBetween⟩
      rw [tape.drop_last, seekStatement]
    have before : place < tape.last := Nat.lt_of_le_of_ne inside last
    by_cases closed : (tape.next (place - 1)).kind = .semicolon
    · refine ⟨place, ?_, Nat.le_refl _, inside, ?_, (boundary_iff _ inside).mpr (.inr (.inl closed)), nothingBetween⟩
      · refine Walk.steps_bind (Walk.steps_unended before) (Walk.steps_bind (Walk.steps_previous inside) ?_)
        rw [if_pos closed]
        exact Walk.steps_pure ()
      · rw [tape.drop_next place before, seekStatement, decide_eq_true closed, Bool.true_or, if_pos rfl]
    by_cases starts : (tape.next place).kind.startsStatement = true
    · refine ⟨place, ?_, Nat.le_refl _, inside, ?_, (boundary_iff _ inside).mpr (.inr (.inr starts)), nothingBetween⟩
      · refine Walk.steps_bind (Walk.steps_unended before) (Walk.steps_bind (Walk.steps_previous inside) ?_)
        rw [if_neg closed]
        refine Walk.steps_bind (Walk.steps_peek inside) ?_
        rw [if_pos starts]
        exact Walk.steps_pure ()
      · rw [tape.drop_next place before, seekStatement, starts, Bool.or_true, if_pos rfl]
    obtain ⟨finish, searched, onward, within, dropped, boundary, first⟩ := ih (place + 1) (by omega) before
    refine ⟨finish, ?_, by omega, within, ?_, boundary, ?_⟩
    · refine Walk.steps_bind (Walk.steps_unended before) (Walk.steps_bind (Walk.steps_previous inside) ?_)
      rw [if_neg closed]
      refine Walk.steps_bind (Walk.steps_peek inside) ?_
      rw [if_neg starts]
      exact Walk.steps_bind (Walk.steps_advance before) searched
    · rw [Nat.add_sub_cancel] at dropped
      rw [tape.drop_next place before, seekStatement, decide_eq_false closed, Bool.false_or, if_neg starts, dropped]
    · intro between low high
      by_cases same : between = place
      · rw [same, boundary_iff place inside, not_or, not_or]
        exact ⟨last, closed, starts⟩
      · exact first between (by omega) high

theorem synchronize_steps (commas : Bool) (bound stood : Nat) (room : tape.last - stood < bound)
    (inside : stood ≤ tape.last) :
    ∃ finish, Walk.Steps tape commas stood (Walk.synchronize bound) () finish ∧ stood ≤ finish ∧ finish ≤ tape.last ∧
      resume (tape.body.drop stood) = tape.body.drop finish ∧ Resumes tape.tokens stood finish := by
  by_cases last : stood = tape.last
  · subst last
    obtain ⟨finish, searched, onward, within, -⟩ := seek_steps commas bound tape.last room inside
    have stays : finish = tape.last := Nat.le_antisymm within onward
    have stayed : Walk.Steps tape commas tape.last Walk.advance _ tape.last :=
      Walk.steps_bind Walk.steps_ended (Walk.steps_previous inside)
    refine ⟨finish, Walk.steps_bind stayed searched, onward, within, ?_, fun _ => stays, ?_⟩
    · rw [stays, tape.drop_last, resume]
    · intro unended
      exact absurd ((isEnd_iff _ inside).mpr rfl) unended
  · have before : stood < tape.last := Nat.lt_of_le_of_ne inside last
    obtain ⟨finish, searched, onward, within, dropped, boundary, first⟩ :=
      seek_steps commas bound (stood + 1) (by omega) before
    refine ⟨finish, Walk.steps_bind (Walk.steps_advance before) searched, by omega, within, ?_, ?_, ?_⟩
    · rw [tape.drop_next stood before, resume]
      exact dropped
    · intro ends
      exact absurd ((isEnd_iff _ inside).mp ends) last
    · intro _
      exact ⟨onward, boundary, first⟩

end resuming

end Treewalk
