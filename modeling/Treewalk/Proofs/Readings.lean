import Treewalk.Tree.Program

/-!
Readings that succeed without a mistake. `Gives` says what such a reading yields and what it leaves, and the
lemmas turn each step of a reading into plain facts about the tokens. Going on after a failure that was reported is no
such success.
-/

set_option autoImplicit false

namespace Treewalk

-- Whether the next token is of a wanted kind. There is none behind the last one.
def Ahead (wanted : Kind → Bool) (tokens : List Token) : Prop := tokens.head?.any (wanted ·.kind) = true

theorem ahead_cons (wanted : Kind → Bool) (first : Token) (rest : List Token) :
    Ahead wanted (first :: rest) ↔ wanted first.kind = true := by
  simp [Ahead]

theorem not_ahead_nil (wanted : Kind → Bool) : ¬ Ahead wanted [] := by
  simp [Ahead]

theorem ahead_excludes (wanted other : Kind → Bool) (tokens : List Token) (hit : Ahead wanted tokens)
    (disjoint : ∀ kind, wanted kind = true → ¬ other kind = true) : ¬ Ahead other tokens := by
  cases tokens with
  | nil => exact not_ahead_nil other
  | cons first rest =>
      rw [ahead_cons] at hit ⊢
      exact disjoint first.kind hit

instance (wanted : Kind → Bool) (tokens : List Token) : Decidable (Ahead wanted tokens) :=
  inferInstanceAs (Decidable (_ = true))

namespace Reading

variable {α β : Type}

-- A reading yields a value, leaves some tokens and reports no mistake.
def Gives (reading : Reading α) (stop : Token) (tokens : List Token) (value : α) (rest : List Token) : Prop :=
  reading stop tokens = ⟨some value, rest, []⟩

theorem gives_bind (first : Reading α) (next : α → Reading β) (stop : Token) (tokens rest : List Token)
    (value : β) :
    (first >>= next).Gives stop tokens value rest ↔
      ∃ middle between, first.Gives stop tokens middle between ∧
        (next middle).Gives stop between value rest := by
  change Reading.bind first next stop tokens = _ ↔ _
  simp only [Gives, Reading.bind]
  cases reply : first stop tokens with
  | mk result between errors =>
      cases result with
      | none => simp
      | some middle =>
          constructor
          · intro given
            simp only [Reply.mk.injEq, List.append_eq_nil_iff] at given
            obtain ⟨yields, leaves, clean, later⟩ := given
            refine ⟨middle, between, by rw [clean], ?_⟩
            rw [← yields, ← leaves, ← later]
          · rintro ⟨middle', between', same, later⟩
            simp only [Reply.mk.injEq, Option.some.injEq] at same
            obtain ⟨rfl, rfl, rfl⟩ := same
            simp [later]

theorem gives_pure (given value : α) (stop : Token) (tokens rest : List Token) :
    (pure given : Reading α).Gives stop tokens value rest ↔ given = value ∧ tokens = rest := by
  change Reading.pure given stop tokens = _ ↔ _
  simp [Reading.pure]

theorem gives_map (f : α → β) (reading : Reading α) (stop : Token) (tokens rest : List Token) (value : β) :
    (f <$> reading).Gives stop tokens value rest ↔
      ∃ given, reading.Gives stop tokens given rest ∧ f given = value := by
  change (reading >>= fun given => pure (f given)).Gives stop tokens value rest ↔ _
  simp only [gives_bind, gives_pure]
  constructor
  · rintro ⟨given, between, read, same, rfl⟩
    exact ⟨given, read, same⟩
  · rintro ⟨given, read, same⟩
    exact ⟨given, rest, read, same, rfl⟩

theorem not_gives_fail (token stop : Token) (cause : ParseCause) (tokens rest : List Token) (value : α) :
    ¬ (fail token cause : Reading α).Gives stop tokens value rest := by
  simp [Gives, fail]

theorem not_gives_report_bind (token stop : Token) (cause : ParseCause) (next : Unit → Reading β)
    (tokens rest : List Token) (value : β) :
    ¬ (report token cause >>= next).Gives stop tokens value rest := by
  rw [gives_bind]
  rintro ⟨middle, between, given, -⟩
  simp [Gives, report] at given

-- A step whose reply is known leads to the rest of the reading.
theorem gives_known_bind (first : Reading α) (next : α → Reading β) (stop : Token)
    (tokens between rest : List Token) (middle : α) (value : β) (known : first.Gives stop tokens middle between) :
    (first >>= next).Gives stop tokens value rest ↔ (next middle).Gives stop between value rest := by
  rw [gives_bind]
  constructor
  · rintro ⟨other, left, given, later⟩
    have same := given.symm.trans known
    simp only [Reply.mk.injEq, Option.some.injEq, and_true] at same
    obtain ⟨rfl, rfl⟩ := same
    exact later
  · intro later
    exact ⟨middle, between, known, later⟩

theorem gives_peek_bind (next : Token → Reading β) (stop : Token) (tokens rest : List Token) (value : β) :
    (peek >>= next).Gives stop tokens value rest ↔
      (next (tokens.head?.getD stop)).Gives stop tokens value rest :=
  gives_known_bind peek next stop tokens tokens rest _ value rfl

theorem not_gives_failHere (stop : Token) (cause : ParseCause) (tokens rest : List Token) (value : α) :
    ¬ (failHere cause : Reading α).Gives stop tokens value rest := by
  rw [failHere, gives_peek_bind]
  exact not_gives_fail _ _ _ _ _ _

theorem gives_accepted_bind (wanted : Kind → Bool) (next : Option Token → Reading β) (stop token : Token)
    (later rest : List Token) (value : β) (fits : wanted token.kind = true) :
    (accept wanted >>= next).Gives stop (token :: later) value rest ↔
      (next (some token)).Gives stop later value rest := by
  refine gives_known_bind _ next stop _ later rest _ value ?_
  simp [Gives, accept, fits]

theorem gives_unaccepted_bind (wanted : Kind → Bool) (next : Option Token → Reading β) (stop : Token)
    (tokens rest : List Token) (value : β) (missing : ¬ Ahead wanted tokens) :
    (accept wanted >>= next).Gives stop tokens value rest ↔ (next none).Gives stop tokens value rest := by
  refine gives_known_bind _ next stop tokens tokens rest _ value ?_
  cases tokens with
  | nil => rfl
  | cons token later =>
      have differs : ¬ wanted token.kind = true := fun fits => missing ((ahead_cons ..).mpr fits)
      simp [Gives, accept, differs]

theorem gives_accept_bind (wanted : Kind → Bool) (next : Option Token → Reading β) (stop : Token)
    (tokens rest : List Token) (value : β) :
    (accept wanted >>= next).Gives stop tokens value rest ↔
      (¬ Ahead wanted tokens ∧ (next none).Gives stop tokens value rest) ∨
      ∃ token later, tokens = token :: later ∧ wanted token.kind = true ∧
        (next (some token)).Gives stop later value rest := by
  by_cases hit : Ahead wanted tokens
  · cases tokens with
    | nil => exact absurd hit (not_ahead_nil wanted)
    | cons token later =>
        have fits := (ahead_cons wanted token later).mp hit
        rw [gives_accepted_bind wanted next stop token later rest value fits]
        constructor
        · intro given
          exact .inr ⟨token, later, rfl, fits, given⟩
        · rintro (⟨missing, -⟩ | ⟨other, tail, same, -, given⟩)
          · exact absurd hit missing
          · cases same
            exact given
  · rw [gives_unaccepted_bind wanted next stop tokens rest value hit]
    constructor
    · intro given
      exact .inl ⟨hit, given⟩
    · rintro (⟨-, given⟩ | ⟨token, later, rfl, fits, -⟩)
      · exact given
      · exact absurd ((ahead_cons ..).mpr fits) hit

theorem gives_nextIs_bind (kind : Kind) (next : Bool → Reading β) (stop : Token) (tokens rest : List Token)
    (value : β) :
    (nextIs kind >>= next).Gives stop tokens value rest ↔
      (next (decide (Ahead (· = kind) tokens))).Gives stop tokens value rest := by
  have same : tokens.head?.any (·.kind = kind) = decide (Ahead (· = kind) tokens) := by
    rw [Bool.eq_iff_iff, decide_eq_true_iff]
    exact Iff.rfl
  refine gives_known_bind _ next stop tokens tokens rest _ value ?_
  rw [Gives, nextIs, same]

theorem gives_atEnd_bind (next : Bool → Reading β) (stop : Token) (tokens rest : List Token) (value : β) :
    (atEnd >>= next).Gives stop tokens value rest ↔
      (next tokens.isEmpty).Gives stop tokens value rest :=
  gives_known_bind atEnd next stop tokens tokens rest _ value rfl

theorem gives_expect (kind : Kind) (cause : ParseCause) (stop : Token) (tokens rest : List Token)
    (token : Token) :
    (expect kind cause).Gives stop tokens token rest ↔ tokens = token :: rest ∧ token.kind = kind := by
  rw [expect, gives_accept_bind]
  constructor
  · rintro (⟨-, failed⟩ | ⟨first, later, rfl, fits, given⟩)
    · exact absurd failed (not_gives_failHere _ _ _ _ _)
    · obtain ⟨rfl, rfl⟩ := (gives_pure ..).mp given
      exact ⟨rfl, of_decide_eq_true fits⟩
  · rintro ⟨rfl, fits⟩
    exact .inr ⟨token, rest, rfl, decide_eq_true fits, (gives_pure ..).mpr ⟨rfl, rfl⟩⟩

theorem gives_expect_bind (kind : Kind) (cause : ParseCause) (next : Token → Reading β) (stop : Token)
    (tokens rest : List Token) (value : β) :
    (expect kind cause >>= next).Gives stop tokens value rest ↔
      ∃ token later, tokens = token :: later ∧ token.kind = kind ∧
        (next token).Gives stop later value rest := by
  simp only [gives_bind, gives_expect, and_assoc]

-- A reading that fails has reported a mistake.
def Honest (reading : Reading α) : Prop :=
  ∀ stop tokens, (reading stop tokens).result = none → (reading stop tokens).errors ≠ []

-- Going on after a failure is no success without a mistake.
theorem gives_recover (reading : Reading α) (honest : reading.Honest) (stop : Token)
    (tokens rest : List Token) (value : Option α) :
    reading.recover.Gives stop tokens value rest ↔
      ∃ given, value = some given ∧ reading.Gives stop tokens given rest := by
  have known := honest stop tokens
  simp only [Gives, recover]
  cases reply : reading stop tokens with
  | mk result left errors =>
      simp only [reply] at known
      cases result with
      | none =>
          have reported := known rfl
          simp [reported]
      | some given =>
          simp only [Reply.mk.injEq, Option.some.injEq]
          constructor
          · rintro ⟨rfl, rfl, rfl⟩
            exact ⟨given, rfl, rfl, rfl, rfl⟩
          · rintro ⟨other, rfl, rfl, rfl, rfl⟩
            exact ⟨rfl, rfl, rfl⟩

end Reading

end Treewalk
