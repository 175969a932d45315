import Mathlib.Data.List.Forall2
import Treewalk.Proofs.Settling

/-!
The distances that the analysis records, told from the program alone. Blocks and functions are local scopes, told apart
by the places where they stand. What a program declares and uses comes in the order of its text, each with the scopes
around it. A use has a distance if one of these has declared the name before, and the distance is the number of scopes
inside the nearest such one.
-/

set_option autoImplicit false

namespace Treewalk

open Scope

variable {ν : Type}

-- Where a statement stands: its index among its neighbours, then that of the statement around it, and so on outwards.
abbrev Place := List Nat

-- A declaration made directly in the innermost of some scopes, or a use inside them. The scopes come innermost first,
-- each by the place of the block or function that opens it.
inductive Occurrence (ν : Type) where
  | declares (name : Token) (scopes : List Place)
  | uses (use : Use ν) (scopes : List Place)

mutual
def Stmt.occurrences (place : Place) (scopes : List Place) : Stmt ν → List (Occurrence ν)
  | .ret _ value => (Expr.usesOption value).map (.uses · scopes)
  | .print _ value => value.uses.map (.uses · scopes)
  | .expr value => value.uses.map (.uses · scopes)
  | .var name value => .declares name scopes :: (Expr.usesOption value).map (.uses · scopes)
  | .block body => Stmt.occurrencesAll place 0 (place :: scopes) body
  | .func name params body =>
      .declares name scopes :: (params.map (.declares · (place :: scopes)) ++
        Stmt.occurrencesAll place 0 (place :: scopes) body)
  | .branch condition yes none => condition.uses.map (.uses · scopes) ++ yes.occurrences (0 :: place) scopes
  | .branch condition yes (some no) =>
      condition.uses.map (.uses · scopes) ++ yes.occurrences (0 :: place) scopes ++ no.occurrences (1 :: place) scopes
  | .loop condition body => condition.uses.map (.uses · scopes) ++ body.occurrences (0 :: place) scopes
-- Statements at a place, from an index on.
def Stmt.occurrencesAll (place : Place) (index : Nat) (scopes : List Place) : List (Stmt ν) → List (Occurrence ν)
  | [] => []
  | first :: rest => first.occurrences (index :: place) scopes ++ Stmt.occurrencesAll place (index + 1) scopes rest
end

def occurrencesOf (program : List (Stmt ν)) : List (Occurrence ν) := Stmt.occurrencesAll [] 0 [] program

def Occurrence.label? : Occurrence ν → Option ν
  | .declares _ _ => none
  | .uses use _ => some use.label

def labelsOf (program : List (Stmt ν)) : List ν := (occurrencesOf program).filterMap Occurrence.label?

-- A declaration of a name directly in a scope.
def Occurrence.declaresIn (scope : Place) (name : String) : Occurrence ν → Bool
  | .declares token scopes => scopes.head? == some scope && token.lexeme == name
  | .uses _ _ => false

def Declared (before : List (Occurrence ν)) (scope : Place) (name : String) : Prop :=
  before.any (·.declaresIn scope name) = true

instance (before : List (Occurrence ν)) (scope : Place) (name : String) : Decidable (Declared before scope name) :=
  inferInstanceAs (Decidable (_ = true))

-- The nearest of some scopes that has declared a name lies behind so many others.
def Nearest (before : List (Occurrence ν)) (scopes : List Place) (name : String) (distance : Nat) : Prop :=
  ∃ inner scope outer, scopes = inner ++ scope :: outer ∧ inner.length = distance ∧ Declared before scope name ∧
    ∀ other ∈ inner, ¬ Declared before other name

theorem declared_append (before more : List (Occurrence ν)) (scope : Place) (name : String) :
    Declared (before ++ more) scope name ↔ Declared before scope name ∨ Declared more scope name := by
  simp only [Declared, List.any_append, Bool.or_eq_true]

theorem not_declared_nil (scope : Place) (name : String) : ¬ Declared ([] : List (Occurrence ν)) scope name := by
  simp [Declared]

theorem not_declared_uses (uses : List (Use ν)) (scopes : List Place) (scope : Place) (name : String) :
    ¬ Declared (uses.map (.uses · scopes)) scope name := by
  simp [Declared, Occurrence.declaresIn]

theorem declared_cons (token : Token) (scopes : List Place) (rest : List (Occurrence ν)) (scope : Place)
    (name : String) :
    Declared (.declares token scopes :: rest) scope name ↔
      (scopes.head? = some scope ∧ token.lexeme = name) ∨ Declared rest scope name := by
  simp only [Declared, List.any_cons, Occurrence.declaresIn, Bool.or_eq_true, Bool.and_eq_true, beq_iff_eq]

theorem declared_params (params : List Token) (place : Place) (scopes : List Place) (scope : Place) (name : String)
    (declared : Declared (params.map (.declares · (place :: scopes)) : List (Occurrence ν)) scope name) :
    scope = place := by
  induction params with
  | nil => exact absurd declared (not_declared_nil scope name)
  | cons first rest ih =>
      rw [List.map_cons, declared_cons] at declared
      rcases declared with ⟨here, -⟩ | later
      · exact (Option.some.inj here).symm
      · exact ih later

-- The tables of the analysis and the scopes they stand for: each table has the names declared in its scope so far.
def Tracks (before : List (Occurrence ν)) (tables : List Scope) (scopes : List Place) : Prop :=
  List.Forall₂ (fun table scope => ∀ name, table.declares name = true ↔ Declared before scope name) tables scopes

theorem tracks_distance (before : List (Occurrence ν)) (tables : List Scope) (scopes : List Place) (name : String)
    (tracks : Tracks before tables scopes) :
    ∀ distance, distance? tables name = some distance ↔ Nearest before scopes name distance := by
  induction tracks with
  | nil => simp [distance?, Nearest]
  | @cons table scope tables scopes same tracks ih =>
      intro distance
      simp only [distance?, List.findIdx?_cons] at ih ⊢
      by_cases declared : table.declares name = true
      · rw [if_pos declared]
        have here := (same name).mp declared
        constructor
        · intro found
          cases found
          exact ⟨[], scope, scopes, rfl, rfl, here, fun _ inside => absurd inside List.not_mem_nil⟩
        · rintro ⟨inner, nearest, outer, split, rfl, -, others⟩
          cases inner with
          | nil => rfl
          | cons first inner =>
              cases split
              exact absurd here (others scope List.mem_cons_self)
      · rw [if_neg declared, Option.map_eq_some_iff]
        have elsewhere := fun here => declared ((same name).mpr here)
        constructor
        · rintro ⟨fewer, found, rfl⟩
          obtain ⟨inner, nearest, outer, rfl, rfl, holds, others⟩ := (ih fewer).mp found
          exact ⟨scope :: inner, nearest, outer, rfl, rfl, holds, List.forall_mem_cons.mpr ⟨elsewhere, others⟩⟩
        · rintro ⟨inner, nearest, outer, split, rfl, holds, others⟩
          cases inner with
          | nil =>
              cases split
              exact absurd holds elsewhere
          | cons first inner =>
              cases split
              refine ⟨inner.length, (ih _).mpr ⟨inner, nearest, outer, rfl, rfl, holds, ?_⟩, rfl⟩
              exact (List.forall_mem_cons.mp others).2

theorem tracks_found (before : List (Occurrence ν)) (tables : List Scope) (scopes : List Place) (name : String)
    (tracks : Tracks before tables scopes) :
    (distance? tables name).isSome = true ↔ ∃ scope ∈ scopes, Declared before scope name := by
  unfold distance?
  rw [List.findIdx?_isSome]
  induction tracks with
  | nil => simp
  | cons same _ ih => simp only [List.any_cons, Bool.or_eq_true, same name, ih, List.mem_cons, exists_eq_or_imp]

theorem tracks_congr (before after : List (Occurrence ν)) (tables : List Scope) (scopes : List Place)
    (tracks : Tracks before tables scopes)
    (kept : ∀ scope ∈ scopes, ∀ name, Declared after scope name ↔ Declared before scope name) :
    Tracks after tables scopes := by
  induction tracks with
  | nil => exact .nil
  | cons same _ ih =>
      obtain ⟨here, others⟩ := List.forall_mem_cons.mp kept
      exact .cons (fun name => (same name).trans (here name).symm) (ih others)

theorem tracks_uses (before : List (Occurrence ν)) (tables : List Scope) (scopes around : List Place)
    (uses : List (Use ν)) (tracks : Tracks before tables scopes) :
    Tracks (before ++ uses.map (.uses · around)) tables scopes := by
  apply tracks_congr before _ tables scopes tracks
  intro scope _ name
  simp only [declared_append, not_declared_uses, or_false]

-- Scopes lie inside one another: the place of each is longer than those of the scopes around it.
def Nested (scopes : List Place) : Prop := scopes.Pairwise fun inner outer => outer.length < inner.length

-- What a declaration adds to the tables.

theorem Scope.declares_cons (name : String) (ready : Bool) (table : Scope) (other : String) :
    Scope.declares ((name, ready) :: table) other = (other == name || table.declares other) := by
  simp only [Scope.declares, List.lookup_cons]
  cases other == name <;> rfl

theorem Scope.declare_adds (name : Token) (table : Scope) (outer : List Scope) :
    ∃ more, declare name (table :: outer) = more :: outer ∧
      ∀ other, more.declares other = (other == name.lexeme || table.declares other) := by
  simp only [declare]
  by_cases declared : table.declares name.lexeme = true
  · refine ⟨table, if_pos declared, fun other => ?_⟩
    by_cases same : other = name.lexeme
    · rw [same, declared, Bool.or_true]
    · rw [beq_false_of_ne same, Bool.false_or]
  · exact ⟨_, if_neg declared, Scope.declares_cons name.lexeme false table⟩

theorem Scope.bind_adds (name : Token) (table : Scope) (outer : List Scope) :
    ∃ more, Scope.bind name (table :: outer) = more :: outer ∧
      ∀ other, more.declares other = (other == name.lexeme || table.declares other) := by
  obtain ⟨declared, same, adds⟩ := Scope.declare_adds name table outer
  refine ⟨(name.lexeme, true) :: declared, ?_, fun other => ?_⟩
  · rw [Scope.bind, same]
    rfl
  · rw [Scope.declares_cons, adds, ← Bool.or_assoc, Bool.or_self]

-- A table that has one more name tracks its scope behind the declaration, and the other scopes have declared nothing.
theorem tracks_more (before : List (Occurrence ν)) (name : Token) (table more : Scope) (tables : List Scope)
    (scope : Place) (outer : List Place) (tracks : Tracks before (table :: tables) (scope :: outer))
    (nested : Nested (scope :: outer))
    (adds : ∀ other, more.declares other = (other == name.lexeme || table.declares other)) :
    Tracks (before ++ [.declares name (scope :: outer)]) (more :: tables) (scope :: outer) := by
  obtain ⟨same, others⟩ := List.forall₂_cons.mp tracks
  have shorter := (List.pairwise_cons.mp nested).1
  refine .cons (fun other => ?_) (tracks_congr before _ tables outer others fun around inside other => ?_)
  · rw [adds, Bool.or_eq_true, beq_iff_eq, same, declared_append, declared_cons]
    simp only [List.head?_cons, true_and, not_declared_nil, or_false]
    rw [or_comm, eq_comm]
  · have different : scope ≠ around := by
      rintro rfl
      exact Nat.lt_irrefl _ (shorter scope inside)
    simp [declared_append, declared_cons, not_declared_nil, different]

theorem tracks_declare (before : List (Occurrence ν)) (name : Token) (tables : List Scope) (scopes : List Place)
    (tracks : Tracks before tables scopes) (nested : Nested scopes) :
    Tracks (before ++ [.declares name scopes]) (declare name tables) scopes := by
  cases tracks with
  | nil => exact .nil
  | @cons table scope tables outer same others =>
      obtain ⟨more, declared, adds⟩ := Scope.declare_adds name table tables
      rw [declared]
      exact tracks_more before name table more tables scope outer (.cons same others) nested adds

theorem tracks_bind (before : List (Occurrence ν)) (name : Token) (tables : List Scope) (scopes : List Place)
    (tracks : Tracks before tables scopes) (nested : Nested scopes) :
    Tracks (before ++ [.declares name scopes]) (Scope.bind name tables) scopes := by
  cases tracks with
  | nil => exact .nil
  | @cons table scope tables outer same others =>
      obtain ⟨more, bound, adds⟩ := Scope.bind_adds name table tables
      rw [bound]
      exact tracks_more before name table more tables scope outer (.cons same others) nested adds

-- Nothing was declared yet in a scope that stands at a place or inside it.
def Fresh (before : List (Occurrence ν)) (place : Place) : Prop :=
  ∀ scope name, Declared before scope name → ¬ place <:+ scope

theorem fresh_inside (before : List (Occurrence ν)) (place : Place) (index : Nat) (fresh : Fresh before place) :
    Fresh before (index :: place) := by
  intro scope name declared inside
  exact fresh scope name declared ((List.suffix_cons index place).trans inside)

theorem fresh_uses (before : List (Occurrence ν)) (place : Place) (scopes : List Place) (uses : List (Use ν))
    (fresh : Fresh before place) : Fresh (before ++ uses.map (.uses · scopes)) place := by
  intro scope name declared
  rw [declared_append] at declared
  exact fresh scope name (declared.resolve_right (not_declared_uses uses scopes scope name))

-- A declaration in a scope around a place is not inside it.
theorem fresh_around (before : List (Occurrence ν)) (place : Place) (scopes : List Place) (name : Token)
    (fresh : Fresh before place) (nested : Nested (place :: scopes)) :
    Fresh (before ++ [.declares name scopes]) place := by
  intro scope other declared inside
  rw [declared_append, declared_cons] at declared
  rcases declared with earlier | ⟨here, -⟩ | none
  · exact fresh scope other earlier inside
  · have shorter := (List.pairwise_cons.mp nested).1 scope (List.mem_of_head? here)
    exact Nat.not_le.mpr shorter inside.length_le
  · exact not_declared_nil scope other none

theorem tracks_open (before : List (Occurrence ν)) (tables : List Scope) (place : Place) (scopes : List Place)
    (tracks : Tracks before tables scopes) (fresh : Fresh before place) :
    Tracks before ([] :: tables) (place :: scopes) := by
  refine .cons (fun name => ?_) tracks
  constructor
  · intro declared
    cases declared
  · intro declared
    exact absurd (List.suffix_refl place) (fresh place name declared)

theorem inside_opened (place : Place) (scopes : List Place) (scope : Place)
    (inside : (place :: scopes).head? = some scope ∨ place <:+ scope) : place <:+ scope := by
  rcases inside with here | deeper
  · cases here
    exact List.suffix_refl place
  · exact deeper

-- A statement declares names in the scope around it and in scopes inside it, and nowhere else.
mutual
theorem Stmt.declared_where (scope : Place) (name : String) : (stmt : Stmt ν) → (place : Place) →
    (scopes : List Place) →
    Declared (stmt.occurrences place scopes) scope name → scopes.head? = some scope ∨ place <:+ scope
  | .ret _ value, _, scopes, declared => absurd declared (not_declared_uses _ scopes scope name)
  | .print _ value, _, scopes, declared => absurd declared (not_declared_uses _ scopes scope name)
  | .expr value, _, scopes, declared => absurd declared (not_declared_uses _ scopes scope name)
  | .var token value, _, scopes, declared => by
      rw [Stmt.occurrences, declared_cons] at declared
      rcases declared with ⟨here, -⟩ | used
      · exact .inl here
      · exact absurd used (not_declared_uses _ scopes scope name)
  | .block body, place, scopes, declared =>
      .inr (inside_opened place scopes scope (Stmt.declaredAll_where scope name body place 0 _ declared))
  | .func token params body, place, scopes, declared => by
      rw [Stmt.occurrences, declared_cons, declared_append] at declared
      rcases declared with ⟨here, -⟩ | ofParams | ofBody
      · exact .inl here
      · exact .inr (declared_params params place scopes scope name ofParams ▸ List.suffix_refl place)
      · exact .inr (inside_opened place scopes scope (Stmt.declaredAll_where scope name body place 0 _ ofBody))
  | .branch condition yes none, place, scopes, declared => by
      rw [Stmt.occurrences, declared_append] at declared
      have ofYes := declared.resolve_left (not_declared_uses _ scopes scope name)
      exact (Stmt.declared_where scope name yes _ scopes ofYes).imp_right (List.suffix_cons 0 place).trans
  | .branch condition yes (some no), place, scopes, declared => by
      rw [Stmt.occurrences, declared_append, declared_append] at declared
      rcases declared with (used | ofYes) | ofNo
      · exact absurd used (not_declared_uses _ scopes scope name)
      · exact (Stmt.declared_where scope name yes _ scopes ofYes).imp_right (List.suffix_cons 0 place).trans
      · exact (Stmt.declared_where scope name no _ scopes ofNo).imp_right (List.suffix_cons 1 place).trans
  | .loop condition body, place, scopes, declared => by
      rw [Stmt.occurrences, declared_append] at declared
      have ofBody := declared.resolve_left (not_declared_uses _ scopes scope name)
      exact (Stmt.declared_where scope name body _ scopes ofBody).imp_right (List.suffix_cons 0 place).trans
theorem Stmt.declaredAll_where (scope : Place) (name : String) : (stmts : List (Stmt ν)) → (place : Place) →
    (index : Nat) → (scopes : List Place) → Declared (Stmt.occurrencesAll place index scopes stmts) scope name →
    scopes.head? = some scope ∨ place <:+ scope
  | [], _, _, _, declared => absurd declared (not_declared_nil scope name)
  | first :: rest, place, index, scopes, declared => by
      rw [Stmt.occurrencesAll, declared_append] at declared
      rcases declared with ofFirst | ofRest
      · exact (Stmt.declared_where scope name first _ scopes ofFirst).imp_right (List.suffix_cons index place).trans
      · exact Stmt.declaredAll_where scope name rest place (index + 1) scopes ofRest
end

-- The uses and declarations that the analysis mentions are those of the text, and its tables track the scopes at each.
inductive Follows : List (Occurrence ν) → List (Occurrence ν) → List (Mention ν) → Prop where
  | done (before : List (Occurrence ν)) : Follows before [] []
  | uses (before later : List (Occurrence ν)) (use : Use ν) (scopes : List Place) (tables : List Scope)
      (mentions : List (Mention ν)) (tracks : Tracks before tables scopes)
      (rest : Follows (before ++ [.uses use scopes]) later mentions) :
      Follows before (.uses use scopes :: later) (.use use tables :: mentions)
  | declares (before later : List (Occurrence ν)) (name : Token) (scopes : List Place) (tables : List Scope)
      (mentions : List (Mention ν)) (rest : Follows (before ++ [.declares name scopes]) later mentions) :
      Follows before (.declares name scopes :: later) (.binding name tables :: mentions)
  | leaving (before later : List (Occurrence ν)) (inFunction : Bool) (keyword : Token) (mentions : List (Mention ν))
      (rest : Follows before later mentions) : Follows before later (.leaving inFunction keyword :: mentions)

theorem follows_append (before first second : List (Occurrence ν)) (mentions more : List (Mention ν))
    (early : Follows before first mentions) (late : Follows (before ++ first) second more) :
    Follows before (first ++ second) (mentions ++ more) := by
  induction early with
  | done before => simpa using late
  | uses before later use scopes tables mentions tracks _ ih =>
      exact .uses before _ use scopes tables _ tracks (ih (by simpa using late))
  | declares before later name scopes tables mentions _ ih =>
      exact .declares before _ name scopes tables _ (ih (by simpa using late))
  | leaving before later inFunction keyword mentions _ ih => exact .leaving before _ inFunction keyword _ (ih late)

theorem follows_uses (scopes : List Place) (tables : List Scope) (uses : List (Use ν)) :
    ∀ before, Tracks before tables scopes →
      Follows before (uses.map (.uses · scopes)) (uses.map (.use · tables)) := by
  induction uses with
  | nil => exact fun before _ => .done before
  | cons first rest ih =>
      intro before tracks
      exact .uses before _ first scopes tables _ tracks (ih _ (tracks_uses before tables scopes scopes [first] tracks))

theorem follows_params (scopes : List Place) (nested : Nested scopes) (params : List Token) : ∀ before tables,
    Tracks before tables scopes →
      Follows before (params.map (.declares · scopes) : List (Occurrence ν)) (bindingMentions tables params) ∧
        Tracks (before ++ params.map (.declares · scopes)) (Scope.bindAll tables params) scopes := by
  induction params with
  | nil => exact fun before tables tracks => ⟨.done before, by simpa [Scope.bindAll] using tracks⟩
  | cons first rest ih =>
      intro before tables tracks
      obtain ⟨follows, tracked⟩ := ih _ _ (tracks_bind before first tables scopes tracks nested)
      exact ⟨.declares before _ first scopes tables _ follows, by simpa [Scope.bindAll] using tracked⟩

-- A use in the text is mentioned with tables that track the scopes around it.
theorem follows_use (before occurrences : List (Occurrence ν)) (mentions : List (Mention ν))
    (follows : Follows before occurrences mentions) :
    ∀ earlier use scopes later, occurrences = earlier ++ .uses use scopes :: later →
      ∃ tables, .use use tables ∈ mentions ∧ Tracks (before ++ earlier) tables scopes := by
  induction follows with
  | done before => simp
  | uses before rest first around tables mentions tracks _ ih =>
      intro earlier use scopes later split
      cases earlier with
      | nil =>
          cases split
          exact ⟨tables, List.mem_cons_self, by simpa using tracks⟩
      | cons head earlier =>
          cases split
          obtain ⟨found, inside, tracked⟩ := ih earlier use scopes later rfl
          exact ⟨found, List.mem_cons_of_mem _ inside, by simpa using tracked⟩
  | declares before rest name around tables mentions _ ih =>
      intro earlier use scopes later split
      cases earlier with
      | nil => cases split
      | cons head earlier =>
          cases split
          obtain ⟨found, inside, tracked⟩ := ih earlier use scopes later rfl
          exact ⟨found, List.mem_cons_of_mem _ inside, by simpa using tracked⟩
  | leaving before rest inFunction keyword mentions _ ih =>
      intro earlier use scopes later split
      obtain ⟨found, inside, tracked⟩ := ih earlier use scopes later split
      exact ⟨found, List.mem_cons_of_mem _ inside, tracked⟩

theorem follows_labels (before occurrences : List (Occurrence ν)) (mentions : List (Mention ν))
    (follows : Follows before occurrences mentions) :
    mentions.flatMap Mention.labels = occurrences.filterMap Occurrence.label? := by
  induction follows with
  | done => rfl
  | uses before rest use scopes tables mentions _ _ ih => simp [Mention.labels, Occurrence.label?, ih]
  | declares before rest name scopes tables mentions _ ih => exact ih
  | leaving before rest inFunction keyword mentions _ ih => exact ih

-- What stands inside a place leaves the scopes around it as they were.
theorem tracks_behind (before inner : List (Occurrence ν)) (tables : List Scope) (place : Place) (scopes : List Place)
    (tracks : Tracks before tables scopes) (nested : Nested (place :: scopes))
    (inside : ∀ scope name, Declared inner scope name → place <:+ scope) : Tracks (before ++ inner) tables scopes := by
  apply tracks_congr before _ tables scopes tracks
  intro scope around name
  rw [declared_append]
  refine or_iff_left fun declared => ?_
  have shorter := (List.pairwise_cons.mp nested).1 scope around
  exact Nat.not_le.mpr shorter (inside scope name declared).length_le

theorem nested_inside (place : Place) (index : Nat) (scopes : List Place) (nested : Nested (place :: scopes)) :
    Nested ((index :: place) :: scopes) := by
  obtain ⟨shorter, others⟩ := List.pairwise_cons.mp nested
  exact List.pairwise_cons.mpr ⟨fun scope around => Nat.lt_succ_of_lt (shorter scope around), others⟩

theorem nested_open (place : Place) (index : Nat) (scopes : List Place) (nested : Nested (place :: scopes)) :
    Nested ((index :: place) :: place :: scopes) := by
  have inside := (List.pairwise_cons.mp (nested_inside place index scopes nested)).1
  exact List.pairwise_cons.mpr ⟨List.forall_mem_cons.mpr ⟨Nat.lt_succ_self _, inside⟩, nested⟩

theorem nested_neighbour (place : Place) (index other : Nat) (scopes : List Place)
    (nested : Nested ((index :: place) :: scopes)) : Nested ((other :: place) :: scopes) := by
  obtain ⟨shorter, others⟩ := List.pairwise_cons.mp nested
  exact List.pairwise_cons.mpr ⟨shorter, others⟩

-- Behind a statement the places of its later neighbours are still fresh.
theorem fresh_neighbour (before : List (Occurrence ν)) (stmt : Stmt ν) (place : Place) (index later : Nat)
    (scopes : List Place) (different : index ≠ later) (nested : Nested ((index :: place) :: scopes))
    (fresh : Fresh before (later :: place)) :
    Fresh (before ++ stmt.occurrences (index :: place) scopes) (later :: place) := by
  intro scope name declared inside
  rw [declared_append] at declared
  rcases declared with earlier | here
  · exact fresh scope name earlier inside
  · rcases Stmt.declared_where scope name stmt _ scopes here with around | within
    · have shorter := (List.pairwise_cons.mp nested).1 scope (List.mem_of_head? around)
      exact Nat.not_le.mpr shorter inside.length_le
    · have same := List.IsSuffix.eq_of_length (List.suffix_of_suffix_length_le within inside (Nat.le_refl _)) rfl
      exact different (List.cons.inj same).1

mutual
theorem Stmt.follows (inFunction : Bool) : (stmt : Stmt ν) → (place : Place) → (scopes : List Place) →
    (tables : List Scope) → (before : List (Occurrence ν)) → Nested (place :: scopes) → Fresh before place →
    Tracks before tables scopes →
    Follows before (stmt.occurrences place scopes) (stmt.mentions inFunction tables) ∧
      Tracks (before ++ stmt.occurrences place scopes) (stmt.after tables) scopes
  | .ret keyword value, _, scopes, tables, before, _, _, tracks =>
      ⟨.leaving _ _ _ keyword _ (follows_uses scopes tables _ before tracks),
        tracks_uses before tables scopes scopes _ tracks⟩
  | .print _ value, _, scopes, tables, before, _, _, tracks =>
      ⟨follows_uses scopes tables _ before tracks, tracks_uses before tables scopes scopes _ tracks⟩
  | .expr value, _, scopes, tables, before, _, _, tracks =>
      ⟨follows_uses scopes tables _ before tracks, tracks_uses before tables scopes scopes _ tracks⟩
  | .var name value, place, scopes, tables, before, nested, _, tracks => by
      have outer := (List.pairwise_cons.mp nested).2
      have declared := tracks_declare before name tables scopes tracks outer
      have bound := tracks_bind before name tables scopes tracks outer
      refine ⟨.declares before _ name scopes tables _ (follows_uses scopes _ _ _ declared), ?_⟩
      simpa [Stmt.occurrences, Stmt.after] using tracks_uses _ _ scopes scopes (Expr.usesOption value) bound
  | .block body, place, scopes, tables, before, nested, fresh, tracks => by
      have opened := tracks_open before tables place scopes tracks fresh
      refine ⟨Stmt.followsAll inFunction body place 0 _ _ before (nested_open place 0 scopes nested)
        (fun index _ => fresh_inside before place index fresh) opened, ?_⟩
      apply tracks_behind before _ tables place scopes tracks nested
      intro scope name declared
      exact inside_opened place scopes scope (Stmt.declaredAll_where scope name body place 0 _ declared)
  | .func name params body, place, scopes, tables, before, nested, fresh, tracks => by
      have outer := (List.pairwise_cons.mp nested).2
      have bound := tracks_bind before name tables scopes tracks outer
      have unopened := fresh_around before place scopes name fresh nested
      obtain ⟨ofParams, inner⟩ := follows_params (place :: scopes) nested params _ _
        (tracks_open _ _ place scopes bound unopened)
      have bodyFresh : ∀ index : Nat, 0 ≤ index →
          Fresh (before ++ [.declares name scopes] ++ params.map (.declares · (place :: scopes))) (index :: place) := by
        intro index _ scope other declared inside
        rw [declared_append] at declared
        rcases declared with earlier | ofParam
        · exact fresh_inside _ place index unopened scope other earlier inside
        · cases declared_params params place scopes scope other ofParam
          exact Nat.not_succ_le_self _ inside.length_le
      have ofBody := Stmt.followsAll true body place 0 _ _ _ (nested_open place 0 scopes nested) bodyFresh inner
      refine ⟨.declares before _ name scopes tables _ (follows_append _ _ _ _ _ ofParams ofBody), ?_⟩
      have behind := tracks_behind _ (params.map (.declares · (place :: scopes)) ++
        Stmt.occurrencesAll place 0 (place :: scopes) body) _ place scopes bound nested (fun scope other declared => by
          rcases (declared_append _ _ _ _).mp declared with ofParam | inBody
          · exact declared_params params place scopes scope other ofParam ▸ List.suffix_refl place
          · exact inside_opened place scopes scope (Stmt.declaredAll_where scope other body place 0 _ inBody))
      simpa [Stmt.occurrences, Stmt.after] using behind
  | .branch condition yes none, place, scopes, tables, before, nested, fresh, tracks => by
      have test := follows_uses scopes tables condition.uses before tracks
      have tested := tracks_uses before tables scopes scopes condition.uses tracks
      obtain ⟨ofYes, behind⟩ := Stmt.follows inFunction yes (0 :: place) scopes tables _
        (nested_inside place 0 scopes nested)
        (fresh_uses _ _ scopes condition.uses (fresh_inside before place 0 fresh)) tested
      refine ⟨follows_append _ _ _ _ _ test ofYes, ?_⟩
      simpa [Stmt.occurrences, Stmt.after] using behind
  | .branch condition yes (some no), place, scopes, tables, before, nested, fresh, tracks => by
      have test := follows_uses scopes tables condition.uses before tracks
      have tested := tracks_uses before tables scopes scopes condition.uses tracks
      have yesNested := nested_inside place 0 scopes nested
      obtain ⟨ofYes, between⟩ := Stmt.follows inFunction yes (0 :: place) scopes tables _ yesNested
        (fresh_uses _ _ scopes condition.uses (fresh_inside before place 0 fresh)) tested
      have noFresh := fresh_neighbour _ yes place 0 1 scopes Nat.zero_ne_one yesNested
        (fresh_uses _ _ scopes condition.uses (fresh_inside before place 1 fresh))
      obtain ⟨ofNo, behind⟩ := Stmt.follows inFunction no (1 :: place) scopes _ _ (nested_inside place 1 scopes nested)
        noFresh between
      have early := follows_append _ _ _ _ _ test ofYes
      rw [List.append_assoc] at ofNo
      refine ⟨follows_append _ _ _ _ _ early ofNo, ?_⟩
      simpa [Stmt.occurrences, Stmt.after] using behind
  | .loop condition body, place, scopes, tables, before, nested, fresh, tracks => by
      have test := follows_uses scopes tables condition.uses before tracks
      have tested := tracks_uses before tables scopes scopes condition.uses tracks
      obtain ⟨ofBody, behind⟩ := Stmt.follows inFunction body (0 :: place) scopes tables _
        (nested_inside place 0 scopes nested)
        (fresh_uses _ _ scopes condition.uses (fresh_inside before place 0 fresh)) tested
      refine ⟨follows_append _ _ _ _ _ test ofBody, ?_⟩
      simpa [Stmt.occurrences, Stmt.after] using behind
theorem Stmt.followsAll (inFunction : Bool) : (stmts : List (Stmt ν)) → (place : Place) → (index : Nat) →
    (scopes : List Place) → (tables : List Scope) → (before : List (Occurrence ν)) →
    Nested ((index :: place) :: scopes) → (∀ later : Nat, index ≤ later → Fresh before (later :: place)) →
    Tracks before tables scopes →
    Follows before (Stmt.occurrencesAll place index scopes stmts) (Stmt.mentionsAll inFunction tables stmts)
  | [], _, _, _, _, before, _, _, _ => .done before
  | first :: rest, place, index, scopes, tables, before, nested, fresh, tracks => by
      obtain ⟨ofFirst, between⟩ := Stmt.follows inFunction first (index :: place) scopes tables before nested
        (fresh index (Nat.le_refl index)) tracks
      have ofRest := Stmt.followsAll inFunction rest place (index + 1) scopes _ _
        (nested_neighbour place index (index + 1) scopes nested)
        (fun later further => fresh_neighbour before first place index later scopes (Nat.ne_of_lt further) nested
          (fresh later (Nat.le_of_succ_le further))) between
      exact follows_append _ _ _ _ _ ofFirst ofRest
end

theorem program_follows (program : List (Stmt ν)) :
    Follows [] (occurrencesOf program) (Stmt.mentionsAll false [] program) :=
  Stmt.followsAll false program [] 0 [] [] [] (List.pairwise_singleton _ _)
    (fun _ _ scope name declared => absurd declared (not_declared_nil scope name)) .nil

-- Whatever is misused, the uses of a program have the distances that its text gives, and other numbers are left alone.
theorem recorded_distances_are_lexical (machine : Machine) (program : List (Stmt NodeId))
    (distinct : (labelsOf program).Nodup) (unknown : ∀ label ∈ labelsOf program, machine.distances[label]? = none) :
    (∀ before use scopes later, occurrencesOf program = before ++ .uses use scopes :: later →
      (((machine.analyse program).2.distances[use.label]?).isSome = true ↔
        ∃ scope ∈ scopes, Declared before scope use.name.lexeme) ∧
      ∀ distance, (machine.analyse program).2.distances[use.label]? = some distance ↔
        Nearest before scopes use.name.lexeme distance) ∧
    ∀ label, label ∉ labelsOf program → (machine.analyse program).2.distances[label]? = machine.distances[label]? := by
  have follows := program_follows program
  have labels : (Stmt.mentionsAll false [] program).flatMap Mention.labels = labelsOf program :=
    follows_labels [] _ _ follows
  have recorded : (machine.analyse program).2.distances =
      (Stmt.mentionsAll false [] program).foldl Distances.note machine.distances := by
    have found := congrArg Prod.snd (Stmt.findingsAll_mentions false program [])
    change ((Stmt.findingsAll false [] program).2).foldl Distances.record machine.distances = _
    rw [found, foldl_findings]
  rw [← labels] at distinct unknown ⊢
  rw [recorded]
  constructor
  · intro before use scopes later split
    obtain ⟨tables, inside, tracks⟩ := follows_use [] _ _ follows before use scopes later split
    have among : use.label ∈ (Stmt.mentionsAll false [] program).flatMap Mention.labels :=
      List.mem_flatMap.mpr ⟨_, inside, List.mem_singleton.mpr rfl⟩
    have noted := notes_use _ use.label use.name use.writes tables machine.distances distinct (unknown _ among) inside
    rw [noted]
    exact ⟨tracks_found before tables scopes _ tracks, tracks_distance before tables scopes _ tracks⟩
  · intro label outside
    exact notes_elsewhere _ label machine.distances outside

-- In a block, a function of `b` with an inner block that prints `a` and then gives its own `b` the value of that `b`.

def spelled (name : String) : Token := ⟨.identifier, name, none, 1⟩

def shadowing : List (Stmt NodeId) :=
  [.block [.var (spelled "a") none,
    .func (spelled "f") [spelled "b"]
      [.block [.print ⟨.kwPrint, "print", none, 1⟩ (.var 0 (spelled "a")),
        .var (spelled "b") (some (.var 1 (spelled "b")))]]]]

def shadowingScopes : List Place := [[0, 1, 0], [1, 0], [0]]

-- The analysis complains about the second use, and both have their distances.
theorem shadowing_distances :
    (labelsOf shadowing).Nodup ∧
    (∀ label ∈ labelsOf shadowing, (Machine.start 1 (Sink.empty none) (Clock.ticking 0)).distances[label]? = none) ∧
    ((Machine.start 1 (Sink.empty none) (Clock.ticking 0)).analyse shadowing).1.isEmpty = false ∧
    ((Machine.start 1 (Sink.empty none) (Clock.ticking 0)).analyse shadowing).2.distances[0]? = some 2 ∧
    ((Machine.start 1 (Sink.empty none) (Clock.ticking 0)).analyse shadowing).2.distances[1]? = some 0 := by
  have distinct : (labelsOf shadowing).Nodup := by decide
  have unknown (label : NodeId) (_ : label ∈ labelsOf shadowing) :
      (Machine.start 1 (Sink.empty none) (Clock.ticking 0)).distances[label]? = none := Std.HashMap.getElem?_empty
  obtain ⟨uses, -⟩ := recorded_distances_are_lexical _ shadowing distinct unknown
  refine ⟨distinct, unknown, by decide +kernel, ?_, ?_⟩
  · exact ((uses ((occurrencesOf shadowing).take 3) ⟨0, spelled "a", false⟩ shadowingScopes _ rfl).2 2).mpr
      ⟨[[0, 1, 0], [1, 0]], [0], [], rfl, rfl, by decide, by decide⟩
  · exact ((uses ((occurrencesOf shadowing).take 5) ⟨1, spelled "b", false⟩ shadowingScopes _ rfl).2 0).mpr
      ⟨[], [0, 1, 0], [[1, 0], [0]], rfl, rfl, by decide, by decide⟩

end Treewalk
