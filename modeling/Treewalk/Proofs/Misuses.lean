import Treewalk.Proofs.LexicalDistances
import Treewalk.Proofs.OwnWrites

/-!
The misuses that the analysis lists, told from the program alone. A program may be blamed for its returns and for its
declarations, which come in the order of its text: a return for standing outside of all functions, a local declaration
for a name that its scope has declared before, and otherwise for every read of the name in its own initializer. The
analysis lists exactly these, in this order.
-/

set_option autoImplicit false

namespace Treewalk

open Scope

variable {ν : Type}

-- A return with the functions around it, or a declaration made directly in the innermost of some scopes, with the uses
-- of names in its initializer. Functions and scopes come innermost first, each by its place.
inductive Site (ν : Type) where
  | returns (keyword : Token) (functions : List Place)
  | declares (name : Token) (scopes : List Place) (initial : List (Use ν))

mutual
def Stmt.sites (place : Place) (functions scopes : List Place) : Stmt ν → List (Site ν)
  | .ret keyword _ => [.returns keyword functions]
  | .print _ _ => []
  | .expr _ => []
  | .var name value => [.declares name scopes (Expr.usesOption value)]
  | .block body => Stmt.sitesAll place 0 functions (place :: scopes) body
  | .func name params body =>
      .declares name scopes [] :: (params.map (.declares · (place :: scopes) []) ++
        Stmt.sitesAll place 0 (place :: functions) (place :: scopes) body)
  | .branch _ yes none => yes.sites (0 :: place) functions scopes
  | .branch _ yes (some no) => yes.sites (0 :: place) functions scopes ++ no.sites (1 :: place) functions scopes
  | .loop _ body => body.sites (0 :: place) functions scopes
-- Statements at a place, from an index on.
def Stmt.sitesAll (place : Place) (index : Nat) (functions scopes : List Place) : List (Stmt ν) → List (Site ν)
  | [] => []
  | first :: rest =>
      first.sites (index :: place) functions scopes ++ Stmt.sitesAll place (index + 1) functions scopes rest
end

def sitesOf (program : List (Stmt ν)) : List (Site ν) := Stmt.sitesAll [] 0 [] [] program

def Site.occurrences : Site ν → List (Occurrence ν)
  | .returns _ _ => []
  | .declares name scopes _ => [.declares name scopes]

def declarations (sites : List (Site ν)) : List (Occurrence ν) := sites.flatMap Site.occurrences

-- What a site is blamed for behind those before it.
inductive Site.Offends (before : List (Site ν)) : Site ν → ScopeError → Prop where
  | returns (keyword : Token) : Offends before (.returns keyword []) ⟨keyword, .topLevelReturn⟩
  | repeats (name : Token) (scope : Place) (outer : List Place) (initial : List (Use ν))
      (declared : Declared (declarations before) scope name.lexeme) :
      Offends before (.declares name (scope :: outer) initial) ⟨name, .alreadyDeclared⟩
  | reads (name : Token) (scope : Place) (outer : List Place) (initial : List (Use ν)) (use : Use ν)
      (undeclared : ¬ Declared (declarations before) scope name.lexeme) (inside : use ∈ initial)
      (reading : use.writes = false) (same : use.name.lexeme = name.lexeme) :
      Offends before (.declares name (scope :: outer) initial) ⟨use.name, .ownInitializer⟩

def ownReads (name : Token) (uses : List (Use ν)) : List (Use ν) :=
  uses.filter fun use => !use.writes && use.name.lexeme == name.lexeme

-- The same as a list, with one error for each own read, in the order of the text.
def Site.offences (before : List (Site ν)) : Site ν → List ScopeError
  | .returns keyword functions => if functions.isEmpty then [⟨keyword, .topLevelReturn⟩] else []
  | .declares _ [] _ => []
  | .declares name (scope :: _) initial =>
      if Declared (declarations before) scope name.lexeme then [⟨name, .alreadyDeclared⟩]
      else (ownReads name initial).map fun use => ⟨use.name, .ownInitializer⟩

def offencesFrom (before : List (Site ν)) : List (Site ν) → List ScopeError
  | [] => []
  | site :: later => site.offences before ++ offencesFrom (before ++ [site]) later

theorem offences_iff (before : List (Site ν)) (site : Site ν) (error : ScopeError) :
    error ∈ site.offences before ↔ site.Offends before error := by
  constructor
  · intro inside
    cases site with
    | returns keyword functions =>
        cases functions with
        | nil => exact List.mem_singleton.mp inside ▸ .returns keyword
        | cons => cases inside
    | declares name scopes initial =>
        cases scopes with
        | nil => cases inside
        | cons scope outer =>
            simp only [Site.offences] at inside
            split at inside
            next declared => exact List.mem_singleton.mp inside ▸ .repeats name scope outer initial declared
            next undeclared =>
              obtain ⟨use, among, rfl⟩ := List.mem_map.mp inside
              simp only [ownReads, List.mem_filter, Bool.and_eq_true, Bool.not_eq_true', beq_iff_eq] at among
              obtain ⟨there, reading, same⟩ := among
              exact .reads name scope outer initial use undeclared there reading same
  · intro offends
    cases offends with
    | returns keyword => exact List.mem_singleton_self _
    | repeats name scope outer initial declared => simp [Site.offences, declared]
    | reads name scope outer initial use undeclared inside reading same =>
        simp only [Site.offences, undeclared, if_false]
        exact List.mem_map.mpr ⟨use, by simp [ownReads, inside, reading, same], rfl⟩

theorem offencesFrom_append (first : List (Site ν)) : ∀ before second : List (Site ν),
    offencesFrom before (first ++ second) = offencesFrom before first ++ offencesFrom (before ++ first) second := by
  induction first with
  | nil => simp [offencesFrom]
  | cons site later ih => simp [offencesFrom, ih]

theorem offencesFrom_mem (error : ScopeError) (sites : List (Site ν)) : ∀ before,
    error ∈ offencesFrom before sites ↔
      ∃ earlier site later, sites = earlier ++ site :: later ∧ error ∈ site.offences (before ++ earlier) := by
  induction sites with
  | nil => simp [offencesFrom]
  | cons first rest ih =>
      intro before
      rw [offencesFrom, List.mem_append, ih]
      constructor
      · rintro (here | ⟨earlier, site, later, rfl, inside⟩)
        · exact ⟨[], first, rest, rfl, by simpa using here⟩
        · exact ⟨first :: earlier, site, later, rfl, by simpa using inside⟩
      · rintro ⟨earlier, site, later, split, inside⟩
        cases earlier with
        | nil =>
            cases split
            exact .inl (by simpa using inside)
        | cons head earlier =>
            cases split
            exact .inr ⟨earlier, site, later, rfl, by simpa using inside⟩

-- The sites declare what the occurrences declare.

theorem declarations_append (first second : List (Site ν)) :
    declarations (first ++ second) = declarations first ++ declarations second := List.flatMap_append

theorem declarations_cons (name : Token) (scopes : List Place) (initial : List (Use ν)) (rest : List (Site ν)) :
    declarations (.declares name scopes initial :: rest) = .declares name scopes :: declarations rest := rfl

theorem declarations_snoc (before : List (Site ν)) (name : Token) (scopes : List Place) (initial : List (Use ν)) :
    declarations (before ++ [.declares name scopes initial]) = declarations before ++ [.declares name scopes] :=
  declarations_append before _

theorem declarations_params (scopes : List Place) (params : List Token) :
    declarations (params.map (.declares · scopes []) : List (Site ν)) = params.map (.declares · scopes) := by
  induction params with
  | nil => rfl
  | cons first rest ih => exact congrArg (_ :: ·) ih

mutual
theorem Stmt.sites_declare (scope : Place) (name : String) (functions : List Place) : (stmt : Stmt ν) → (place : Place) →
    (scopes : List Place) →
    (Declared (declarations (stmt.sites place functions scopes)) scope name ↔
      Declared (stmt.occurrences place scopes) scope name)
  | .ret _ _, _, _ => by simp [Stmt.sites, Stmt.occurrences, declarations, Site.occurrences, not_declared_uses, not_declared_nil]
  | .print _ _, _, _ => by simp [Stmt.sites, Stmt.occurrences, declarations, not_declared_uses, not_declared_nil]
  | .expr _, _, _ => by simp [Stmt.sites, Stmt.occurrences, declarations, not_declared_uses, not_declared_nil]
  | .var _ _, _, _ => by
      simp [Stmt.sites, Stmt.occurrences, declarations, Site.occurrences, declared_cons, not_declared_uses, not_declared_nil]
  | .block body, place, scopes => Stmt.sitesAll_declare scope name functions body place 0 (place :: scopes)
  | .func token params body, place, scopes => by
      have ofBody := Stmt.sitesAll_declare scope name (place :: functions) body place 0 (place :: scopes)
      rw [Stmt.sites, Stmt.occurrences, declarations_cons, declarations_append, declarations_params, declared_cons,
        declared_cons, declared_append, declared_append, ofBody]
  | .branch condition yes none, place, scopes => by
      rw [Stmt.sites, Stmt.occurrences, declared_append, Stmt.sites_declare scope name functions yes]
      simp only [not_declared_uses, false_or]
  | .branch condition yes (some no), place, scopes => by
      rw [Stmt.sites, Stmt.occurrences, declarations_append, declared_append, declared_append, declared_append,
        Stmt.sites_declare scope name functions yes, Stmt.sites_declare scope name functions no]
      simp only [not_declared_uses, false_or]
  | .loop condition body, place, scopes => by
      rw [Stmt.sites, Stmt.occurrences, declared_append, Stmt.sites_declare scope name functions body]
      simp only [not_declared_uses, false_or]
theorem Stmt.sitesAll_declare (scope : Place) (name : String) (functions : List Place) : (stmts : List (Stmt ν)) →
    (place : Place) → (index : Nat) → (scopes : List Place) →
    (Declared (declarations (Stmt.sitesAll place index functions scopes stmts)) scope name ↔
      Declared (Stmt.occurrencesAll place index scopes stmts) scope name)
  | [], _, _, _ => Iff.rfl
  | first :: rest, place, index, scopes => by
      rw [Stmt.sitesAll, Stmt.occurrencesAll, declarations_append, declared_append, declared_append,
        Stmt.sites_declare scope name functions first, Stmt.sitesAll_declare scope name functions rest]
end

-- What the analysis lists for some mentions.
def errorsOf (mentions : List (Mention ν)) : List ScopeError :=
  mentions.flatMap fun mention => mention.findings.filterMap Finding.error?

theorem errorsOf_append (first second : List (Mention ν)) :
    errorsOf (first ++ second) = errorsOf first ++ errorsOf second := List.flatMap_append

theorem errorsOf_cons (first : Mention ν) (rest : List (Mention ν)) :
    errorsOf (first :: rest) = first.findings.filterMap Finding.error? ++ errorsOf rest := List.flatMap_cons

-- A use is blamed if it reads a name whose value is being computed.

theorem found_unblamed (tables : List Scope) (label : ν) (name : Token) :
    (found tables label name).filterMap Finding.error? = [] := by
  unfold found
  cases distance? tables name.lexeme <;> rfl

theorem use_unblamed (use : Use ν) (tables : List Scope)
    (fine : use.writes = true ∨ ¬ Scope.pending tables use.name.lexeme) :
    (Mention.use use tables).findings.filterMap Finding.error? = [] := by
  rw [Mention.findings, List.filterMap_append, found_unblamed, List.append_nil]
  cases writes : use.writes with
  | true => rfl
  | false =>
      have late := fine.resolve_left (by simp [writes])
      unfold Scope.pending at late
      simp [premature, late]

theorem use_blamed (use : Use ν) (tables : List Scope) (reading : use.writes = false)
    (early : Scope.pending tables use.name.lexeme) :
    (Mention.use use tables).findings.filterMap Finding.error? = [⟨use.name, .ownInitializer⟩] := by
  unfold Scope.pending at early
  rw [Mention.findings, List.filterMap_append, found_unblamed, List.append_nil, reading]
  simp [premature, early, Finding.error?]

theorem uses_unblamed (tables : List Scope) (ready : Scope.Ready tables) (uses : List (Use ν)) :
    errorsOf (uses.map (.use · tables)) = [] := by
  induction uses with
  | nil => rfl
  | cons first rest ih =>
      rw [List.map_cons, errorsOf_cons, ih, use_unblamed first tables (.inr (ready _))]
      rfl

theorem uses_initial (name : Token) (table : Scope) (outer : List Scope) (ready : Scope.Ready (table :: outer))
    (undeclared : table.declares name.lexeme = false) (uses : List (Use ν)) :
    errorsOf (uses.map (.use · (declare name (table :: outer)))) =
      (ownReads name uses).map fun use => ⟨use.name, .ownInitializer⟩ := by
  induction uses with
  | nil => rfl
  | cons first rest ih =>
      rw [List.map_cons, errorsOf_cons, ih]
      simp only [ownReads, List.filter_cons]
      by_cases own : first.writes = false ∧ first.name.lexeme = name.lexeme
      · obtain ⟨reading, same⟩ := own
        have early := declare_pending name table outer undeclared
        rw [← same] at early
        rw [use_blamed first _ reading early]
        simp [reading, same]
      · have fine : first.writes = true ∨ ¬ Scope.pending (declare name (table :: outer)) first.name.lexeme := by
          rcases Bool.eq_false_or_eq_true first.writes with writing | reading
          · exact .inl writing
          · refine .inr fun early => own ⟨reading, ?_⟩
            exact (pending_declare name _ _ ready early).1
        rw [use_unblamed first _ fine, if_neg (by simpa using own)]
        rfl

-- A declaration with its initializer. The names of its scope are those of the innermost table.
theorem declaration_blamed (before : List (Site ν)) (name : Token) (initial : List (Use ν)) (tables : List Scope)
    (scopes : List Place) (tracks : Tracks (declarations before) tables scopes) (ready : Scope.Ready tables) :
    errorsOf (.binding name tables :: initial.map (.use · (declare name tables))) =
      (Site.declares name scopes initial).offences before := by
  rw [errorsOf_cons]
  cases tracks with
  | nil => exact uses_unblamed [] ready initial
  | @cons table scope tables outer same others =>
      simp only [Mention.findings, repeated, Site.offences]
      by_cases declared : table.declares name.lexeme = true
      · have unchanged : declare name (table :: tables) = table :: tables := if_pos declared
        rw [if_pos declared, if_pos ((same _).mp declared), unchanged, uses_unblamed _ ready]
        rfl
      · have undeclared : ¬ Declared (declarations before) scope name.lexeme := fun here => declared ((same _).mpr here)
        rw [if_neg declared, if_neg undeclared, uses_initial name table tables ready (Bool.eq_false_iff.mpr declared)]
        rfl

theorem params_blamed (scopes : List Place) (nested : Nested scopes) (params : List Token) :
    ∀ (before : List (Site ν)) (tables : List Scope), Tracks (declarations before) tables scopes → Scope.Ready tables →
      errorsOf (bindingMentions tables params : List (Mention ν)) =
        offencesFrom before (params.map (.declares · scopes [])) := by
  induction params with
  | nil => exact fun _ _ _ _ => rfl
  | cons first rest ih =>
      intro before tables tracks ready
      have here := declaration_blamed before first [] tables scopes tracks ready
      have behind := tracks_bind (declarations before) first tables scopes tracks nested
      rw [List.map_nil] at here
      rw [bindingMentions, List.map_cons, offencesFrom, ← here, errorsOf_cons, errorsOf_cons]
      rw [← declarations_snoc before first scopes []] at behind
      rw [ih _ _ behind (ready_bind first tables ready), errorsOf, List.flatMap_nil, List.append_nil]

theorem tracks_declarations (before : List (Site ν)) (stmt : Stmt ν) (place : Place) (functions scopes : List Place)
    (tables : List Scope) (around : List Place)
    (tracks : Tracks (declarations before ++ stmt.occurrences place scopes) tables around) :
    Tracks (declarations (before ++ stmt.sites place functions scopes)) tables around := by
  apply tracks_congr _ _ tables around tracks
  intro scope _ name
  rw [declarations_append, declared_append, declared_append, Stmt.sites_declare]

theorem fresh_declarations (before : List (Site ν)) (stmt : Stmt ν) (place : Place) (functions scopes : List Place)
    (later : Place) (fresh : Fresh (declarations before ++ stmt.occurrences place scopes) later) :
    Fresh (declarations (before ++ stmt.sites place functions scopes)) later := by
  intro scope name declared
  rw [declarations_append, declared_append, Stmt.sites_declare, ← declared_append] at declared
  exact fresh scope name declared

-- Induction over the statements, with tables that track the scopes and in which no name waits for its value.
mutual
theorem Stmt.errors_sites : (stmt : Stmt ν) → (place : Place) → (functions scopes : List Place) → (tables : List Scope) →
    (before : List (Site ν)) → Nested (place :: scopes) → Fresh (declarations before) place →
    Tracks (declarations before) tables scopes → Scope.Ready tables →
    errorsOf (stmt.mentions (!functions.isEmpty) tables) = offencesFrom before (stmt.sites place functions scopes)
  | .ret keyword value, _, functions, scopes, tables, before, _, _, _, ready => by
      rw [Stmt.mentions, errorsOf_cons, uses_unblamed tables ready, Stmt.sites, offencesFrom, offencesFrom]
      cases functions <;> rfl
  | .print _ value, _, _, _, tables, _, _, _, _, ready => uses_unblamed tables ready value.uses
  | .expr value, _, _, _, tables, _, _, _, _, ready => uses_unblamed tables ready value.uses
  | .var name value, _, _, scopes, tables, before, _, _, tracks, ready => by
      rw [Stmt.mentions, declaration_blamed before name _ tables scopes tracks ready, Stmt.sites, offencesFrom,
        offencesFrom, List.append_nil]
  | .block body, place, functions, scopes, tables, before, nested, fresh, tracks, _ =>
      Stmt.errorsAll_sites body place 0 functions (place :: scopes) ([] :: tables) before (nested_open place 0 scopes nested)
        (fun index _ => fresh_inside _ place index fresh) (tracks_open _ tables place scopes tracks fresh)
        (ready_open tables)
  | .func name params body, place, functions, scopes, tables, before, nested, fresh, tracks, ready => by
      have outer := (List.pairwise_cons.mp nested).2
      have own := declaration_blamed before name [] tables scopes tracks ready
      have bound := tracks_bind _ name tables scopes tracks outer
      have unopened := fresh_around _ place scopes name fresh nested
      have opened := tracks_open _ _ place scopes bound unopened
      have inner := (follows_params (place :: scopes) nested params _ _ opened).2
      rw [← declarations_snoc before name scopes []] at opened unopened inner
      have ofParams := params_blamed (place :: scopes) nested params _ _ opened (ready_open _)
      rw [← declarations_params, ← declarations_append] at inner
      have bodyFresh : ∀ index : Nat, 0 ≤ index →
          Fresh (declarations (before ++ [.declares name scopes []] ++ params.map (.declares · (place :: scopes) [])))
            (index :: place) := by
        intro index _ scope other declared inside
        rw [declarations_append, declarations_params, declared_append] at declared
        rcases declared with earlier | ofParam
        · exact fresh_inside _ place index unopened scope other earlier inside
        · cases declared_params params place scopes scope other ofParam
          exact Nat.not_succ_le_self _ inside.length_le
      have ofBody := Stmt.errorsAll_sites body place 0 (place :: functions) (place :: scopes) _ _
        (nested_open place 0 scopes nested) bodyFresh inner (ready_bindAll params _ (ready_open _))
      rw [Stmt.mentions, Stmt.sites, offencesFrom, offencesFrom_append, ← own, ← ofParams, ← ofBody]
      simp [errorsOf]
  | .branch condition yes none, place, functions, scopes, tables, before, nested, fresh, tracks, ready => by
      rw [Stmt.mentions, errorsOf_append, uses_unblamed tables ready, Stmt.sites]
      exact Stmt.errors_sites yes (0 :: place) functions scopes tables before (nested_inside place 0 scopes nested)
        (fresh_inside _ place 0 fresh) tracks ready
  | .branch condition yes (some no), place, functions, scopes, tables, before, nested, fresh, tracks, ready => by
      have yesNested := nested_inside place 0 scopes nested
      have yesFresh := fresh_inside _ place 0 fresh
      have ofYes := Stmt.errors_sites yes (0 :: place) functions scopes tables before yesNested yesFresh tracks ready
      have between := (Stmt.follows false yes (0 :: place) scopes tables _ yesNested yesFresh tracks).2
      have noFresh := fresh_neighbour _ yes place 0 1 scopes Nat.zero_ne_one yesNested (fresh_inside _ place 1 fresh)
      have ofNo := Stmt.errors_sites no (1 :: place) functions scopes _ _ (nested_inside place 1 scopes nested)
        (fresh_declarations before yes _ functions scopes _ noFresh)
        (tracks_declarations before yes _ functions scopes _ _ between) (ready_after yes tables ready)
      rw [Stmt.mentions, errorsOf_append, errorsOf_append, uses_unblamed tables ready, ofYes, ofNo, Stmt.sites,
        offencesFrom_append]
      rfl
  | .loop condition body, place, functions, scopes, tables, before, nested, fresh, tracks, ready => by
      rw [Stmt.mentions, errorsOf_append, uses_unblamed tables ready, Stmt.sites]
      exact Stmt.errors_sites body (0 :: place) functions scopes tables before (nested_inside place 0 scopes nested)
        (fresh_inside _ place 0 fresh) tracks ready
theorem Stmt.errorsAll_sites : (stmts : List (Stmt ν)) → (place : Place) → (index : Nat) → (functions scopes : List Place) →
    (tables : List Scope) → (before : List (Site ν)) → Nested ((index :: place) :: scopes) →
    (∀ later : Nat, index ≤ later → Fresh (declarations before) (later :: place)) →
    Tracks (declarations before) tables scopes → Scope.Ready tables →
    errorsOf (Stmt.mentionsAll (!functions.isEmpty) tables stmts) =
      offencesFrom before (Stmt.sitesAll place index functions scopes stmts)
  | [], _, _, _, _, _, _, _, _, _, _ => rfl
  | first :: rest, place, index, functions, scopes, tables, before, nested, fresh, tracks, ready => by
      have here := fresh index (Nat.le_refl index)
      have ofFirst := Stmt.errors_sites first (index :: place) functions scopes tables before nested here tracks ready
      have between := (Stmt.follows false first (index :: place) scopes tables _ nested here tracks).2
      have ofRest := Stmt.errorsAll_sites rest place (index + 1) functions scopes _ _
        (nested_neighbour place index (index + 1) scopes nested)
        (fun later further => fresh_declarations before first _ functions scopes _
          (fresh_neighbour _ first place index later scopes (Nat.ne_of_lt further) nested
            (fresh later (Nat.le_of_succ_le further))))
        (tracks_declarations before first _ functions scopes _ _ between) (ready_after first tables ready)
      rw [Stmt.mentionsAll, errorsOf_append, ofFirst, ofRest, Stmt.sitesAll, offencesFrom_append]
end

-- The analysis lists the offences of a program, whatever it knew before, and nothing else. It lists none if no site of
-- the program offends.
theorem misuses_are_offences (machine : Machine) (program : List (Stmt NodeId)) :
    (machine.analyse program).1 = offencesFrom [] (sitesOf program) ∧
    ((machine.analyse program).1 = [] ↔ ¬ ∃ before site later error,
      sitesOf program = before ++ site :: later ∧ site.Offends before error) := by
  have listed : (machine.analyse program).1 = offencesFrom [] (sitesOf program) := by
    change misuses program = _
    rw [misuses_mentions]
    exact Stmt.errorsAll_sites program [] 0 [] [] [] [] (List.pairwise_singleton _ _)
      (fun _ _ scope name declared => absurd declared (not_declared_nil scope name)) .nil ready_nil
  refine ⟨listed, ?_⟩
  rw [listed, List.eq_nil_iff_forall_not_mem, ← not_exists, not_congr]
  simp only [offencesFrom_mem, List.nil_append, offences_iff]
  constructor
  · rintro ⟨error, before, site, later, split, offends⟩
    exact ⟨before, site, later, error, split, offends⟩
  · rintro ⟨before, site, later, error, split, offends⟩
    exact ⟨error, before, site, later, split, offends⟩

-- `return; { var a = a; var a = a; fun f(b, b) { return; } }`

example (keyword close : Token) :
    misuses [.ret keyword none, .block [.var (spelled "a") (some (.var 0 (spelled "a"))),
      .var (spelled "a") (some (.var 1 (spelled "a"))),
      .func (spelled "f") [spelled "b", spelled "b"] [.ret close none]]] =
    [⟨keyword, .topLevelReturn⟩, ⟨spelled "a", .ownInitializer⟩, ⟨spelled "a", .alreadyDeclared⟩,
      ⟨spelled "b", .alreadyDeclared⟩] := by
  rfl

end Treewalk
