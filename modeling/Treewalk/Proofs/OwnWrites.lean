import Treewalk.Proofs.Placement
import Treewalk.Proofs.Settling

/-!
Assignments to a local variable inside its own initializer, told by the scopes of the analysis: they are the uses
that write to a name whose value is being computed. In a program that was numbered and analysed without a misuse,
each number says which it is.
-/

set_option autoImplicit false

namespace Treewalk

open Scope

variable {ν : Type}

-- Between statements no name waits for its value.
def Scope.Ready (scopes : List Scope) : Prop := ∀ name, ¬ Scope.pending scopes name

theorem ready_nil : Scope.Ready [] := fun _ early => nomatch early

theorem ready_open (scopes : List Scope) : Scope.Ready ([] :: scopes) := fun _ early => nomatch early

theorem ready_bind (name : Token) (scopes : List Scope) (ready : Scope.Ready scopes) :
    Scope.Ready (Scope.bind name scopes) := by
  cases scopes with
  | nil => exact ready
  | cons inner outer =>
      intro other early
      refine absurd ?_ (ready other)
      simp only [Scope.pending, Scope.bind, declare] at early ⊢
      by_cases same : other = name.lexeme
      · split at early <;> simp [define, same] at early
      · have apart : (other == name.lexeme) = false := beq_false_of_ne same
        split at early <;> simpa [define, List.lookup_cons, apart] using early

theorem ready_bindAll (params : List Token) : ∀ scopes : List Scope, Scope.Ready scopes →
    Scope.Ready (Scope.bindAll scopes params) := by
  induction params with
  | nil => exact fun _ ready => ready
  | cons first rest ih => exact fun scopes ready => ih _ (ready_bind first scopes ready)

theorem ready_after : (stmt : Stmt ν) → (scopes : List Scope) → Scope.Ready scopes → Scope.Ready (stmt.after scopes)
  | .ret _ _, _, ready => ready
  | .print _ _, _, ready => ready
  | .expr _, _, ready => ready
  | .var name _, scopes, ready => ready_bind name scopes ready
  | .block _, _, ready => ready
  | .func name _ _, scopes, ready => ready_bind name scopes ready
  | .branch _ yes none, scopes, ready => ready_after yes scopes ready
  | .branch _ yes (some no), scopes, ready => ready_after no _ (ready_after yes scopes ready)
  | .loop _ body, scopes, ready => ready_after body scopes ready

-- The only name that waits for its value in an initializer is the variable's own.
theorem pending_declare (name : Token) (scopes : List Scope) (other : String) (ready : Scope.Ready scopes)
    (early : Scope.pending (declare name scopes) other) : other = name.lexeme ∧ scopes ≠ [] := by
  cases scopes with
  | nil => exact absurd early (ready other)
  | cons inner outer =>
      by_cases declared : inner.declares name.lexeme = true
      · simp only [declare, declared, if_true] at early
        exact absurd early (ready other)
      · by_cases same : other = name.lexeme
        · exact ⟨same, List.cons_ne_nil _ _⟩
        · have apart : (other == name.lexeme) = false := beq_false_of_ne same
          refine absurd ?_ (ready other)
          simpa [Scope.pending, declare, declared, List.lookup_cons, apart] using early

theorem declare_pending (name : Token) (inner : Scope) (outer : List Scope)
    (undeclared : inner.declares name.lexeme = false) :
    Scope.pending (declare name (inner :: outer)) name.lexeme := by
  simp [Scope.pending, declare, undeclared]

-- No scope declares a name twice.
def Mention.Single : Mention ν → Prop
  | .binding name scopes => ∀ inner ∈ scopes.head?, inner.declares name.lexeme = false
  | _ => True

-- Among some mentions, a use that writes to a name whose value is being computed.
def OwnWriteIn (use : Use ν) (mentions : List (Mention ν)) : Prop :=
  ∃ scopes, .use use scopes ∈ mentions ∧ use.writes = true ∧ Scope.pending scopes use.name.lexeme

theorem ownWriteIn_append (use : Use ν) (left right : List (Mention ν)) :
    OwnWriteIn use (left ++ right) ↔ OwnWriteIn use left ∨ OwnWriteIn use right := by
  simp only [OwnWriteIn, List.mem_append, or_and_right, exists_or]

theorem ownWriteIn_binding (use : Use ν) (name : Token) (scopes : List Scope) (rest : List (Mention ν)) :
    OwnWriteIn use (.binding name scopes :: rest) ↔ OwnWriteIn use rest := by
  simp [OwnWriteIn]

theorem ownWriteIn_leaving (use : Use ν) (inFunction : Bool) (keyword : Token) (rest : List (Mention ν)) :
    OwnWriteIn use (.leaving inFunction keyword :: rest) ↔ OwnWriteIn use rest := by
  simp [OwnWriteIn]

theorem ownWriteIn_uses (use : Use ν) (uses : List (Use ν)) (scopes : List Scope) (ready : Scope.Ready scopes) :
    ¬ OwnWriteIn use (uses.map (Mention.use · scopes)) := by
  rintro ⟨found, inside, -, early⟩
  obtain ⟨other, -, same⟩ := List.mem_map.mp inside
  cases same
  exact ready _ early

theorem ownWriteIn_bindings (use : Use ν) (params : List Token) : ∀ scopes : List Scope,
    ¬ OwnWriteIn use (bindingMentions scopes params) := by
  induction params with
  | nil =>
      rintro scopes ⟨found, inside, -⟩
      cases inside
  | cons first rest ih =>
      intro scopes
      rw [bindingMentions, ownWriteIn_binding]
      exact ih _

theorem ownWriteIn_initializer (use : Use ν) (name : Token) (uses : List (Use ν)) (scopes : List Scope)
    (ready : Scope.Ready scopes) (single : (Mention.binding (ν := ν) name scopes).Single) :
    use ∈ (if (!scopes.isEmpty) = true then uses.filter (fun use => use.writes && use.name.lexeme == name.lexeme)
      else []) ↔ OwnWriteIn use (uses.map (Mention.use · (declare name scopes))) := by
  cases scopes with
  | nil =>
      have none := ownWriteIn_uses use uses [] ready
      simpa [declare] using none
  | cons inner outer =>
      have undeclared : inner.declares name.lexeme = false := single inner rfl
      simp only [List.isEmpty_cons, Bool.not_false, if_true, List.mem_filter, Bool.and_eq_true, beq_iff_eq]
      constructor
      · rintro ⟨inside, writes, same⟩
        refine ⟨_, List.mem_map.mpr ⟨use, inside, rfl⟩, writes, ?_⟩
        rw [same]
        exact declare_pending name inner outer undeclared
      · rintro ⟨found, inside, writes, early⟩
        obtain ⟨other, among, same⟩ := List.mem_map.mp inside
        cases same
        exact ⟨among, writes, (pending_declare name _ _ ready early).1⟩

-- Induction over the statements, with scopes that are ready and a flag that says whether there are any.
mutual
theorem Stmt.ownWrites_iff (use : Use ν) (inFunction : Bool) : (stmt : Stmt ν) → (scopes : List Scope) →
    Scope.Ready scopes → (∀ mention ∈ stmt.mentions inFunction scopes, mention.Single) →
    (use ∈ stmt.ownWrites (!scopes.isEmpty) ↔ OwnWriteIn use (stmt.mentions inFunction scopes))
  | .ret keyword value, scopes, ready, _ => by
      rw [Stmt.mentions, ownWriteIn_leaving]
      simpa [Stmt.ownWrites] using ownWriteIn_uses use _ scopes ready
  | .print _ value, scopes, ready, _ => by
      simpa [Stmt.ownWrites, Stmt.mentions] using ownWriteIn_uses use _ scopes ready
  | .expr value, scopes, ready, _ => by
      simpa [Stmt.ownWrites, Stmt.mentions] using ownWriteIn_uses use _ scopes ready
  | .var name value, scopes, ready, single => by
      rw [Stmt.mentions, ownWriteIn_binding, Stmt.ownWrites]
      exact ownWriteIn_initializer use name _ scopes ready (single _ List.mem_cons_self)
  | .block body, scopes, ready, single => by
      exact Stmt.ownWritesAll_iff use inFunction body ([] :: scopes) (ready_open scopes) single
  | .func name params body, scopes, ready, single => by
      simp only [Stmt.mentions, Stmt.ownWrites, List.cons_append]
      rw [ownWriteIn_binding, ownWriteIn_append]
      have inner : Scope.Ready (Scope.bindAll ([] :: Scope.bind name scopes) params) :=
        ready_bindAll params _ (ready_open _)
      have nonempty : (Scope.bindAll ([] :: Scope.bind name scopes) params).isEmpty = false :=
        Scope.bindAll_isEmpty params _
      have body := Stmt.ownWritesAll_iff use true body _ inner
        (fun mention inside => single mention (List.mem_append_right _ inside))
      rw [nonempty] at body
      simpa [ownWriteIn_bindings use params] using body
  | .branch condition yes none, scopes, ready, single => by
      rw [Stmt.mentions, ownWriteIn_append, Stmt.ownWrites, Stmt.ownWrites_iff use inFunction yes scopes ready
        (fun mention inside => single mention (List.mem_append_right _ inside))]
      simp [ownWriteIn_uses use _ scopes ready]
  | .branch condition yes (some no), scopes, ready, single => by
      have ofYes := Stmt.ownWrites_iff use inFunction yes scopes ready
        (fun mention inside => single mention (List.mem_append_left _ (List.mem_append_right _ inside)))
      have ofNo := Stmt.ownWrites_iff use inFunction no _ (ready_after yes scopes ready)
        (fun mention inside => single mention (List.mem_append_right _ inside))
      rw [Stmt.after_isEmpty] at ofNo
      rw [Stmt.mentions, ownWriteIn_append, ownWriteIn_append, Stmt.ownWrites, List.mem_append, ofYes, ofNo]
      simp [ownWriteIn_uses use _ scopes ready]
  | .loop condition body, scopes, ready, single => by
      rw [Stmt.mentions, ownWriteIn_append, Stmt.ownWrites, Stmt.ownWrites_iff use inFunction body scopes ready
        (fun mention inside => single mention (List.mem_append_right _ inside))]
      simp [ownWriteIn_uses use _ scopes ready]
theorem Stmt.ownWritesAll_iff (use : Use ν) (inFunction : Bool) : (stmts : List (Stmt ν)) → (scopes : List Scope) →
    Scope.Ready scopes → (∀ mention ∈ Stmt.mentionsAll inFunction scopes stmts, mention.Single) →
    (use ∈ Stmt.ownWritesAll (!scopes.isEmpty) stmts ↔ OwnWriteIn use (Stmt.mentionsAll inFunction scopes stmts))
  | [], scopes, _, _ => by simp [Stmt.ownWritesAll, Stmt.mentionsAll, OwnWriteIn]
  | first :: rest, scopes, ready, single => by
      have ofFirst := Stmt.ownWrites_iff use inFunction first scopes ready
        (fun mention inside => single mention (List.mem_append_left _ inside))
      have ofRest := Stmt.ownWritesAll_iff use inFunction rest _ (ready_after first scopes ready)
        (fun mention inside => single mention (List.mem_append_right _ inside))
      rw [Stmt.after_isEmpty] at ofRest
      rw [Stmt.mentionsAll, ownWriteIn_append, Stmt.ownWritesAll, List.mem_append, ofFirst, ofRest]
end

-- Two mentions that share a number are one.
theorem mention_of_label (mentions : List (Mention ν)) (label : ν) (left right : Mention ν)
    (distinct : (mentions.flatMap Mention.labels).Nodup) (leftIn : left ∈ mentions) (rightIn : right ∈ mentions)
    (ofLeft : label ∈ left.labels) (ofRight : label ∈ right.labels) : left = right := by
  induction mentions with
  | nil => cases leftIn
  | cons first rest ih =>
      rw [List.flatMap_cons, List.nodup_append] at distinct
      obtain ⟨-, later, apart⟩ := distinct
      rcases List.mem_cons.mp leftIn with rfl | leftLater <;> rcases List.mem_cons.mp rightIn with rfl | rightLater
      · rfl
      · exact absurd rfl (apart label ofLeft label (List.mem_flatMap.mpr ⟨right, rightLater, ofRight⟩))
      · exact absurd rfl (apart label ofRight label (List.mem_flatMap.mpr ⟨left, leftLater, ofLeft⟩))
      · exact ih later leftLater rightLater

structure Machine.PreparesWrites (machine : Machine) (numbered : List (Stmt NodeId)) : Prop where
  later : ∀ use scopes, .use use scopes ∈ Stmt.mentionsAll false [] numbered → (machine.labels : Nat) ≤ use.label
  told : ∀ use scopes, .use use scopes ∈ Stmt.mentionsAll false [] numbered →
    (use ∈ Stmt.ownWritesAll false numbered ↔ use.writes = true ∧ Scope.pending scopes use.name.lexeme)
  among : ∀ use ∈ Stmt.ownWritesAll false numbered, ∃ scopes, .use use scopes ∈ Stmt.mentionsAll false [] numbered

theorem prepare_tells (machine : Machine) (program : List (Stmt Unit)) (fresh : machine.Unrecorded)
    (clean : misuses program = []) : machine.PreparesWrites (machine.prepare program).1 := by
  have prepares := prepare_settles machine program fresh clean
  have numbers : Numbered machine.labels (Stmt.numberedAll machine.labels program).2
    ((Stmt.mentionsAll false [] (machine.prepare program).1).flatMap Mention.labels) :=
    Stmt.numberedAll_labels program machine.labels false []
  generalize (machine.prepare program).1 = numbered at prepares numbers ⊢
  have single : ∀ mention ∈ Stmt.mentionsAll false [] numbered, mention.Single := by
    intro mention inside
    have settled := prepares.settled mention inside
    cases mention with
    | use => trivial
    | binding name scopes => exact settled
    | leaving => trivial
  have own (use : Use NodeId) : use ∈ Stmt.ownWritesAll false numbered ↔ _ :=
    Stmt.ownWritesAll_iff use false numbered [] ready_nil single
  have labelled (use : Use NodeId) (scopes : List Scope) : use.label ∈ (Mention.use use scopes).labels :=
    List.mem_singleton.mpr rfl
  constructor
  · intro use scopes inside
    exact (numbers.inside use.label (List.mem_flatMap.mpr ⟨_, inside, labelled use scopes⟩)).1
  · intro use scopes inside
    rw [own]
    constructor
    · rintro ⟨found, among, writes, early⟩
      have same := mention_of_label _ use.label _ _ numbers.distinct inside among (labelled use scopes)
        (labelled use found)
      cases same
      exact ⟨writes, early⟩
    · rintro ⟨writes, early⟩
      exact ⟨scopes, inside, writes, early⟩
  · intro use inside
    obtain ⟨scopes, among, -⟩ := (own use).mp inside
    exact ⟨scopes, among⟩

end Treewalk
