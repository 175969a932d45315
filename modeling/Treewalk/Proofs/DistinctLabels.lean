import Treewalk.Proofs.DrawnStatements
import Treewalk.Proofs.Remembering

/-!
Uses of names are never mistaken for one another. However many programs and expressions are read, with or without mistakes,
no two uses in their trees have the same number, whether the numbers are taken while reading or when a tree is loaded. So
analysing one program leaves the distances of all others alone, and analysing it again records what it recorded before.
-/

set_option autoImplicit false

namespace Treewalk

variable {ν : Type}

-- What a reader is asked for, and the tree that it returns.

inductive Request where
  | program (tokens : List Token)
  | expression (tokens : List Token)

inductive Tree (ν : Type) where
  | program (stmts : List (Stmt ν))
  | expression (expr : Option (Expr ν))

def Tree.strip : Tree ν → Tree Unit
  | .program stmts => .program (Stmt.stripAll stmts)
  | .expression expr => .expression (expr.map Expr.strip)

def Tree.labels : Tree NodeId → List Nat
  | .program stmts => Stmt.labelsAll stmts
  | .expression expr => Expr.labelsOption expr

def Request.read : Request → Parsed (Tree Unit)
  | .program tokens => ⟨.program (readProgram tokens).result, (readProgram tokens).errors⟩
  | .expression tokens => ⟨.expression (readExpression tokens).result, (readExpression tokens).errors⟩

-- Reading with numbers from `first` on, and the next number.
def Request.draw (first : NodeId) : Request → Parsed (Tree NodeId) × NodeId
  | .program tokens =>
      let input := Input.ofTokens tokens
      let drawn := Drawing.declarations input.bound false first input.stop input.tokens
      (⟨.program (drawn.reply.result.getD []), drawn.reply.errors⟩, drawn.next)
  | .expression tokens =>
      let input := Input.ofTokens tokens
      let drawn := Drawing.whole input.bound first input.stop input.tokens
      (⟨.expression (if drawn.reply.errors.isEmpty then drawn.reply.result else none), drawn.reply.errors⟩, drawn.next)

-- Reading, and loading on a machine.
def Request.load (machine : Machine) : Request → Parsed (Tree NodeId) × Machine
  | .program tokens =>
      let (numbered, loaded) := machine.load (readProgram tokens).result
      (⟨.program numbered, (readProgram tokens).errors⟩, loaded)
  | .expression tokens => match (readExpression tokens).result with
    | some expr =>
        let (numbered, loaded) := machine.loadExpr expr
        (⟨.expression (some numbered), (readExpression tokens).errors⟩, loaded)
    | none => (⟨.expression none, (readExpression tokens).errors⟩, machine)

def Request.drawAll (first : NodeId) : List Request → List (Parsed (Tree NodeId)) × NodeId
  | [] => ([], first)
  | request :: rest =>
      let (answer, next) := request.draw first
      let (answers, last) := Request.drawAll next rest
      (answer :: answers, last)

def Request.loadAll (machine : Machine) : List Request → List (Parsed (Tree NodeId)) × Machine
  | [] => ([], machine)
  | request :: rest =>
      let (answer, next) := request.load machine
      let (answers, last) := Request.loadAll next rest
      (answer :: answers, last)

-- An answer with numbers from a first one up to a last one, and what is read without numbers.
structure Answered (first last : Nat) (request : Request) (answer : Parsed (Tree NodeId)) : Prop where
  result : answer.result.strip = request.read.result
  errors : answer.errors = request.read.errors
  numbered : Numbered first last answer.result.labels

theorem draw_answers (first : NodeId) (request : Request) :
    Answered first (request.draw first).2 request (request.draw first).1 := by
  cases request with
  | program tokens =>
      have drawn := (Drawing.all_draw_stmts (Input.ofTokens tokens).bound).declarations false first first
        (Input.ofTokens tokens).stop (Input.ofTokens tokens).tokens (numbered_none first)
      refine ⟨congrArg Tree.program ?_, drawn.errors, ?_⟩
      · change Stmt.stripAll _ = Option.getD _ _
        rw [← drawn.result]
        cases (Drawing.declarations _ false first _ _).reply.result <;> rfl
      · change Numbered first _ (Stmt.labelsAll (Option.getD _ []))
        have numbered := drawn.numbered
        cases given : (Drawing.declarations _ false first _ _).reply.result with
        | none => exact numbered_nil _ _ drawn.later
        | some stmts => exact numbered stmts given
  | expression tokens =>
      have drawn := Drawing.whole_draws (Input.ofTokens tokens) first first (Input.ofTokens tokens).stop
        (Input.ofTokens tokens).tokens (numbered_none first)
      refine ⟨congrArg Tree.expression ?_, drawn.errors, ?_⟩
      · change Option.map Expr.strip (if _ then _ else none) = if _ then _ else none
        rw [drawn.errors, ← drawn.result]
        split <;> rfl
      · change Numbered first _ (Expr.labelsOption (if _ then _ else none))
        have nothing : Numbered first (Drawing.whole _ first _ _).next [] := numbered_nil _ _ drawn.later
        have numbered := drawn.numbered
        split
        · cases given : (Drawing.whole _ first _ _).reply.result with
          | none => exact nothing
          | some value => exact numbered value given
        · exact nothing

theorem load_answers (machine : Machine) (request : Request) :
    Answered machine.labels (request.load machine).2.labels request (request.load machine).1 := by
  cases request with
  | program tokens =>
      refine ⟨congrArg Tree.program (Stmt.stripAll_numbered _ machine.labels), rfl, ?_⟩
      have numbers := Stmt.numberedAll_labels (readProgram tokens).result machine.labels false []
      rwa [Stmt.mentionsAll_labels] at numbers
  | expression tokens =>
      have read : (Request.expression tokens).read.result = .expression (readExpression tokens).result := rfl
      cases found : (readExpression tokens).result with
      | none =>
          have loaded : (Request.expression tokens).load machine =
              (⟨.expression none, (readExpression tokens).errors⟩, machine) := by
            simp only [Request.load, found]
          rw [loaded]
          exact ⟨by rw [read, found]; rfl, rfl, numbered_none machine.labels⟩
      | some expr =>
          have loaded : (Request.expression tokens).load machine =
              (⟨.expression (some (machine.loadExpr expr).1), (readExpression tokens).errors⟩, (machine.loadExpr expr).2) := by
            simp only [Request.load, found]
          rw [loaded]
          refine ⟨?_, rfl, Expr.numbered_labels expr machine.labels⟩
          rw [read, found]
          exact congrArg (Tree.expression ∘ some) (Expr.strip_numbered expr machine.labels)

-- The answers to one request after another, each with numbers behind those of the ones before it.
inductive AnsweredAll : Nat → Nat → List Request → List (Parsed (Tree NodeId)) → Prop where
  | nothing (first : Nat) : AnsweredAll first first [] []
  | another (first next last : Nat) (request : Request) (answer : Parsed (Tree NodeId)) (requests : List Request)
      (answers : List (Parsed (Tree NodeId))) (head : Answered first next request answer)
      (rest : AnsweredAll next last requests answers) : AnsweredAll first last (request :: requests) (answer :: answers)

theorem drawAll_answers (requests : List Request) : ∀ first : NodeId,
    AnsweredAll first (Request.drawAll first requests).2 requests (Request.drawAll first requests).1 := by
  induction requests with
  | nil => exact fun first => .nothing first
  | cons request rest ih => exact fun first => .another _ _ _ _ _ _ _ (draw_answers first request) (ih _)

theorem loadAll_answers (requests : List Request) : ∀ machine : Machine,
    AnsweredAll machine.labels (Request.loadAll machine requests).2.labels requests
      (Request.loadAll machine requests).1 := by
  induction requests with
  | nil => exact fun machine => .nothing machine.labels
  | cons request rest ih => exact fun machine => .another _ _ _ _ _ _ _ (load_answers machine request) (ih _)

def labelsIn (trees : List (Tree NodeId)) : List Nat := trees.flatMap Tree.labels

theorem answers_numbered (first last : Nat) (requests : List Request) (answers : List (Parsed (Tree NodeId)))
    (all : AnsweredAll first last requests answers) :
    Numbered first last (labelsIn (answers.map Parsed.result)) := by
  induction all with
  | nothing first => exact numbered_none first
  | another first next last request answer requests answers head rest ih =>
      exact numbered_append first next last _ _ head.numbered ih

-- Numbers that start again from zero at a certain size are distinct as long as no more than that many are taken.
theorem numbered_wrapped (first last size : Nat) (labels : List Nat) (numbered : Numbered first last labels)
    (few : last ≤ first + size) : (labels.map (· % size)).Nodup := by
  refine List.Nodup.map_on ?_ numbered.distinct
  intro label inside other within same
  have low := numbered.inside label inside
  have high := numbered.inside other within
  have up := Nat.sub_mod_eq_zero_of_mod_eq same
  have down := Nat.sub_mod_eq_zero_of_mod_eq same.symm
  rw [Nat.mod_eq_of_lt (by omega)] at up down
  omega

-- What one analysis after another records.

def Distances.resolve (known : Distances) (program : List (Stmt NodeId)) : Distances :=
  (Analysis.ofProgram known program).distances

theorem resolve_notes (known : Distances) (program : List (Stmt NodeId)) :
    known.resolve program = (Stmt.mentionsAll false [] program).foldl Distances.note known := by
  unfold Distances.resolve Analysis.ofProgram
  dsimp only
  rw [Stmt.findingsAll_mentions, foldl_findings]

theorem resolve_elsewhere (known : Distances) (program : List (Stmt NodeId)) (label : NodeId)
    (outside : label ∉ Stmt.labelsAll program) : (known.resolve program)[label]? = known[label]? := by
  rw [← Stmt.mentionsAll_labels program false []] at outside
  rw [resolve_notes, notes_elsewhere _ label known outside]

-- What a program says about one of its own numbers does not depend on what is known.
theorem resolve_inside (program : List (Stmt NodeId)) (label : NodeId) (distinct : (Stmt.labelsAll program).Nodup)
    (inside : label ∈ Stmt.labelsAll program) :
    ∃ found : Option Nat, ∀ known : Distances, (known.resolve program)[label]? = found.or known[label]? := by
  rw [← Stmt.mentionsAll_labels program false []] at distinct inside
  obtain ⟨mention, among, own⟩ := List.mem_flatMap.mp inside
  cases mention with
  | use mentioned scopes =>
      obtain ⟨number, name, writes⟩ := mentioned
      cases List.mem_singleton.mp own
      refine ⟨Scope.distance? scopes name.lexeme, fun known => ?_⟩
      rw [resolve_notes, notes_or _ number name writes scopes known distinct among]
  | binding | leaving => cases own

structure Unmistakable (trees : List (Tree NodeId)) : Prop where
  distinct : (labelsIn trees).Nodup
  -- Analysing other programs leaves the distances of a tree as they are.
  others : ∀ tree ∈ trees, ∀ programs : List (List (Stmt NodeId)),
    (∀ program ∈ programs, .program program ∈ trees ∧ .program program ≠ tree) →
    ∀ (known : Distances), ∀ label ∈ tree.labels, (programs.foldl Distances.resolve known)[label]? = known[label]?
  -- A program that has been analysed keeps its distances, whichever are analysed later and in which order, itself among them.
  again : ∀ program, .program program ∈ trees → ∀ programs : List (List (Stmt NodeId)),
    (∀ later ∈ programs, .program later ∈ trees) →
    ∀ (known : Distances), ∀ label ∈ Stmt.labelsAll program,
      (programs.foldl Distances.resolve (known.resolve program))[label]? = (known.resolve program)[label]?

theorem apart_of_distinct (trees : List (Tree NodeId)) (distinct : (labelsIn trees).Nodup) (tree other : Tree NodeId)
    (inside : tree ∈ trees) (within : other ∈ trees) (different : other ≠ tree) (label : Nat)
    (own : label ∈ tree.labels) : label ∉ other.labels := by
  have pairwise := (List.nodup_flatMap.mp distinct).2
  have symmetric : Std.Symm (Function.onFun List.Disjoint Tree.labels) := ⟨fun _ _ apart => apart.symm⟩
  have apart : List.Disjoint other.labels tree.labels := pairwise.forall within inside different
  exact fun shared => apart shared own

section distinct

variable (trees : List (Tree NodeId)) (distinct : (labelsIn trees).Nodup)

include distinct

theorem resolve_other (tree : Tree NodeId) (inside : tree ∈ trees) (program : List (Stmt NodeId))
    (within : .program program ∈ trees) (different : .program program ≠ tree) (known : Distances) (label : NodeId)
    (own : label ∈ tree.labels) : (known.resolve program)[label]? = known[label]? := by
  have outside : label ∉ (Tree.program program).labels :=
    apart_of_distinct trees distinct tree (.program program) inside within different label own
  exact resolve_elsewhere known program label outside

-- The number has the distance that was recorded first, and any of the programs leaves it so.
theorem resolve_again (program later : List (Stmt NodeId)) (inside : .program program ∈ trees)
    (within : .program later ∈ trees) (known table : Distances) (label : NodeId)
    (own : label ∈ Stmt.labelsAll program) (same : table[label]? = (known.resolve program)[label]?) :
    (table.resolve later)[label]? = (known.resolve program)[label]? := by
  have alone : (Stmt.labelsAll program).Nodup := (List.nodup_flatMap.mp distinct).1 _ inside
  obtain ⟨found, recorded⟩ := resolve_inside program label alone own
  by_cases itself : later = program
  · rw [itself, recorded, same, recorded]
    cases found <;> rfl
  · have different : Tree.program later ≠ .program program := by simpa using itself
    rw [resolve_other trees distinct (.program program) inside later within different table label own]
    exact same

theorem unmistakable_of_distinct : Unmistakable trees := by
  refine ⟨distinct, ?_, ?_⟩
  · intro tree inside programs
    induction programs with
    | nil => exact fun _ _ _ _ => rfl
    | cons program rest ih =>
        intro all known label own
        obtain ⟨⟨within, different⟩, later⟩ := List.forall_mem_cons.mp all
        rw [List.foldl_cons, ih later _ label own]
        exact resolve_other trees distinct tree inside program within different known label own
  · intro program inside programs all known label own
    have run : ∀ table : Distances, table[label]? = (known.resolve program)[label]? →
        (programs.foldl Distances.resolve table)[label]? = (known.resolve program)[label]? := by
      induction programs with
      | nil => exact fun _ same => same
      | cons later rest ih =>
          intro table same
          obtain ⟨within, others⟩ := List.forall_mem_cons.mp all
          exact ih others _ (resolve_again trees distinct program later inside within known table label own same)
    exact run _ rfl

end distinct

-- All that is known about the answers to some requests, with the numbers taken for them.
structure WellLabelled (first last : Nat) (requests : List Request) (answers : List (Parsed (Tree NodeId))) : Prop where
  results : answers.map (·.result.strip) = requests.map (·.read.result)
  errors : answers.map Parsed.errors = requests.map (·.read.errors)
  numbered : Numbered first last (labelsIn (answers.map Parsed.result))
  wrapped : ∀ size, last ≤ first + size → ((labelsIn (answers.map Parsed.result)).map (· % size)).Nodup
  unmistakable : Unmistakable (answers.map Parsed.result)

theorem wellLabelled_of_answers (first last : Nat) (requests : List Request) (answers : List (Parsed (Tree NodeId)))
    (all : AnsweredAll first last requests answers) : WellLabelled first last requests answers := by
  have numbered := answers_numbered first last requests answers all
  refine ⟨?_, ?_, numbered, fun size => numbered_wrapped first last size _ numbered,
    unmistakable_of_distinct _ numbered.distinct⟩
  · induction all with
    | nothing => rfl
    | another first next last request answer requests answers head rest ih =>
        exact congr (congrArg List.cons head.result) (ih (answers_numbered _ _ _ _ rest))
  · induction all with
    | nothing => rfl
    | another first next last request answer requests answers head rest ih =>
        exact congr (congrArg List.cons head.errors) (ih (answers_numbered _ _ _ _ rest))

-- For trees numbered as they are read, for trees loaded on a machine, and for a session with all that runs in it.
theorem labels_never_collide (requests : List Request) (first : NodeId) (machine : Machine) (session : Session)
    (fuel : Nat) (steps : List (Step × String)) :
    WellLabelled first (Request.drawAll first requests).2 requests (Request.drawAll first requests).1 ∧
    WellLabelled machine.labels (Request.loadAll machine requests).2.labels requests
      (Request.loadAll machine requests).1 ∧
    (session.steps fuel steps).elim True (fun after => session.machine.Keeps after.machine) := by
  refine ⟨wellLabelled_of_answers _ _ _ _ (drawAll_answers requests first),
    wellLabelled_of_answers _ _ _ _ (loadAll_answers requests machine), ?_⟩
  cases stepped : session.steps fuel steps with
  | none => trivial
  | some after => exact steps_keep fuel steps session after stepped

-- The target of the assignment has taken a number and is gone, and so has the name before the mistake.
example :
    labelsIn ((Request.drawAll 0 [.program (scan "a = b; d e; c;").tokens, .expression (scan "f(a)").tokens]).1.map
      Parsed.result) = [1, 2, 4, 5, 6] := by
  decide +kernel

end Treewalk
