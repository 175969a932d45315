import Treewalk.Proofs.JoinedText
import Treewalk.Proofs.JoinedTokens
import Treewalk.Proofs.LexicalScoping

/-!
A program that consists of two programs. The global scopes are the same behind a program as before it, so the second
part is numbered and analysed as it would be on its own behind the first one.
-/

set_option autoImplicit false

namespace Treewalk

variable {ν : Type}

theorem Stmt.numberedAll_append (second : List (Stmt Unit)) : (first : List (Stmt Unit)) → (next : NodeId) →
    Stmt.numberedAll next (first ++ second) =
      ((Stmt.numberedAll next first).1 ++ (Stmt.numberedAll (Stmt.numberedAll next first).2 second).1,
        (Stmt.numberedAll (Stmt.numberedAll next first).2 second).2) := by
  intro first
  induction first with
  | nil => exact fun _ => rfl
  | cons stmt rest ih =>
      intro next
      have unfolded (stmts : List (Stmt Unit)) : Stmt.numberedAll next (stmt :: stmts) =
          ((stmt.numbered next).1 :: (Stmt.numberedAll (stmt.numbered next).2 stmts).1,
            (Stmt.numberedAll (stmt.numbered next).2 stmts).2) := rfl
      rw [List.cons_append, unfolded, unfolded, ih]
      rfl

-- No statement leaves a global scope behind.
theorem Stmt.mentionsAll_append (inFunction : Bool) (second first : List (Stmt ν)) :
    Stmt.mentionsAll inFunction [] (first ++ second) =
      Stmt.mentionsAll inFunction [] first ++ Stmt.mentionsAll inFunction [] second := by
  induction first with
  | nil => rfl
  | cons stmt rest ih =>
      have global : stmt.after [] = [] := List.isEmpty_iff.mp (Stmt.after_isEmpty stmt [])
      simp only [List.cons_append, Stmt.mentionsAll, global, ih, List.append_assoc]

theorem misuses_append (first second : List (Stmt ν)) : misuses (first ++ second) = misuses first ++ misuses second := by
  simp only [misuses_mentions, Stmt.mentionsAll_append, List.flatMap_append]

-- Numbering and analysing change nothing else.
theorem prepare_machine (machine : Machine) (program : List (Stmt Unit)) :
    (machine.prepare program).2 = { machine with
      distances := (Stmt.mentionsAll false [] (machine.prepare program).1).foldl Distances.note machine.distances,
      labels := (Stmt.numberedAll machine.labels program).2 } := by
  rw [← prepare_distances]
  rfl

-- Preparing looks at nothing but the numbers and distances.
theorem prepare_like (machine other : Machine) (program : List (Stmt Unit)) (labels : machine.labels = other.labels)
    (distances : machine.distances = other.distances) :
    machine.prepare program = ((other.prepare program).1, { machine with
      distances := (other.prepare program).2.distances, labels := (other.prepare program).2.labels }) := by
  have numbered : (machine.prepare program).1 = (other.prepare program).1 := by
    change (Stmt.numberedAll machine.labels program).1 = (Stmt.numberedAll other.labels program).1
    rw [labels]
  refine Prod.ext numbered ?_
  rw [prepare_machine, prepare_machine other, numbered, labels, distances]

-- A program behind another, on other lines, is prepared as it is on its own behind it.
theorem prepare_append (machine : Machine) (move : Token → Token) (keeps : KeepsText move)
    (first second : List (Stmt Unit)) :
    machine.prepare (first ++ Stmt.movedAll move second) =
      ((machine.prepare first).1 ++ Stmt.movedAll move ((machine.prepare first).2.prepare second).1,
        ((machine.prepare first).2.prepare second).2) := by
  have numbers := Stmt.numberedAll_append (Stmt.movedAll move second) first machine.labels
  rw [Stmt.numberedAll_moved] at numbers
  have programs : (machine.prepare (first ++ Stmt.movedAll move second)).1 =
      (machine.prepare first).1 ++ Stmt.movedAll move ((machine.prepare first).2.prepare second).1 :=
    congrArg Prod.fst numbers
  have labels : (Stmt.numberedAll machine.labels (first ++ Stmt.movedAll move second)).2 =
      (Stmt.numberedAll (machine.prepare first).2.labels second).2 := by
    rw [numbers]
    rfl
  have recorded (distances : Distances) (mentions : List (Mention NodeId)) :
      (mentions.map (Mention.moved move)).foldl Distances.note distances = mentions.foldl Distances.note distances := by
    simp only [List.foldl_map, note_moved move keeps]
  refine Prod.ext programs ?_
  rw [prepare_machine, prepare_machine (machine.prepare first).2, programs, labels, Stmt.mentionsAll_append,
    Stmt.mentionsAll_moved move keeps, List.foldl_append, recorded, ← prepare_distances]
  rfl

theorem runProgram_append (fuel : Nat) (second : List (Stmt NodeId)) (first : List (Stmt NodeId)) :
    runProgram fuel (first ++ second) = (do runProgram fuel first; runProgram fuel second) := by
  induction first with
  | nil => rfl
  | cons stmt rest ih =>
      funext machine
      simp only [List.cons_append, runProgram, ih, bind, Run.bind]
      cases exec fuel stmt machine <;> rfl

-- The program that a text is read as.

def programOf (source : String) : List (Stmt Unit) := (readProgram (scan source).tokens).result

-- Texts that are scanned, read and analysed without a mistake.
structure AcceptedText (source : String) : Prop where
  scanned : (scan source).errors = []
  read : (readProgram (scan source).tokens).errors = []
  resolved : misuses (programOf source) = []

-- Tokens up to the end of the input are read as the program that they are, without a mistake.
theorem read_iff (tokens : List Token) (last : Int) (program : List (Stmt Unit))
    (free : ∀ token ∈ tokens, token.kind ≠ .endOfInput) :
    ((readProgram (tokens ++ [Token.endAt last])).errors = [] ∧
      (readProgram (tokens ++ [Token.endAt last])).result = program) ↔ Grammar.IsProgram true tokens program := by
  apply Grammar.readProgram_iff tokens _ free
  intro stop first
  cases first
  rfl

theorem programOf_iff (source : String) (program : List (Stmt Unit)) :
    ((readProgram (scan source).tokens).errors = [] ∧ programOf source = program) ↔
      Grammar.IsProgram true (wordsOf source) program := by
  have read := read_iff (wordsOf source) (1 + linesOf source) program (fun token => body_free _ token 1)
  rw [← scan_tokens] at read
  exact read

-- Two texts with a line break between them are the two programs, the second one as many lines further down.
theorem programOf_joined (first second : String) (firstClean : AcceptedText first) (secondClean : AcceptedText second) :
    AcceptedText (first ++ "\n" ++ second) ∧
    programOf (first ++ "\n" ++ second) =
      programOf first ++ Stmt.movedAll (Token.down (linesOf first + 1)) (programOf second) := by
  have keeps := keepsText_down (linesOf first + 1)
  obtain ⟨scanned, last, tokens⟩ := scan_joined first second firstClean.scanned secondClean.scanned
  have whole := Grammar.isProgram_append true _ keeps _ _ _ _
    ((programOf_iff first _).mp ⟨firstClean.read, rfl⟩) ((programOf_iff second _).mp ⟨secondClean.read, rfl⟩)
  have free : ∀ token ∈ wordsOf first ++ (wordsOf second).map (Token.down (linesOf first + 1)),
      token.kind ≠ .endOfInput := by
    intro token inside
    rcases List.mem_append.mp inside with early | late
    · exact body_free _ token 1 early
    · obtain ⟨original, among, rfl⟩ := List.mem_map.mp late
      exact body_free _ original 1 among
  have read := (read_iff _ last _ free).mpr whole
  rw [← tokens] at read
  obtain ⟨clean, program⟩ := read
  refine ⟨⟨scanned, clean, ?_⟩, program⟩
  rw [programOf, program, misuses_append, firstClean.resolved, misuses_moved _ keeps _ secondClean.resolved]
  rfl

-- A text that is read as the program of another one, so many lines further down.
structure Lowers (lines : Int) (source lowered : String) : Prop where
  accepted : AcceptedText lowered
  program : programOf lowered = Stmt.movedAll (Token.down lines) (programOf source)

def lineBreaks : Nat → String
  | 0 => ""
  | count + 1 => lineBreaks count ++ "\n"

theorem linesOf_lineBreaks (count : Nat) : linesOf (lineBreaks count) = count := by
  induction count with
  | zero => rfl
  | succ count ih =>
      unfold linesOf at ih ⊢
      rw [lineBreaks, String.toList_append, List.count_append, ih]
      rfl

theorem empty_accepted : AcceptedText "" ∧ programOf "" = [] := by
  have program : programOf "" = [] := List.isEmpty_iff.mp (by decide +kernel)
  refine ⟨⟨by decide +kernel, List.isEmpty_iff.mp (by decide +kernel), ?_⟩, program⟩
  rw [program]
  rfl

-- Each further line break is an empty text behind the others.
theorem lineBreaks_accepted (count : Nat) : AcceptedText (lineBreaks count) ∧ programOf (lineBreaks count) = [] := by
  induction count with
  | zero => exact empty_accepted
  | succ count ih =>
      obtain ⟨accepted, program⟩ := programOf_joined (lineBreaks count) "" ih.1 empty_accepted.1
      rw [String.append_empty] at accepted program
      rw [ih.2, empty_accepted.2] at program
      exact ⟨accepted, program⟩

theorem lowers_lineBreaks (count : Nat) (source : String) (clean : AcceptedText source) :
    Lowers (count + 1) source (lineBreaks (count + 1) ++ source) := by
  obtain ⟨breaks, empty⟩ := lineBreaks_accepted count
  obtain ⟨accepted, program⟩ := programOf_joined (lineBreaks count) source breaks clean
  rw [empty, List.nil_append, linesOf_lineBreaks] at program
  exact ⟨accepted, program⟩

end Treewalk
