import Treewalk.Machine.Eval
import Treewalk.Proofs.Numbering

/-!
A program that was loaded and analysed without a misuse is settled: the distance recorded for each use is the
number of scopes between the use and the nearest declaration of its name, no use of a global name has one, and
no scope declares a name twice. Later programs leave that as it is, since their uses have other numbers.
-/

set_option autoImplicit false

namespace Treewalk

open Scope

variable {ν : Type}

def misuses (program : List (Stmt ν)) : List ScopeError :=
  (Stmt.findingsAll false [] program).2.filterMap Finding.error?

-- A name whose value is being computed in the innermost scope.
def Scope.pending (scopes : List Scope) (name : String) : Prop := scopes.head?.bind (·.lookup name) = some false

def Mention.Settled (distances : Distances) (labels : Nat) : Mention NodeId → Prop
  | .use ⟨label, name, writes⟩ scopes =>
      label < labels ∧ distances[label]? = distance? scopes name.lexeme ∧
        (writes = false → ¬ Scope.pending scopes name.lexeme)
  | .binding name scopes => ∀ inner ∈ scopes.head?, inner.declares name.lexeme = false
  | .leaving _ _ => True

theorem settled_later (before after : Distances) (first last : Nat) (mention : Mention NodeId)
    (more : first ≤ last) (kept : ∀ label < first, after[label]? = before[label]?)
    (settled : mention.Settled before first) : mention.Settled after last := by
  cases mention with
  | use mentioned scopes =>
      obtain ⟨label, name, writes⟩ := mentioned
      obtain ⟨below, recorded, ready⟩ := settled
      exact ⟨Nat.lt_of_lt_of_le below more, (kept label below).trans recorded, ready⟩
  | binding name scopes => exact settled
  | leaving inFunction keyword => trivial

-- Recording the findings of mentions one by one.

def Distances.note (distances : Distances) (mention : Mention NodeId) : Distances :=
  mention.findings.foldl Distances.record distances

theorem record_misuses (distances : Distances) (findings : List (Finding NodeId))
    (all : ∀ finding ∈ findings, ∃ error, finding = .misuse error) :
    findings.foldl Distances.record distances = distances := by
  induction findings with
  | nil => rfl
  | cons first rest ih =>
      obtain ⟨error, rfl⟩ := all first List.mem_cons_self
      exact ih (fun finding inside => all finding (List.mem_cons_of_mem _ inside))

theorem premature_misuses (scopes : List Scope) (name : Token) (finding : Finding ν)
    (inside : finding ∈ premature scopes name) : ∃ error, finding = .misuse error := by
  unfold premature at inside
  split at inside
  · exact ⟨_, List.mem_singleton.mp inside⟩
  · cases inside

theorem repeated_misuses (scopes : List Scope) (name : Token) (finding : Finding ν)
    (inside : finding ∈ repeated name scopes) : ∃ error, finding = .misuse error := by
  cases scopes with
  | nil => cases inside
  | cons inner outer =>
      simp only [repeated] at inside
      split at inside
      · exact ⟨_, List.mem_singleton.mp inside⟩
      · cases inside

theorem note_use (distances : Distances) (label : NodeId) (name : Token) (writes : Bool) (scopes : List Scope)
    (asked : NodeId) :
    (distances.note (.use ⟨label, name, writes⟩ scopes))[asked]? =
      if asked = label then (distance? scopes name.lexeme).or distances[asked]? else distances[asked]? := by
  have recorded : distances.note (.use ⟨label, name, writes⟩ scopes) =
      (found scopes label name).foldl Distances.record distances := by
    simp only [Distances.note, Mention.findings, List.foldl_append]
    congr 1
    apply record_misuses
    intro finding inside
    cases writes with
    | true => simp at inside
    | false => exact premature_misuses scopes name finding (by simpa using inside)
  rw [recorded]
  unfold found
  cases distance? scopes name.lexeme with
  | none => simp
  | some steps =>
      by_cases same : asked = label
      · simp [Distances.record, same]
      · have other : ¬ label = asked := fun equal => same equal.symm
        simp [Distances.record, Std.HashMap.getElem?_insert, same, other]

theorem note_elsewhere (distances : Distances) (mention : Mention NodeId) (asked : NodeId)
    (outside : asked ∉ mention.labels) : (distances.note mention)[asked]? = distances[asked]? := by
  cases mention with
  | use mentioned scopes =>
      obtain ⟨label, name, writes⟩ := mentioned
      have different : asked ≠ label := by simpa [Mention.labels] using outside
      rw [note_use]
      simp [different]
  | binding name scopes =>
      rw [Distances.note, Mention.findings]
      rw [record_misuses _ _ (repeated_misuses scopes name)]
  | leaving inFunction keyword =>
      rw [Distances.note, record_misuses]
      intro finding inside
      cases inFunction <;> simp [Mention.findings] at inside
      exact ⟨_, inside⟩

theorem notes_elsewhere (mentions : List (Mention NodeId)) (asked : NodeId) : ∀ distances : Distances,
    asked ∉ mentions.flatMap Mention.labels →
    (mentions.foldl Distances.note distances)[asked]? = distances[asked]? := by
  induction mentions with
  | nil => exact fun _ _ => rfl
  | cons first rest ih =>
      intro distances outside
      rw [List.flatMap_cons, List.mem_append, not_or] at outside
      rw [List.foldl_cons, ih _ outside.2]
      exact note_elsewhere distances first asked outside.1

-- With distinct labels, each use ends with its own distance, or with what was recorded before if it has none.
theorem notes_or (mentions : List (Mention NodeId)) (label : NodeId) (name : Token) (writes : Bool)
    (scopes : List Scope) : ∀ distances : Distances,
    (mentions.flatMap Mention.labels).Nodup → .use ⟨label, name, writes⟩ scopes ∈ mentions →
    (mentions.foldl Distances.note distances)[label]? = (distance? scopes name.lexeme).or distances[label]? := by
  induction mentions with
  | nil => exact fun _ _ inside => nomatch inside
  | cons first rest ih =>
      intro distances distinct inside
      rw [List.flatMap_cons, List.nodup_append] at distinct
      obtain ⟨-, later, apart⟩ := distinct
      rw [List.foldl_cons]
      rcases List.mem_cons.mp inside with rfl | inRest
      · have outside : label ∉ rest.flatMap Mention.labels := fun again =>
          apart label (by simp [Mention.labels]) label again rfl
        rw [notes_elsewhere rest label _ outside, note_use, if_pos rfl]
      · have among : label ∈ rest.flatMap Mention.labels :=
          List.mem_flatMap.mpr ⟨_, inRest, by simp [Mention.labels]⟩
        rw [ih _ later inRest, note_elsewhere _ _ _ (fun own => apart label own label among rfl)]

theorem notes_use (mentions : List (Mention NodeId)) (label : NodeId) (name : Token) (writes : Bool)
    (scopes : List Scope) (distances : Distances) (distinct : (mentions.flatMap Mention.labels).Nodup)
    (unused : distances[label]? = none) (inside : .use ⟨label, name, writes⟩ scopes ∈ mentions) :
    (mentions.foldl Distances.note distances)[label]? = distance? scopes name.lexeme := by
  rw [notes_or mentions label name writes scopes distances distinct inside, unused, Option.or_none]

theorem foldl_findings (mentions : List (Mention NodeId)) : ∀ distances : Distances,
    (mentions.flatMap Mention.findings).foldl Distances.record distances =
      mentions.foldl Distances.note distances := by
  induction mentions with
  | nil => exact fun _ => rfl
  | cons first rest ih =>
      intro distances
      rw [List.flatMap_cons, List.foldl_append]
      exact ih _

-- Labels play no part in what is misused, and a program without misuse has none in any mention.

theorem misuses_mentions (program : List (Stmt ν)) :
    misuses program =
      (Stmt.mentionsAll false [] program).flatMap (fun mention => mention.findings.filterMap Finding.error?) := by
  rw [misuses, Stmt.findingsAll_mentions, List.filterMap_flatMap]

theorem errors_strip (mention : Mention ν) :
    mention.strip.findings.filterMap Finding.error? = mention.findings.filterMap Finding.error? := by
  cases mention with
  | use mentioned scopes =>
      obtain ⟨label, name, writes⟩ := mentioned
      have without (label : ν) : (found scopes label name).filterMap Finding.error? = [] := by
        unfold found
        cases distance? scopes name.lexeme <;> rfl
      have stripped : (found scopes () name).filterMap Finding.error? = [] := by
        unfold found
        cases distance? scopes name.lexeme <;> rfl
      simp only [Mention.strip, Use.strip, Mention.findings, List.filterMap_append, without, stripped]
      cases writes with
      | true => rfl
      | false =>
          by_cases early : scopes.head?.bind (·.lookup name.lexeme) = some false <;>
            simp [premature, early, Finding.error?]
  | binding name scopes =>
      cases scopes with
      | nil => rfl
      | cons inner outer =>
          simp only [Mention.strip, Mention.findings, repeated]
          split <;> rfl
  | leaving inFunction keyword => cases inFunction <;> rfl

theorem misuses_strip (program : List (Stmt ν)) : misuses (Stmt.stripAll program) = misuses program := by
  rw [misuses_mentions, misuses_mentions, Stmt.mentionsAll_strip, List.flatMap_map]
  simp only [errors_strip]

theorem settled_of_clean (distances : Distances) (labels : Nat) (mention : Mention NodeId)
    (clean : mention.findings.filterMap Finding.error? = [])
    (recorded : ∀ label name writes scopes, mention = .use ⟨label, name, writes⟩ scopes →
      label < labels ∧ distances[label]? = distance? scopes name.lexeme) : mention.Settled distances labels := by
  cases mention with
  | use mentioned scopes =>
      obtain ⟨label, name, writes⟩ := mentioned
      obtain ⟨below, distance⟩ := recorded label name writes scopes rfl
      refine ⟨below, distance, fun reads early => ?_⟩
      subst reads
      unfold Scope.pending at early
      simp [Mention.findings, premature, early, Finding.error?] at clean
  | binding name scopes =>
      intro inner innermost
      cases scopes with
      | nil => cases innermost
      | cons first outer =>
          cases innermost
          cases declared : inner.declares name.lexeme with
          | false => rfl
          | true => simp [Mention.findings, repeated, declared, Finding.error?] at clean
  | leaving inFunction keyword => trivial

-- A program made ready to run: numbered, and its distances recorded.
def Machine.prepare (machine : Machine) (program : List (Stmt Unit)) : List (Stmt NodeId) × Machine :=
  let (numbered, loaded) := machine.load program
  (numbered, (loaded.analyse numbered).2)

theorem prepare_distances (machine : Machine) (program : List (Stmt Unit)) :
    (machine.prepare program).2.distances =
      (Stmt.mentionsAll false [] (machine.prepare program).1).foldl Distances.note machine.distances := by
  change ((Stmt.findingsAll false [] (machine.prepare program).1).2).foldl Distances.record machine.distances = _
  rw [Stmt.findingsAll_mentions, foldl_findings]

-- The machine knows nothing about numbers it has not used.
def Machine.Unrecorded (machine : Machine) : Prop :=
  ∀ label : Nat, machine.labels ≤ label → machine.distances[label]? = none

-- The machine knows more about uses of names, under numbers it had not used, and is the same otherwise.
structure Machine.Learns (machine ready : Machine) : Prop where
  more : (machine.labels : Nat) ≤ ready.labels
  kept : ∀ label : Nat, label < machine.labels → ready.distances[label]? = machine.distances[label]?
  unrecorded : ready.Unrecorded
  same : ready = { machine with distances := ready.distances, labels := ready.labels }

-- Misused names make no difference to that.
theorem prepare_learns (machine : Machine) (program : List (Stmt Unit)) (fresh : machine.Unrecorded) :
    machine.Learns (machine.prepare program).2 := by
  have numbers := Stmt.numberedAll_labels program machine.labels false []
  have distances := prepare_distances machine program
  have labels : (machine.prepare program).2.labels = (Stmt.numberedAll machine.labels program).2 := rfl
  have numbered : (machine.prepare program).1 = (Stmt.numberedAll machine.labels program).1 := rfl
  rw [← labels, ← numbered] at numbers
  constructor
  · exact numbers.ordered
  · intro label below
    rw [distances]
    apply notes_elsewhere
    intro among
    have bounds := numbers.inside label among
    omega
  · intro label above
    rw [distances, notes_elsewhere]
    · exact fresh label (Nat.le_trans numbers.ordered above)
    · intro among
      exact Nat.not_lt.mpr above (numbers.inside label among).2
  · rfl

structure Machine.Prepares (machine : Machine) (program : List (Stmt Unit)) (numbered : List (Stmt NodeId))
    (ready : Machine) : Prop extends machine.Learns ready where
  stripped : Stmt.stripAll numbered = program
  settled : ∀ mention ∈ Stmt.mentionsAll false [] numbered, mention.Settled ready.distances ready.labels

theorem prepare_settles (machine : Machine) (program : List (Stmt Unit)) (fresh : machine.Unrecorded)
    (clean : misuses program = []) :
    machine.Prepares program (machine.prepare program).1 (machine.prepare program).2 := by
  have numbers := Stmt.numberedAll_labels program machine.labels false []
  have stripped : Stmt.stripAll (machine.prepare program).1 = program := Stmt.stripAll_numbered program machine.labels
  have labels : (machine.prepare program).2.labels = (Stmt.numberedAll machine.labels program).2 := rfl
  have numbered : (machine.prepare program).1 = (Stmt.numberedAll machine.labels program).1 := rfl
  rw [← labels, ← numbered] at numbers
  refine ⟨prepare_learns machine program fresh, stripped, ?_⟩
  intro mention inside
  apply settled_of_clean
  · rw [← stripped, misuses_strip, misuses_mentions, List.flatMap_eq_nil_iff] at clean
    exact clean mention inside
  · rintro label name writes scopes rfl
    have among : label ∈ (Stmt.mentionsAll false [] (machine.prepare program).1).flatMap Mention.labels :=
      List.mem_flatMap.mpr ⟨_, inside, by simp [Mention.labels]⟩
    have bounds := numbers.inside label among
    have recorded := notes_use _ label name writes scopes machine.distances numbers.distinct (fresh label bounds.1)
      inside
    rw [prepare_distances]
    exact ⟨bounds.2, recorded⟩

-- Runs a program after those that ran before.
def Machine.interpret (fuel : Nat) (program : List (Stmt Unit)) : Run Unit := fun machine =>
  runProgram fuel (machine.prepare program).1 (machine.prepare program).2

end Treewalk
