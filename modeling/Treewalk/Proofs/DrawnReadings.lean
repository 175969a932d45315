import Mathlib.Data.List.Perm.Subperm
import Treewalk.Proofs.Drawing
import Treewalk.Proofs.ExprParsing
import Treewalk.Proofs.Numbering

/-!
Reading with numbers is reading. Without its numbers, a tree that is numbered as it is read is the tree that is read
anyway, with the same mistakes and the same tokens left. Its numbers are distinct and lie among those taken since its
reading began, however much was dropped on the way.
-/

set_option autoImplicit false

namespace Treewalk

-- Numbers that are left out or change places stay distinct.
theorem numbered_fewer (first last : Nat) (all some : List Nat) (numbered : Numbered first last all)
    (fewer : some.Subperm all) : Numbered first last some := by
  refine ⟨numbered.ordered, fun label inside => numbered.inside label (fewer.subset inside), ?_⟩
  obtain ⟨same, perm, sublist⟩ := fewer
  exact perm.nodup_iff.mp (numbered.distinct.sublist sublist)

theorem numbered_nil (first last : Nat) (ordered : first ≤ last) : Numbered first last [] :=
  ⟨ordered, by simp, List.nodup_nil⟩

-- A reply with numbers and the reply without them.
structure Drawn.Numbers {α β : Type} (first : Nat) (erase : α → β) (labels : α → List Nat) (drawn : Drawn α)
    (reply : Reply β) : Prop where
  result : drawn.reply.result.map erase = reply.result
  rest : drawn.reply.rest = reply.rest
  errors : drawn.reply.errors = reply.errors
  later : first ≤ drawn.next
  numbered : ∀ value ∈ drawn.reply.result, Numbered first drawn.next (labels value)

namespace Drawing

open Reading

variable {α β γ δ : Type} {held : List Nat} {erase : α → β} {labels : α → List Nat} {eraseNext : γ → δ}
  {labelsNext : γ → List Nat}

-- Whoever holds some of the numbers taken since a certain one holds, behind the reading, those of what it gives.
def Draws (held : List Nat) (erase : α → β) (labels : α → List Nat) (drawing : Drawing α) (reading : Reading β) : Prop :=
  ∀ (first next : Nat) (stop : Token) (tokens : List Token), Numbered first next held →
    (drawing next stop tokens).Numbers first erase labels (reading stop tokens)

theorem draws_pure {value : α} (kept : (labels value).Subperm held) :
    Draws held erase labels (pure value) (pure (erase value)) := by
  intro first next stop tokens numbers
  refine ⟨rfl, rfl, rfl, numbers.ordered, ?_⟩
  intro given found
  cases found
  exact numbered_fewer first next held _ numbers kept

theorem draws_bind {drawing : Drawing α} {goOn : α → Drawing γ} {reading : Reading β} {next : β → Reading δ}
    (start : Draws held erase labels drawing reading)
    (further : ∀ value, Draws (labels value) eraseNext labelsNext (goOn value) (next (erase value))) :
    Draws held eraseNext labelsNext (drawing >>= goOn) (reading >>= next) := by
  intro first label stop tokens numbers
  have early := start first label stop tokens numbers
  change (Drawing.bind drawing goOn label stop tokens).Numbers first eraseNext labelsNext
    (Reading.bind reading next stop tokens)
  simp only [Drawing.bind, Reading.bind]
  generalize drawing label stop tokens = drawn at early ⊢
  generalize reading stop tokens = reply at early ⊢
  obtain ⟨⟨given, rest, errors⟩, after⟩ := drawn
  obtain ⟨result, left, mistakes⟩ := reply
  obtain ⟨same, sameRest, sameErrors, later, numbered⟩ := early
  cases same
  cases sameRest
  cases sameErrors
  cases given with
  | none => exact ⟨rfl, rfl, rfl, later, fun _ found => by cases found⟩
  | some value =>
      have behind := further value first after stop rest (numbered value rfl)
      exact ⟨behind.result, behind.rest, congrArg (errors ++ ·) behind.errors, behind.later, behind.numbered⟩

theorem draws_plain {reading : Reading α} : Draws held id (fun _ => held) (plain reading) reading := by
  intro first next stop tokens numbers
  exact ⟨congrFun Option.map_id _, rfl, rfl, numbers.ordered, fun _ _ => numbers⟩

theorem draws_fail (token : Token) (cause : ParseCause) :
    Draws held erase labels (plain (fail token cause)) (fail token cause) := by
  intro first next stop tokens numbers
  exact ⟨rfl, rfl, rfl, numbers.ordered, fun _ found => by cases found⟩

theorem draws_failHere (cause : ParseCause) :
    Draws held erase labels (plain (failHere cause)) (failHere cause) := by
  intro first next stop tokens numbers
  exact ⟨rfl, rfl, rfl, numbers.ordered, fun _ found => by cases found⟩

-- The number that is taken may be used together with those held.
theorem draws_fresh {make : NodeId → α} {result : β} (same : ∀ label, erase (make label) = result)
    (kept : ∀ label, (labels (make label)).Subperm (held ++ [label])) :
    Draws held erase labels (fresh >>= fun label => pure (make label)) (pure result) := by
  intro first next stop tokens numbers
  refine ⟨congrArg some (same next), rfl, rfl, Nat.le_succ_of_le numbers.ordered, ?_⟩
  intro given found
  cases found
  exact numbered_fewer _ _ _ _ (numbered_append first next _ held [next] numbers (numbered_one next)) (kept next)

-- What is read apart goes behind what is held.
theorem draws_apart {drawing : Drawing α} {reading : Reading β} (alone : Draws [] erase labels drawing reading) :
    Draws held erase (fun value => held ++ labels value) drawing reading := by
  intro first next stop tokens numbers
  obtain ⟨result, rest, errors, later, numbered⟩ := alone next next stop tokens (numbered_none next)
  exact ⟨result, rest, errors, Nat.le_trans numbers.ordered later, fun value found =>
    numbered_append first next _ held _ numbers (numbered value found)⟩

theorem draws_some {drawing : Drawing α} {reading : Reading β} (alone : Draws held erase labels drawing reading) :
    Draws held (Option.map erase) (fun value => value.elim [] labels) (some <$> drawing) (some <$> reading) :=
  draws_bind alone fun _ => draws_pure (List.Subperm.refl _)

theorem draws_recover {drawing : Drawing α} {reading : Reading β} (alone : Draws held erase labels drawing reading) :
    Draws held (Option.map erase) (fun value => value.elim [] labels) drawing.recover reading.recover := by
  intro first next stop tokens numbers
  have early := alone first next stop tokens numbers
  simp only [Drawing.recover, Reading.recover]
  generalize drawing next stop tokens = drawn at early ⊢
  generalize reading stop tokens = reply at early ⊢
  obtain ⟨⟨given, rest, errors⟩, after⟩ := drawn
  obtain ⟨result, left, mistakes⟩ := reply
  obtain ⟨same, sameRest, sameErrors, later, numbered⟩ := early
  cases same
  cases sameRest
  cases sameErrors
  cases given with
  | none =>
      refine ⟨rfl, rfl, rfl, later, fun _ found => ?_⟩
      cases found
      exact numbered_nil first after later
  | some value =>
      refine ⟨rfl, rfl, rfl, later, fun _ found => ?_⟩
      cases found
      exact numbered value rfl

end Drawing

def Expr.labels (expr : Expr NodeId) : List Nat := expr.uses.map Use.label

def Expr.labelsAll (exprs : List (Expr NodeId)) : List Nat := (Expr.usesAll exprs).map Use.label

theorem join_labels (tier : Level) (left : Expr NodeId) (operator : Token) (right : Expr NodeId) :
    (tier.join left operator right).labels = left.labels ++ right.labels := by
  cases tier <;> exact List.map_append

theorem join_strip (tier : Level) (left : Expr NodeId) (operator : Token) (right : Expr NodeId) :
    (tier.join left operator right).strip = tier.join left.strip operator right.strip := by
  cases tier <;> rfl

namespace Drawing

open Reading

-- What the readings of expressions draw. Where a reading goes on from a tree, it holds the numbers of that tree.
structure AllDraw (bound : Nat) : Prop where
  expr : ∀ commas, Draws [] Expr.strip Expr.labels (expr bound commas) (readExpr bound commas)
  level : ∀ commas tier, Draws [] Expr.strip Expr.labels (level bound commas tier) (readLevel bound commas tier)
  joined : ∀ commas tier left, Draws left.labels Expr.strip Expr.labels (joined bound commas tier left)
    (readJoined bound commas tier left.strip)
  operand : ∀ commas tier, Draws [] Expr.strip Expr.labels (operand bound commas tier) (readOperand bound commas tier)
  sequence : ∀ commas, Draws [] Expr.strip Expr.labels (sequence bound commas) (readSequence bound commas)
  ternary : ∀ commas, Draws [] Expr.strip Expr.labels (ternary bound commas) (readTernary bound commas)
  unary : Draws [] Expr.strip Expr.labels (unary bound) (readUnary bound)
  calls : ∀ callee, Draws callee.labels Expr.strip Expr.labels (calls bound callee) (readCalls bound callee.strip)
  arguments : ∀ count, Draws [] Expr.stripAll Expr.labelsAll (arguments bound count) (readArguments bound count)
  primary : Draws [] Expr.strip Expr.labels (primary bound) (readPrimary bound)

section step

variable (bound : Nat) (ih : AllDraw bound)

include ih

-- The number of the target is left out, whether an assignment takes its place or the value stands alone.
theorem expr_draws (commas : Bool) :
    Draws [] Expr.strip Expr.labels (expr (bound + 1) commas) (readExpr (bound + 1) commas) := by
  refine draws_bind (ih.level commas .disjunction) fun target => ?_
  refine draws_bind draws_plain fun taken => ?_
  cases taken with
  | none => exact draws_pure (List.Subperm.refl _)
  | some equals =>
      refine draws_bind (draws_apart (ih.expr commas)) fun value => ?_
      have valueKept : value.labels.Subperm (target.labels ++ value.labels) :=
        (List.sublist_append_right target.labels value.labels).subperm
      cases target with
      | var old name =>
          refine draws_fresh (fun _ => rfl) fun label => ?_
          have own : (Expr.assign label name value).labels = value.labels ++ [label] := List.map_append
          rw [own]
          exact valueKept.append (List.Subperm.refl [label])
      | _ => exact draws_bind draws_plain fun _ => draws_pure valueKept

theorem joined_draws (commas : Bool) (tier : Level) (left : Expr NodeId) :
    Draws left.labels Expr.strip Expr.labels (joined (bound + 1) commas tier left)
      (readJoined (bound + 1) commas tier left.strip) := by
  refine draws_bind draws_plain fun taken => ?_
  cases taken with
  | none => exact draws_pure (List.Subperm.refl _)
  | some operator =>
      refine draws_bind (draws_apart (ih.operand commas tier)) fun right => ?_
      have rest := ih.joined commas tier (tier.join left operator right)
      rw [join_labels, join_strip] at rest
      exact rest

theorem operand_draws (commas : Bool) (tier : Level) :
    Draws [] Expr.strip Expr.labels (operand (bound + 1) commas tier) (readOperand (bound + 1) commas tier) := by
  cases tier with
  | disjunction => exact ih.level commas .conjunction
  | conjunction => exact ih.sequence commas
  | sequence => exact ih.ternary commas
  | equality => exact ih.level commas .comparison
  | comparison => exact ih.level commas .term
  | term => exact ih.level commas .factor
  | factor => exact ih.unary

theorem sequence_draws (commas : Bool) :
    Draws [] Expr.strip Expr.labels (sequence (bound + 1) commas) (readSequence (bound + 1) commas) := by
  refine draws_bind draws_plain fun taken => ?_
  cases taken with
  | none => exact ih.level commas .sequence
  | some operator =>
      refine draws_bind draws_plain fun _ => ?_
      exact draws_bind (ih.level commas .sequence) fun dropped => draws_pure (List.nil_subperm ..)

theorem ternary_draws (commas : Bool) :
    Draws [] Expr.strip Expr.labels (ternary (bound + 1) commas) (readTernary (bound + 1) commas) := by
  refine draws_bind (ih.level commas .equality) fun condition => ?_
  refine draws_bind draws_plain fun taken => ?_
  cases taken with
  | none => exact draws_pure (List.Subperm.refl _)
  | some question =>
      refine draws_bind (draws_apart (ih.expr commas)) fun yes => ?_
      refine draws_bind draws_plain fun _ => ?_
      refine draws_bind (draws_apart (ih.expr commas)) fun no => draws_pure ?_
      have own : (Expr.ternary condition yes no).labels = condition.labels ++ yes.labels ++ no.labels := by
        simp only [Expr.labels, Expr.uses, List.map_append]
      rw [own]

theorem unary_draws : Draws [] Expr.strip Expr.labels (unary (bound + 1)) (readUnary (bound + 1)) := by
  refine draws_bind draws_plain fun taken => ?_
  cases taken with
  | none => exact draws_bind ih.primary fun callee => ih.calls callee
  | some operator => exact draws_bind ih.unary fun operand => draws_pure (List.Subperm.refl _)

theorem calls_draws (callee : Expr NodeId) :
    Draws callee.labels Expr.strip Expr.labels (calls (bound + 1) callee) (readCalls (bound + 1) callee.strip) := by
  refine draws_bind draws_plain fun taken => ?_
  cases taken with
  | none => exact draws_pure (List.Subperm.refl _)
  | some opening =>
      have behind (given : List (Expr NodeId)) : Draws (callee.labels ++ Expr.labelsAll given) Expr.strip Expr.labels
          (plain (expect .rightParen .parenAfterArguments) >>= fun close => calls bound (.call callee close given))
          (expect .rightParen .parenAfterArguments >>= fun close =>
            readCalls bound (.call callee.strip close (Expr.stripAll given))) := by
        refine draws_bind draws_plain fun close => ?_
        have own : (Expr.call callee close given).labels = callee.labels ++ Expr.labelsAll given := List.map_append
        rw [← own]
        exact ih.calls (.call callee close given)
      refine draws_bind draws_plain fun closed => ?_
      cases closed with
      | true =>
          have same : callee.labels ++ Expr.labelsAll [] = callee.labels := List.append_nil _
          have nothing : Draws callee.labels Expr.stripAll (fun given => callee.labels ++ Expr.labelsAll given)
              (pure []) (pure []) := draws_pure (by rw [same])
          exact draws_bind nothing behind
      | false => exact draws_bind (draws_apart (ih.arguments 0)) behind

theorem arguments_draws (count : Nat) :
    Draws [] Expr.stripAll Expr.labelsAll (arguments (bound + 1) count) (readArguments (bound + 1) count) := by
  have single (first : Expr NodeId) : Expr.labelsAll [first] = first.labels := by
    simp [Expr.labelsAll, Expr.labels, Expr.usesAll]
  have more (first : Expr NodeId) (rest : List (Expr NodeId)) :
      Expr.labelsAll (first :: rest) = first.labels ++ Expr.labelsAll rest := List.map_append
  rw [arguments, readArguments]
  split
  focus refine draws_bind draws_plain fun token => draws_bind draws_plain fun _ => ?_
  -- With or without a report, the arguments follow.
  all_goals
    refine draws_bind (ih.expr false) fun first => ?_
    refine draws_bind draws_plain fun taken => ?_
    cases taken with
    | none => exact draws_pure (single first ▸ List.Subperm.refl _)
    | some comma =>
        exact draws_bind (draws_apart (ih.arguments (count + 1))) fun rest =>
          draws_pure (more first rest ▸ List.Subperm.refl _)

theorem primary_draws : Draws [] Expr.strip Expr.labels (primary (bound + 1)) (readPrimary (bound + 1)) := by
  refine draws_bind draws_plain fun token => ?_
  simp only [id]
  generalize token.kind = kind
  cases kind with
  | kwFalse | kwTrue | kwNil => exact draws_bind draws_plain fun _ => draws_pure (List.nil_subperm ..)
  | number | stringLiteral =>
      refine draws_bind draws_plain fun _ => ?_
      cases token.literal with
      | none => exact draws_fail _ _
      | some literal => exact draws_pure (List.nil_subperm ..)
  | identifier => exact draws_bind draws_plain fun _ => draws_fresh (fun _ => rfl) fun _ => List.Subperm.refl _
  | leftParen =>
      refine draws_bind draws_plain fun _ => ?_
      refine draws_bind (ih.expr true) fun inner => ?_
      exact draws_bind draws_plain fun _ => draws_pure (List.Subperm.refl _)
  | _ => exact draws_fail _ _

end step

theorem all_draw (bound : Nat) : AllDraw bound := by
  induction bound with
  | zero => constructor <;> intros <;> exact draws_failHere _
  | succ bound ih =>
      constructor
      case expr => exact expr_draws bound ih
      case level =>
        exact fun commas tier => draws_bind (ih.operand commas tier) fun first => ih.joined commas tier first
      case joined => exact joined_draws bound ih
      case operand => exact operand_draws bound ih
      case sequence => exact sequence_draws bound ih
      case ternary => exact ternary_draws bound ih
      case unary => exact unary_draws bound ih
      case calls => exact calls_draws bound ih
      case arguments => exact arguments_draws bound ih
      case primary => exact primary_draws bound ih

end Drawing

end Treewalk
