import Treewalk.Proofs.Mentions

/-!
Numbers of uses. Loading a program gives each use of a name a number of its own, not used before, and changes
nothing else in the tree.
-/

set_option autoImplicit false

namespace Treewalk

variable {ν : Type}

-- A tree without its labels.

mutual
def Expr.strip : Expr ν → Expr Unit
  | .literal value => .literal value
  | .group inner => .group inner.strip
  | .unary operator operand => .unary operator operand.strip
  | .binary left operator right => .binary left.strip operator right.strip
  | .logical left operator right => .logical left.strip operator right.strip
  | .ternary condition yes no => .ternary condition.strip yes.strip no.strip
  | .comma first second => .comma first.strip second.strip
  | .var _ name => .var () name
  | .assign _ name value => .assign () name value.strip
  | .call callee close arguments => .call callee.strip close (Expr.stripAll arguments)
def Expr.stripAll : List (Expr ν) → List (Expr Unit)
  | [] => []
  | first :: rest => first.strip :: Expr.stripAll rest
end

mutual
def Stmt.strip : Stmt ν → Stmt Unit
  | .ret keyword value => .ret keyword (value.map Expr.strip)
  | .print keyword value => .print keyword value.strip
  | .expr value => .expr value.strip
  | .var name value => .var name (value.map Expr.strip)
  | .block body => .block (Stmt.stripAll body)
  | .func name params body => .func name params (Stmt.stripAll body)
  | .branch condition yes none => .branch condition.strip yes.strip none
  | .branch condition yes (some no) => .branch condition.strip yes.strip (some no.strip)
  | .loop condition body => .loop condition.strip body.strip
def Stmt.stripAll : List (Stmt ν) → List (Stmt Unit)
  | [] => []
  | first :: rest => first.strip :: Stmt.stripAll rest
end

-- The numbers taken from `first` up to `last`, each at most once.
structure Numbered (first last : Nat) (labels : List Nat) : Prop where
  ordered : first ≤ last
  inside : ∀ label ∈ labels, first ≤ label ∧ label < last
  distinct : labels.Nodup

theorem numbered_none (first : Nat) : Numbered first first [] :=
  ⟨Nat.le_refl first, by simp, List.nodup_nil⟩

theorem numbered_append (first middle last : Nat) (before after : List Nat)
    (left : Numbered first middle before) (right : Numbered middle last after) :
    Numbered first last (before ++ after) := by
  have ordered := left.ordered
  have later := right.ordered
  constructor
  · omega
  · intro label found
    rcases List.mem_append.mp found with inLeft | inRight
    · have bounds := left.inside label inLeft
      omega
    · have bounds := right.inside label inRight
      omega
  · rw [List.nodup_append]
    constructor
    · exact left.distinct
    constructor
    · exact right.distinct
    intro label inLeft other inRight same
    have below := left.inside label inLeft
    have above := right.inside other inRight
    omega

-- A number taken before all others may stand behind them.
theorem numbered_last (first last : Nat) (labels : List Nat) (later : Numbered (first + 1) last labels) :
    Numbered first last (labels ++ [first]) := by
  have ordered := later.ordered
  constructor
  · omega
  · intro label found
    rcases List.mem_append.mp found with inside | own
    · have bounds := later.inside label inside
      omega
    · cases List.mem_singleton.mp own
      omega
  · rw [List.nodup_append]
    constructor
    · exact later.distinct
    constructor
    · exact List.nodup_cons.mpr ⟨by simp, List.nodup_nil⟩
    intro label inside other own same
    have bounds := later.inside label inside
    cases List.mem_singleton.mp own
    omega

theorem numbered_one (label : Nat) : Numbered label (label + 1) [label] := by
  have last := numbered_last label (label + 1) [] (numbered_none (label + 1))
  exact last

-- Trees with their labels numbered from a number on, and the next number.

def Expr.numbered (first : NodeId) (expr : Expr Unit) : Expr NodeId × NodeId := (expr.relabel NodeId.fresh).run first

def Expr.numberedAll (first : NodeId) (exprs : List (Expr Unit)) : List (Expr NodeId) × NodeId :=
  (Expr.relabelAll NodeId.fresh exprs).run first

def Expr.numberedOption (first : NodeId) (value : Option (Expr Unit)) : Option (Expr NodeId) × NodeId :=
  (Expr.relabelOption NodeId.fresh value).run first

def Stmt.numbered (first : NodeId) (stmt : Stmt Unit) : Stmt NodeId × NodeId := (stmt.relabel NodeId.fresh).run first

def Stmt.numberedAll (first : NodeId) (stmts : List (Stmt Unit)) : List (Stmt NodeId) × NodeId :=
  (Stmt.relabelAll NodeId.fresh stmts).run first

mutual
theorem Expr.strip_numbered : (expr : Expr Unit) → (first : NodeId) → (expr.numbered first).1.strip = expr
  | .literal _, _ => rfl
  | .group inner, first => congrArg Expr.group (Expr.strip_numbered inner first)
  | .unary operator operand, first => congrArg (Expr.unary operator) (Expr.strip_numbered operand first)
  | .binary left operator right, first =>
      congr (congrArg (Expr.binary · operator) (Expr.strip_numbered left first)) (Expr.strip_numbered right _)
  | .logical left operator right, first =>
      congr (congrArg (Expr.logical · operator) (Expr.strip_numbered left first)) (Expr.strip_numbered right _)
  | .ternary condition yes no, first =>
      congr (congr (congrArg Expr.ternary (Expr.strip_numbered condition first)) (Expr.strip_numbered yes _))
        (Expr.strip_numbered no _)
  | .comma left right, first =>
      congr (congrArg Expr.comma (Expr.strip_numbered left first)) (Expr.strip_numbered right _)
  | .var _ _, _ => rfl
  | .assign _ name value, first => congrArg (Expr.assign () name) (Expr.strip_numbered value (first + 1))
  | .call callee close arguments, first =>
      congr (congrArg (Expr.call · close) (Expr.strip_numbered callee first)) (Expr.stripAll_numbered arguments _)
theorem Expr.stripAll_numbered : (exprs : List (Expr Unit)) → (first : NodeId) →
    Expr.stripAll (Expr.numberedAll first exprs).1 = exprs
  | [], _ => rfl
  | expr :: rest, first =>
      congr (congrArg List.cons (Expr.strip_numbered expr first)) (Expr.stripAll_numbered rest _)
end

theorem Expr.stripOption_numbered (value : Option (Expr Unit)) (first : NodeId) :
    (Expr.numberedOption first value).1.map Expr.strip = value := by
  cases value with
  | none => rfl
  | some value => exact congrArg some (Expr.strip_numbered value first)

mutual
theorem Stmt.strip_numbered : (stmt : Stmt Unit) → (first : NodeId) → (stmt.numbered first).1.strip = stmt
  | .ret keyword value, first => congrArg (Stmt.ret keyword) (Expr.stripOption_numbered value first)
  | .print keyword value, first => congrArg (Stmt.print keyword) (Expr.strip_numbered value first)
  | .expr value, first => congrArg Stmt.expr (Expr.strip_numbered value first)
  | .var name value, first => congrArg (Stmt.var name) (Expr.stripOption_numbered value first)
  | .block body, first => congrArg Stmt.block (Stmt.stripAll_numbered body first)
  | .func name params body, first => congrArg (Stmt.func name params) (Stmt.stripAll_numbered body first)
  | .branch condition yes none, first =>
      congr (congrArg (Stmt.branch · · none) (Expr.strip_numbered condition first)) (Stmt.strip_numbered yes _)
  | .branch condition yes (some no), first =>
      congr (congr (congrArg Stmt.branch (Expr.strip_numbered condition first)) (Stmt.strip_numbered yes _))
        (congrArg some (Stmt.strip_numbered no _))
  | .loop condition body, first =>
      congr (congrArg Stmt.loop (Expr.strip_numbered condition first)) (Stmt.strip_numbered body _)
theorem Stmt.stripAll_numbered : (stmts : List (Stmt Unit)) → (first : NodeId) →
    Stmt.stripAll (Stmt.numberedAll first stmts).1 = stmts
  | [], _ => rfl
  | stmt :: rest, first =>
      congr (congrArg List.cons (Stmt.strip_numbered stmt first)) (Stmt.stripAll_numbered rest _)
end

-- The labels in the order of the mentions, each numbered once.

mutual
theorem Expr.numbered_labels : (expr : Expr Unit) → (first : NodeId) →
    Numbered first (expr.numbered first).2 ((expr.numbered first).1.uses.map Use.label)
  | .literal _, first => numbered_none first
  | .group inner, first => Expr.numbered_labels inner first
  | .unary _ operand, first => Expr.numbered_labels operand first
  | .binary left _ right, first => by
      have both := numbered_append _ _ _ _ _ (Expr.numbered_labels left first) (Expr.numbered_labels right _)
      rwa [← List.map_append] at both
  | .logical left _ right, first => by
      have both := numbered_append _ _ _ _ _ (Expr.numbered_labels left first) (Expr.numbered_labels right _)
      rwa [← List.map_append] at both
  | .ternary condition yes no, first => by
      have both := numbered_append _ _ _ _ _ (Expr.numbered_labels condition first) (Expr.numbered_labels yes _)
      have all := numbered_append _ _ _ _ _ both (Expr.numbered_labels no _)
      rwa [← List.map_append, ← List.map_append] at all
  | .comma left right, first => by
      have both := numbered_append _ _ _ _ _ (Expr.numbered_labels left first) (Expr.numbered_labels right _)
      rwa [← List.map_append] at both
  | .var _ _, first => numbered_one first
  | .assign _ name value, first => by
      have last := numbered_last _ _ _ (Expr.numbered_labels value (first + 1))
      change Numbered _ _ (((value.numbered (first + 1)).1.uses ++ [(⟨first, name, true⟩ : Use NodeId)]).map Use.label)
      rwa [List.map_append]
  | .call callee _ arguments, first => by
      have both := numbered_append _ _ _ _ _ (Expr.numbered_labels callee first) (Expr.numberedAll_labels arguments _)
      rwa [← List.map_append] at both
theorem Expr.numberedAll_labels : (exprs : List (Expr Unit)) → (first : NodeId) →
    Numbered first (Expr.numberedAll first exprs).2 ((Expr.usesAll (Expr.numberedAll first exprs).1).map Use.label)
  | [], first => numbered_none first
  | expr :: rest, first => by
      have both := numbered_append _ _ _ _ _ (Expr.numbered_labels expr first) (Expr.numberedAll_labels rest _)
      rwa [← List.map_append] at both
end

theorem Expr.numberedOption_labels (value : Option (Expr Unit)) (first : NodeId) :
    Numbered first (Expr.numberedOption first value).2
      ((Expr.usesOption (Expr.numberedOption first value).1).map Use.label) := by
  cases value with
  | none => exact numbered_none first
  | some value => exact Expr.numbered_labels value first

def Mention.labels : Mention ν → List ν
  | .use mentioned _ => [mentioned.label]
  | .binding _ _ => []
  | .leaving _ _ => []

theorem labels_of_uses (uses : List (Use ν)) (scopes : List Scope) :
    (uses.map (Mention.use · scopes)).flatMap Mention.labels = uses.map Use.label := by
  induction uses with
  | nil => rfl
  | cons first rest ih => simp [Mention.labels, ih]

theorem labels_of_bindings (params : List Token) : ∀ scopes : List Scope,
    (bindingMentions (ν := ν) scopes params).flatMap Mention.labels = [] := by
  induction params with
  | nil => exact fun _ => rfl
  | cons first rest ih => exact fun scopes => ih (Scope.bind first scopes)

mutual
theorem Stmt.numbered_labels : (stmt : Stmt Unit) → (first : NodeId) → (inFunction : Bool) → (scopes : List Scope) →
    Numbered first (stmt.numbered first).2
      (((stmt.numbered first).1.mentions inFunction scopes).flatMap Mention.labels)
  | .ret _ value, first, _, scopes => by
      have labels := Expr.numberedOption_labels value first
      rwa [← labels_of_uses _ scopes] at labels
  | .print _ value, first, _, scopes => by
      have labels := Expr.numbered_labels value first
      rwa [← labels_of_uses _ scopes] at labels
  | .expr value, first, _, scopes => by
      have labels := Expr.numbered_labels value first
      rwa [← labels_of_uses _ scopes] at labels
  | .var name value, first, _, scopes => by
      have labels := Expr.numberedOption_labels value first
      rwa [← labels_of_uses _ (Scope.declare name scopes)] at labels
  | .block body, first, inFunction, scopes => Stmt.numberedAll_labels body first inFunction ([] :: scopes)
  | .func name params body, first, _, scopes => by
      have labels := Stmt.numberedAll_labels body first true (Scope.bindAll ([] :: Scope.bind name scopes) params)
      change Numbered _ _ ((bindingMentions _ params ++ Stmt.mentionsAll true _ _).flatMap Mention.labels)
      rwa [List.flatMap_append, labels_of_bindings]
  | .branch condition yes none, first, inFunction, scopes => by
      have ofCondition := Expr.numbered_labels condition first
      rw [← labels_of_uses _ scopes] at ofCondition
      have both := numbered_append _ _ _ _ _ ofCondition (Stmt.numbered_labels yes _ inFunction scopes)
      rwa [← List.flatMap_append] at both
  | .branch condition yes (some no), first, inFunction, scopes => by
      have ofCondition := Expr.numbered_labels condition first
      rw [← labels_of_uses _ scopes] at ofCondition
      have both := numbered_append _ _ _ _ _ ofCondition (Stmt.numbered_labels yes _ inFunction scopes)
      have all := numbered_append _ _ _ _ _ both (Stmt.numbered_labels no _ inFunction
        ((yes.numbered (condition.numbered first).2).1.after scopes))
      rwa [← List.flatMap_append, ← List.flatMap_append] at all
  | .loop condition body, first, inFunction, scopes => by
      have ofCondition := Expr.numbered_labels condition first
      rw [← labels_of_uses _ scopes] at ofCondition
      have both := numbered_append _ _ _ _ _ ofCondition (Stmt.numbered_labels body _ inFunction scopes)
      rwa [← List.flatMap_append] at both
theorem Stmt.numberedAll_labels : (stmts : List (Stmt Unit)) → (first : NodeId) → (inFunction : Bool) →
    (scopes : List Scope) → Numbered first (Stmt.numberedAll first stmts).2
      ((Stmt.mentionsAll inFunction scopes (Stmt.numberedAll first stmts).1).flatMap Mention.labels)
  | [], first, _, _ => numbered_none first
  | stmt :: rest, first, inFunction, scopes => by
      have both := numbered_append _ _ _ _ _ (Stmt.numbered_labels stmt first inFunction scopes)
        (Stmt.numberedAll_labels rest _ inFunction ((stmt.numbered first).1.after scopes))
      rwa [← List.flatMap_append] at both
end

-- Labels play no part in what is misused.

def Use.strip (use : Use ν) : Use Unit := ⟨(), use.name, use.writes⟩

def Mention.strip : Mention ν → Mention Unit
  | .use mentioned scopes => .use mentioned.strip scopes
  | .binding name scopes => .binding name scopes
  | .leaving inFunction keyword => .leaving inFunction keyword

mutual
theorem Expr.uses_strip : (expr : Expr ν) → expr.strip.uses = expr.uses.map Use.strip
  | .literal _ => rfl
  | .group inner => Expr.uses_strip inner
  | .unary _ operand => Expr.uses_strip operand
  | .binary left _ right => by simp [Expr.strip, Expr.uses, Expr.uses_strip left, Expr.uses_strip right]
  | .logical left _ right => by simp [Expr.strip, Expr.uses, Expr.uses_strip left, Expr.uses_strip right]
  | .ternary condition yes no => by
      simp [Expr.strip, Expr.uses, Expr.uses_strip condition, Expr.uses_strip yes, Expr.uses_strip no]
  | .comma first second => by simp [Expr.strip, Expr.uses, Expr.uses_strip first, Expr.uses_strip second]
  | .var _ _ => rfl
  | .assign _ _ value => by simp [Expr.strip, Expr.uses, Expr.uses_strip value, Use.strip]
  | .call callee _ arguments => by
      simp [Expr.strip, Expr.uses, Expr.uses_strip callee, Expr.usesAll_strip arguments]
theorem Expr.usesAll_strip : (exprs : List (Expr ν)) →
    Expr.usesAll (Expr.stripAll exprs) = (Expr.usesAll exprs).map Use.strip
  | [] => rfl
  | first :: rest => by
      simp [Expr.stripAll, Expr.usesAll, Expr.uses_strip first, Expr.usesAll_strip rest]
end

theorem Expr.usesOption_strip (value : Option (Expr ν)) :
    Expr.usesOption (value.map Expr.strip) = (Expr.usesOption value).map Use.strip := by
  cases value with
  | none => rfl
  | some value => exact Expr.uses_strip value

theorem bindingMentions_strip (params : List Token) : ∀ scopes : List Scope,
    bindingMentions scopes params = (bindingMentions (ν := ν) scopes params).map Mention.strip := by
  induction params with
  | nil => exact fun _ => rfl
  | cons first rest ih => exact fun scopes => congrArg _ (ih (Scope.bind first scopes))

theorem Stmt.after_strip (stmt : Stmt ν) (scopes : List Scope) : stmt.strip.after scopes = stmt.after scopes := by
  cases stmt with
  | ret | print | expr | var | block | func => rfl
  | branch condition yes no =>
      cases no with
      | none => exact Stmt.after_strip yes scopes
      | some no => simp [Stmt.strip, Stmt.after, Stmt.after_strip yes scopes, Stmt.after_strip no]
  | loop condition body => exact Stmt.after_strip body scopes

mutual
theorem Stmt.mentions_strip : (stmt : Stmt ν) → (inFunction : Bool) → (scopes : List Scope) →
    stmt.strip.mentions inFunction scopes = (stmt.mentions inFunction scopes).map Mention.strip
  | .ret _ value, _, _ => by simp [Stmt.strip, Stmt.mentions, Mention.strip, Expr.usesOption_strip]
  | .print _ value, _, _ => by simp [Stmt.strip, Stmt.mentions, Mention.strip, Expr.uses_strip]
  | .expr value, _, _ => by simp [Stmt.strip, Stmt.mentions, Mention.strip, Expr.uses_strip]
  | .var name value, _, _ => by simp [Stmt.strip, Stmt.mentions, Mention.strip, Expr.usesOption_strip]
  | .block body, inFunction, scopes => Stmt.mentionsAll_strip body inFunction ([] :: scopes)
  | .func name params body, inFunction, scopes => by
      simp [Stmt.strip, Stmt.mentions, Mention.strip, bindingMentions_strip (ν := ν) params,
        Stmt.mentionsAll_strip body]
  | .branch condition yes none, inFunction, scopes => by
      simp [Stmt.strip, Stmt.mentions, Mention.strip, Expr.uses_strip, Stmt.mentions_strip yes]
  | .branch condition yes (some no), inFunction, scopes => by
      simp [Stmt.strip, Stmt.mentions, Mention.strip, Expr.uses_strip, Stmt.mentions_strip yes,
        Stmt.mentions_strip no, Stmt.after_strip]
  | .loop condition body, inFunction, scopes => by
      simp [Stmt.strip, Stmt.mentions, Mention.strip, Expr.uses_strip, Stmt.mentions_strip body]
theorem Stmt.mentionsAll_strip : (stmts : List (Stmt ν)) → (inFunction : Bool) → (scopes : List Scope) →
    Stmt.mentionsAll inFunction scopes (Stmt.stripAll stmts) =
      (Stmt.mentionsAll inFunction scopes stmts).map Mention.strip
  | [], _, _ => rfl
  | first :: rest, inFunction, scopes => by
      simp [Stmt.stripAll, Stmt.mentionsAll, Stmt.mentions_strip first, Stmt.mentionsAll_strip rest, Stmt.after_strip]
end

end Treewalk
