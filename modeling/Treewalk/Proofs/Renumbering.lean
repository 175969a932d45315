import Treewalk.Proofs.PairedRuns

/-!
Programs under other numbers. A program that is numbered from two places on gives trees that differ in their numbers
only, and mentions the same names in the same scopes. So two machines that know the same about numbers that stand for
each other still do when both have analysed the program.
-/

set_option autoImplicit false

namespace Treewalk.Paired

variable (pairing : Pairing)

-- The numbers from two places on stand for each other, one by one.
def Pairing.Aligned (next next' : NodeId) : Prop := ∀ count : Nat, pairing.labels (next + count) (next' + count)

variable {pairing}

theorem aligned_later (next next' : NodeId) (aligned : pairing.Aligned next next') :
    pairing.Aligned (next + 1) (next' + 1) := by
  intro count
  rw [Nat.add_right_comm, Nat.add_right_comm next']
  exact aligned (count + 1)

-- The trees are paired, and so are the numbers behind them.

mutual
theorem exprPair_numbered (itself : ∀ token, pairing.tokens token token) : (expr : Expr Unit) →
    (next next' : NodeId) → pairing.Aligned next next' →
    ExprPair pairing (expr.numbered next).1 (expr.numbered next').1 ∧
      pairing.Aligned (expr.numbered next).2 (expr.numbered next').2
  | .literal value, _, _, aligned => ⟨.literal value, aligned⟩
  | .group inner, next, next', aligned => by
      obtain ⟨whole, last⟩ := exprPair_numbered itself inner next next' aligned
      exact ⟨.group _ _ whole, last⟩
  | .unary operator operand, next, next', aligned => by
      obtain ⟨operands, last⟩ := exprPair_numbered itself operand next next' aligned
      exact ⟨.unary _ _ _ _ (itself operator) operands, last⟩
  | .binary left operator right, next, next', aligned => by
      obtain ⟨lefts, middle⟩ := exprPair_numbered itself left next next' aligned
      obtain ⟨rights, last⟩ := exprPair_numbered itself right _ _ middle
      exact ⟨.binary _ _ _ _ _ _ (itself operator) lefts rights, last⟩
  | .logical left operator right, next, next', aligned => by
      obtain ⟨lefts, middle⟩ := exprPair_numbered itself left next next' aligned
      obtain ⟨rights, last⟩ := exprPair_numbered itself right _ _ middle
      exact ⟨.logical _ _ _ _ _ _ (itself operator) lefts rights, last⟩
  | .ternary condition yes no, next, next', aligned => by
      obtain ⟨conditions, tested⟩ := exprPair_numbered itself condition next next' aligned
      obtain ⟨chosen, middle⟩ := exprPair_numbered itself yes _ _ tested
      obtain ⟨unchosen, last⟩ := exprPair_numbered itself no _ _ middle
      exact ⟨.ternary _ _ _ _ _ _ conditions chosen unchosen, last⟩
  | .comma first second, next, next', aligned => by
      obtain ⟨firsts, middle⟩ := exprPair_numbered itself first next next' aligned
      obtain ⟨seconds, last⟩ := exprPair_numbered itself second _ _ middle
      exact ⟨.comma _ _ _ _ firsts seconds, last⟩
  | .var _ name, next, next', aligned =>
      ⟨.var next next' _ _ (aligned 0) (itself name), aligned_later next next' aligned⟩
  | .assign _ name value, next, next', aligned => by
      obtain ⟨values, last⟩ := exprPair_numbered itself value _ _ (aligned_later next next' aligned)
      exact ⟨.assign next next' _ _ _ _ (aligned 0) (itself name) values, last⟩
  | .call callee close arguments, next, next', aligned => by
      obtain ⟨callees, middle⟩ := exprPair_numbered itself callee next next' aligned
      obtain ⟨given, last⟩ := exprPairAll_numbered itself arguments _ _ middle
      exact ⟨.call _ _ _ _ _ _ callees (itself close) given, last⟩
theorem exprPairAll_numbered (itself : ∀ token, pairing.tokens token token) : (exprs : List (Expr Unit)) →
    (next next' : NodeId) → pairing.Aligned next next' →
    ExprPairAll pairing (Expr.numberedAll next exprs).1 (Expr.numberedAll next' exprs).1 ∧
      pairing.Aligned (Expr.numberedAll next exprs).2 (Expr.numberedAll next' exprs).2
  | [], _, _, aligned => ⟨.nil, aligned⟩
  | first :: rest, next, next', aligned => by
      obtain ⟨firsts, middle⟩ := exprPair_numbered itself first next next' aligned
      obtain ⟨others, last⟩ := exprPairAll_numbered itself rest _ _ middle
      exact ⟨.cons _ _ _ _ firsts others, last⟩
end

theorem params_itself (itself : ∀ token, pairing.tokens token token) (params : List Token) :
    List.Forall₂ pairing.tokens params params :=
  List.forall₂_same.mpr fun param _ => itself param

mutual
theorem stmtPair_numbered (itself : ∀ token, pairing.tokens token token) : (stmt : Stmt Unit) →
    (next next' : NodeId) → pairing.Aligned next next' →
    StmtPair pairing (stmt.numbered next).1 (stmt.numbered next').1 ∧
      pairing.Aligned (stmt.numbered next).2 (stmt.numbered next').2
  | .ret keyword none, _, _, aligned => ⟨.leave keyword keyword, aligned⟩
  | .ret keyword (some value), next, next', aligned => by
      obtain ⟨values, last⟩ := exprPair_numbered itself value next next' aligned
      exact ⟨.ret keyword keyword _ _ values, last⟩
  | .print keyword value, next, next', aligned => by
      obtain ⟨values, last⟩ := exprPair_numbered itself value next next' aligned
      exact ⟨.print _ _ _ _ (itself keyword) values, last⟩
  | .expr value, next, next', aligned => by
      obtain ⟨values, last⟩ := exprPair_numbered itself value next next' aligned
      exact ⟨.expr _ _ values, last⟩
  | .var name none, _, _, aligned => ⟨.declare _ _ (itself name), aligned⟩
  | .var name (some value), next, next', aligned => by
      obtain ⟨values, last⟩ := exprPair_numbered itself value next next' aligned
      exact ⟨.var _ _ _ _ (itself name) values, last⟩
  | .block body, next, next', aligned => by
      obtain ⟨bodies, last⟩ := stmtPairAll_numbered itself body next next' aligned
      exact ⟨.block _ _ bodies, last⟩
  | .func name params body, next, next', aligned => by
      obtain ⟨bodies, last⟩ := stmtPairAll_numbered itself body next next' aligned
      exact ⟨.func _ _ _ _ _ _ (itself name) (params_itself itself params) bodies, last⟩
  | .branch condition yes none, next, next', aligned => by
      obtain ⟨conditions, tested⟩ := exprPair_numbered itself condition next next' aligned
      obtain ⟨chosen, last⟩ := stmtPair_numbered itself yes _ _ tested
      exact ⟨.branch _ _ _ _ conditions chosen, last⟩
  | .branch condition yes (some no), next, next', aligned => by
      obtain ⟨conditions, tested⟩ := exprPair_numbered itself condition next next' aligned
      obtain ⟨chosen, middle⟩ := stmtPair_numbered itself yes _ _ tested
      obtain ⟨unchosen, last⟩ := stmtPair_numbered itself no _ _ middle
      exact ⟨.branches _ _ _ _ _ _ conditions chosen unchosen, last⟩
  | .loop condition body, next, next', aligned => by
      obtain ⟨conditions, tested⟩ := exprPair_numbered itself condition next next' aligned
      obtain ⟨bodies, last⟩ := stmtPair_numbered itself body _ _ tested
      exact ⟨.loop _ _ _ _ conditions bodies, last⟩
theorem stmtPairAll_numbered (itself : ∀ token, pairing.tokens token token) : (stmts : List (Stmt Unit)) →
    (next next' : NodeId) → pairing.Aligned next next' →
    StmtPairAll pairing (Stmt.numberedAll next stmts).1 (Stmt.numberedAll next' stmts).1 ∧
      pairing.Aligned (Stmt.numberedAll next stmts).2 (Stmt.numberedAll next' stmts).2
  | [], _, _, aligned => ⟨.nil, aligned⟩
  | first :: rest, next, next', aligned => by
      obtain ⟨firsts, middle⟩ := stmtPair_numbered itself first next next' aligned
      obtain ⟨others, last⟩ := stmtPairAll_numbered itself rest _ _ middle
      exact ⟨.cons _ _ _ _ firsts others, last⟩
end

-- Paired code mentions the same names in the same scopes.

variable (pairing) in
structure UsePair (use use' : Use NodeId) : Prop where
  labels : pairing.labels use.label use'.label
  names : pairing.tokens use.name use'.name
  writes : use.writes = use'.writes

variable (pairing) in
inductive MentionPair : Mention NodeId → Mention NodeId → Prop where
  | use (use use' : Use NodeId) (scopes : List Scope) (uses : UsePair pairing use use') :
      MentionPair (.use use scopes) (.use use' scopes)
  | binding (name name' : Token) (scopes : List Scope) : MentionPair (.binding name scopes) (.binding name' scopes)
  | leaving (inFunction : Bool) (keyword keyword' : Token) :
      MentionPair (.leaving inFunction keyword) (.leaving inFunction keyword')

mutual
theorem exprPair_uses : {expr expr' : Expr NodeId} → ExprPair pairing expr expr' →
    List.Forall₂ (UsePair pairing) expr.uses expr'.uses
  | _, _, .literal _ => .nil
  | _, _, .group _ _ whole => by
      have uses := exprPair_uses whole
      exact uses
  | _, _, .unary _ _ _ _ _ operands => by
      have uses := exprPair_uses operands
      exact uses
  | _, _, .binary _ _ _ _ _ _ _ lefts rights => List.rel_append (exprPair_uses lefts) (exprPair_uses rights)
  | _, _, .logical _ _ _ _ _ _ _ lefts rights => List.rel_append (exprPair_uses lefts) (exprPair_uses rights)
  | _, _, .ternary _ _ _ _ _ _ conditions chosen unchosen =>
      List.rel_append (List.rel_append (exprPair_uses conditions) (exprPair_uses chosen)) (exprPair_uses unchosen)
  | _, _, .comma _ _ _ _ firsts seconds => List.rel_append (exprPair_uses firsts) (exprPair_uses seconds)
  | _, _, .var _ _ _ _ labels names => .cons ⟨labels, names, rfl⟩ .nil
  | _, _, .assign _ _ _ _ _ _ labels names values =>
      List.rel_append (exprPair_uses values) (.cons ⟨labels, names, rfl⟩ .nil)
  | _, _, .call _ _ _ _ _ _ callees _ given => List.rel_append (exprPair_uses callees) (exprPairAll_uses given)
theorem exprPairAll_uses : {exprs exprs' : List (Expr NodeId)} → ExprPairAll pairing exprs exprs' →
    List.Forall₂ (UsePair pairing) (Expr.usesAll exprs) (Expr.usesAll exprs')
  | _, _, .nil => .nil
  | _, _, .cons _ _ _ _ firsts others => List.rel_append (exprPair_uses firsts) (exprPairAll_uses others)
end

theorem exprPair_mentions {expr expr' : Expr NodeId} (scopes : List Scope) (exprs : ExprPair pairing expr expr') :
    List.Forall₂ (MentionPair pairing) (expr.uses.map (.use · scopes)) (expr'.uses.map (.use · scopes)) := by
  rw [List.forall₂_map_left_iff, List.forall₂_map_right_iff]
  exact (exprPair_uses exprs).imp fun use use' uses => .use use use' scopes uses

-- Scopes hold texts of names, which paired tokens share.

theorem declare_paired (name name' : Token) (names : pairing.tokens name name') (scopes : List Scope) :
    Scope.declare name' scopes = Scope.declare name scopes := by
  cases scopes with
  | nil => rfl
  | cons inner outer => simp only [Scope.declare, pairing.lexemes name name' names]

theorem bind_paired (name name' : Token) (names : pairing.tokens name name') (scopes : List Scope) :
    Scope.bind name' scopes = Scope.bind name scopes := by
  rw [Scope.bind, Scope.bind, declare_paired name name' names]
  cases Scope.declare name scopes with
  | nil => rfl
  | cons inner outer => simp only [Scope.define, pairing.lexemes name name' names]

theorem bindAll_paired (params params' : List Token) (parameters : List.Forall₂ pairing.tokens params params') :
    ∀ scopes : List Scope, Scope.bindAll scopes params' = Scope.bindAll scopes params := by
  induction parameters with
  | nil => exact fun _ => rfl
  | cons names _ ih =>
      intro scopes
      rw [Scope.bindAll, Scope.bindAll, bind_paired _ _ names]
      exact ih _

theorem bindingMentions_paired (params params' : List Token) (parameters : List.Forall₂ pairing.tokens params params') :
    ∀ scopes : List Scope,
    List.Forall₂ (MentionPair pairing) (bindingMentions scopes params) (bindingMentions scopes params') := by
  induction parameters with
  | nil => exact fun _ => .nil
  | cons names _ ih =>
      intro scopes
      rw [bindingMentions, bindingMentions, bind_paired _ _ names]
      exact .cons (.binding _ _ scopes) (ih _)

theorem after_paired : {stmt stmt' : Stmt NodeId} → StmtPair pairing stmt stmt' → (scopes : List Scope) →
    stmt'.after scopes = stmt.after scopes
  | _, _, .leave _ _, _ => rfl
  | _, _, .ret _ _ _ _ _, _ => rfl
  | _, _, .print _ _ _ _ _ _, _ => rfl
  | _, _, .expr _ _ _, _ => rfl
  | _, _, .declare _ _ names, scopes => bind_paired _ _ names scopes
  | _, _, .var _ _ _ _ names _, scopes => bind_paired _ _ names scopes
  | _, _, .block _ _ _, _ => rfl
  | _, _, .func _ _ _ _ _ _ names _ _, scopes => bind_paired _ _ names scopes
  | _, _, .branch _ _ _ _ _ chosen, scopes => after_paired chosen scopes
  | _, _, .branches _ _ _ _ _ _ _ chosen unchosen, scopes => by
      rw [Stmt.after, Stmt.after, after_paired chosen scopes, after_paired unchosen]
  | _, _, .loop _ _ _ _ _ bodies, scopes => after_paired bodies scopes

mutual
theorem stmtPair_mentions : {stmt stmt' : Stmt NodeId} → StmtPair pairing stmt stmt' → (inFunction : Bool) →
    (scopes : List Scope) →
    List.Forall₂ (MentionPair pairing) (stmt.mentions inFunction scopes) (stmt'.mentions inFunction scopes)
  | _, _, .leave keyword keyword', inFunction, _ => .cons (.leaving inFunction keyword keyword') .nil
  | _, _, .ret keyword keyword' _ _ values, inFunction, scopes =>
      .cons (.leaving inFunction keyword keyword') (exprPair_mentions scopes values)
  | _, _, .print _ _ _ _ _ values, _, scopes => exprPair_mentions scopes values
  | _, _, .expr _ _ values, _, scopes => exprPair_mentions scopes values
  | _, _, .declare name name' _, _, scopes => .cons (.binding name name' scopes) .nil
  | _, _, .var name name' value value' names values, _, scopes => by
      rw [Stmt.mentions, Stmt.mentions, declare_paired name name' names]
      exact .cons (.binding name name' scopes) (exprPair_mentions (Scope.declare name scopes) values)
  | _, _, .block _ _ bodies, inFunction, scopes => stmtPairAll_mentions bodies inFunction ([] :: scopes)
  | _, _, .func name name' params params' body body' names parameters bodies, _, scopes => by
      rw [Stmt.mentions, Stmt.mentions, bind_paired name name' names, bindAll_paired params params' parameters]
      exact .cons (.binding name name' scopes)
        (List.rel_append (bindingMentions_paired params params' parameters _) (stmtPairAll_mentions bodies true _))
  | _, _, .branch _ _ _ _ conditions chosen, inFunction, scopes =>
      List.rel_append (exprPair_mentions scopes conditions) (stmtPair_mentions chosen inFunction scopes)
  | _, _, .branches _ _ _ _ _ _ conditions chosen unchosen, inFunction, scopes => by
      rw [Stmt.mentions, Stmt.mentions, after_paired chosen scopes]
      exact List.rel_append
        (List.rel_append (exprPair_mentions scopes conditions) (stmtPair_mentions chosen inFunction scopes))
        (stmtPair_mentions unchosen inFunction _)
  | _, _, .loop _ _ _ _ conditions bodies, inFunction, scopes =>
      List.rel_append (exprPair_mentions scopes conditions) (stmtPair_mentions bodies inFunction scopes)
theorem stmtPairAll_mentions : {stmts stmts' : List (Stmt NodeId)} → StmtPairAll pairing stmts stmts' →
    (inFunction : Bool) → (scopes : List Scope) →
    List.Forall₂ (MentionPair pairing) (Stmt.mentionsAll inFunction scopes stmts)
      (Stmt.mentionsAll inFunction scopes stmts')
  | _, _, .nil, _, _ => .nil
  | _, _, .cons _ _ _ _ firsts others, inFunction, scopes => by
      rw [Stmt.mentionsAll, Stmt.mentionsAll, after_paired firsts scopes]
      exact List.rel_append (stmtPair_mentions firsts inFunction scopes) (stmtPairAll_mentions others inFunction _)
end

-- The same is known about numbers that stand for each other.

variable (pairing) in
def Pairing.Agree (distances distances' : Distances) : Prop :=
  ∀ label label', pairing.labels label label' → distances[label]? = distances'[label']?

variable (pairing) in
-- No number stands for two others.
def Pairing.OneToOne : Prop :=
  ∀ label label' other other' : Nat, pairing.labels label label' → pairing.labels other other' →
    (label = other ↔ label' = other')

section analysis

variable (oneToOne : pairing.OneToOne)

include oneToOne

theorem agree_note (distances distances' : Distances) (mention mention' : Mention NodeId)
    (paired : MentionPair pairing mention mention') (agree : pairing.Agree distances distances') :
    pairing.Agree (distances.note mention) (distances'.note mention') := by
  intro label label' labels
  have before := agree label label' labels
  cases paired with
  | use use use' scopes uses =>
      obtain ⟨own, name, writes⟩ := use
      obtain ⟨own', name', writes'⟩ := use'
      rw [note_use, note_use, pairing.lexemes name name' uses.names, before]
      have asked := oneToOne label label' own own' labels uses.labels
      by_cases same : label = own
      · rw [if_pos same, if_pos (asked.mp same)]
      · rw [if_neg same, if_neg (fun same' => same (asked.mpr same'))]
  | binding name name' scopes =>
      rw [note_elsewhere _ _ _ List.not_mem_nil, note_elsewhere _ _ _ List.not_mem_nil]
      exact before
  | leaving inFunction keyword keyword' =>
      rw [note_elsewhere _ _ _ List.not_mem_nil, note_elsewhere _ _ _ List.not_mem_nil]
      exact before

theorem agree_notes (mentions mentions' : List (Mention NodeId))
    (paired : List.Forall₂ (MentionPair pairing) mentions mentions') : ∀ distances distances' : Distances,
    pairing.Agree distances distances' →
    pairing.Agree (mentions.foldl Distances.note distances) (mentions'.foldl Distances.note distances') := by
  induction paired with
  | nil => exact fun _ _ agree => agree
  | cons first _ ih =>
      intro distances distances' agree
      exact ih _ _ (agree_note oneToOne distances distances' _ _ first agree)

theorem prepare_agree (machine mirror : Machine) (program : List (Stmt Unit))
    (paired : StmtPairAll pairing (machine.prepare program).1 (mirror.prepare program).1)
    (agree : pairing.Agree machine.distances mirror.distances) :
    pairing.Agree (machine.prepare program).2.distances (mirror.prepare program).2.distances := by
  rw [prepare_distances, prepare_distances]
  exact agree_notes oneToOne _ _ (stmtPairAll_mentions paired false []) _ _ agree

end analysis

end Treewalk.Paired
