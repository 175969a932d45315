import Treewalk.Proofs.LegibleTrees
import Treewalk.Proofs.Moving

/-!
The text of a legible tree determines the tree, but for the lines of its tokens. Operators with one operand and those with
two are told apart by the number of forms behind them, names from numbers by their first characters, and names from
constants because these are reserved.
-/

set_option autoImplicit false

namespace Treewalk

-- The node at the top of an expression can be read off its form.

inductive Node
  | literal
  | group
  | unary
  | binary
  | logical
  | ternary
  | comma
  | var
  | assign
  | call
  deriving DecidableEq

def Expr.node : Expr Unit → Node
  | .literal _ => .literal
  | .group _ => .group
  | .unary _ _ => .unary
  | .binary _ _ _ => .binary
  | .logical _ _ _ => .logical
  | .ternary _ _ _ => .ternary
  | .comma _ _ => .comma
  | .var _ _ => .var
  | .assign _ _ _ => .assign
  | .call _ _ _ => .call

def constantWords : List String := ["nil", "true", "false"]

def Form.node : Form → Node
  | .quote _ => .literal
  | .word text => if text.head?.any Char.isDigit ∨ String.ofList text ∈ constantWords then .literal else .var
  | .signature _ _ => .var
  | .list label items =>
      if String.ofList label ∈ logicalLabels then .logical
      else match String.ofList label, items with
        | "group", _ => .group
        | "?:", _ => .ternary
        | ",", _ => .comma
        | "=", _ => .assign
        | "call", _ => .call
        | _, [_] => .unary
        | _, _ => .binary

theorem Datum.form_node (value : Datum) (legible : value.Legible) : value.form.node = .literal := by
  cases value with
  | nil => rfl
  | boolean value => cases value <;> rfl
  | number value =>
      obtain ⟨-, first, rest, shape, digit⟩ := Numeral.plain_chars value legible
      have starts : (Numeral.plain value).toList.head?.any Char.isDigit = true := by
        rw [shape]
        exact digit
      exact if_pos (Or.inl starts)
  | text value => rfl

theorem constant_keyword (word : String) (constant : word ∈ constantWords) : keyword? word ≠ none := by
  have all : ∀ word ∈ constantWords, keyword? word ≠ none := by decide
  exact all word constant

theorem name_node (name : Token) (spelled : name.Spelled Kind.isName) : (Form.word name.lexeme.toList).node = .var := by
  obtain ⟨first, letters, shape, starts, -, free⟩ := name_spelled name spelled
  refine if_neg ?_
  rintro (digit | constant)
  · rw [shape] at digit
    exact absurd digit (Bool.eq_false_iff.mp (name_not_digit first starts))
  · rw [String.ofList_toList] at constant
    exact constant_keyword name.lexeme constant free

theorem Expr.form_node (expr : Expr Unit) (legible : expr.Legible) : expr.form.node = expr.node := by
  cases expr with
  | literal value => exact Datum.form_node value legible
  | var _ name => exact name_node name legible
  | unary operator operand =>
      obtain ⟨label, inside, spelling⟩ := unary_label operator legible.1
      rw [Expr.form, spelling]
      simp only [unaryLabels, List.mem_cons, List.not_mem_nil, or_false] at inside
      rcases inside with rfl | rfl <;> rfl
  | binary left operator right =>
      obtain ⟨label, inside, spelling⟩ := binary_label operator legible.1
      rw [Expr.form, spelling]
      simp only [binaryLabels, List.mem_cons, List.not_mem_nil, or_false] at inside
      rcases inside with rfl | rfl | rfl | rfl | rfl | rfl | rfl | rfl | rfl | rfl <;> rfl
  | logical left operator right =>
      obtain ⟨label, inside, spelling⟩ := logical_label operator legible.1
      rw [Expr.form, spelling]
      refine if_pos ?_
      rw [String.ofList_toList]
      exact inside
  | group | ternary | comma | assign | call => rfl

-- Trees of one form differ at most in the lines of their tokens.

theorem number_form (value : Float) (natural : Numeral.Natural value) (other : Datum) (legible : other.Legible)
    (same : (Datum.number value).form = other.form) : Datum.number value = other := by
  obtain ⟨-, first, rest, shape, digit⟩ := Numeral.plain_chars value natural
  have no_letter (text : String) (letter : text.toList.head?.any Char.isDigit = false)
      (words : (Numeral.plain value).toList = text.toList) : False := by
    rw [← words, shape] at letter
    exact absurd digit (Bool.eq_false_iff.mp letter)
  cases other with
  | nil => exact (no_letter "nil" rfl (Form.word.inj same)).elim
  | boolean value =>
      cases value with
      | false => exact (no_letter "false" rfl (Form.word.inj same)).elim
      | true => exact (no_letter "true" rfl (Form.word.inj same)).elim
  | number value' =>
      have texts := String.toList_inj.mp (Form.word.inj same)
      exact congrArg Datum.number (Numeral.plain_unique value value' natural legible texts)
  | text _ => cases same

theorem boolean_form (value : Bool) (other : Datum) (legible : other.Legible)
    (same : (Datum.boolean value).form = other.form) : Datum.boolean value = other := by
  cases other with
  | nil =>
      have texts : (if value then "true" else "false") = "nil" := String.toList_inj.mp (Form.word.inj same)
      cases value <;> exact absurd texts (by decide)
  | boolean value' =>
      have texts : (if value then "true" else "false") = if value' then "true" else "false" :=
        String.toList_inj.mp (Form.word.inj same)
      refine congrArg Datum.boolean ?_
      revert texts
      cases value <;> cases value' <;> decide
  | number value' => exact (number_form value' legible (.boolean value) trivial same.symm).symm
  | text _ => cases same

theorem Datum.form_unique (left right : Datum) (legible : left.Legible) (legible' : right.Legible)
    (same : left.form = right.form) : left = right := by
  cases left with
  | nil =>
      cases right with
      | nil => rfl
      | boolean value => exact (boolean_form value .nil legible same.symm).symm
      | number value => exact (number_form value legible' .nil legible same.symm).symm
      | text _ => cases same
  | boolean value => exact boolean_form value right legible' same
  | number value => exact number_form value legible right legible' same
  | text value =>
      cases right with
      | text value' => exact congrArg Datum.text (Form.quote.inj same)
      | nil | boolean | number => cases same

theorem fixed_unplaced (kind : Kind) (spelling : String) (fixed : kind.spelling? = some spelling) (left right : Token)
    (ofLeft : left.Spelled (· = kind)) (ofRight : right.Spelled (· = kind)) : left.unplaced = right.unplaced := by
  have spelled (token : Token) (known : token.Spelled (· = kind)) : token.lexeme.toList = spelling.toList := by
    refine lexeme_spelling _ _ _ spelling known.1 ?_
    rw [of_decide_eq_true known.2, fixed]
  refine unplaced_of_lexeme left right (· = kind) ofLeft ofRight ?_
  rw [spelled left ofLeft, spelled right ofRight]

theorem Expr.node_unique (left right : Expr Unit) (legible : left.Legible) (legible' : right.Legible)
    (same : left.form = right.form) : left.node = right.node := by
  rw [← Expr.form_node left legible, same, Expr.form_node right legible']

mutual
theorem Expr.form_unique : (left right : Expr Unit) → left.Legible → right.Legible → left.form = right.form →
    left.moved Token.unplaced = right.moved Token.unplaced
  | .literal value, right, legible, legible', same => by
      have nodes := Expr.node_unique _ right legible legible' same
      cases right with
      | literal value' => exact congrArg Expr.literal (Datum.form_unique value value' legible legible' same)
      | _ => cases nodes
  | .group inner, right, legible, legible', same => by
      have nodes := Expr.node_unique _ right legible legible' same
      cases right with
      | group inner' =>
          have items := (Form.list.inj same).2
          exact congrArg Expr.group (Expr.form_unique inner inner' legible legible' (List.cons.inj items).1)
      | _ => cases nodes
  | .unary operator operand, right, legible, legible', same => by
      have nodes := Expr.node_unique _ right legible legible' same
      cases right with
      | unary operator' operand' =>
          obtain ⟨labels, items⟩ := Form.list.inj same
          have operators := unplaced_of_lexeme operator operator' _ legible.1 legible'.1 labels
          have operands := Expr.form_unique operand operand' legible.2 legible'.2 (List.cons.inj items).1
          rw [Expr.moved, Expr.moved, operators, operands]
      | _ => cases nodes
  | .binary left operator right, other, legible, legible', same => by
      have nodes := Expr.node_unique _ other legible legible' same
      cases other with
      | binary left' operator' right' =>
          obtain ⟨labels, items⟩ := Form.list.inj same
          obtain ⟨lefts, rest⟩ := List.cons.inj items
          have operators := unplaced_of_lexeme operator operator' _ legible.1 legible'.1 labels
          have lefts := Expr.form_unique left left' legible.2.1 legible'.2.1 lefts
          have rights := Expr.form_unique right right' legible.2.2 legible'.2.2 (List.cons.inj rest).1
          rw [Expr.moved, Expr.moved, operators, lefts, rights]
      | _ => cases nodes
  | .logical left operator right, other, legible, legible', same => by
      have nodes := Expr.node_unique _ other legible legible' same
      cases other with
      | logical left' operator' right' =>
          obtain ⟨labels, items⟩ := Form.list.inj same
          obtain ⟨lefts, rest⟩ := List.cons.inj items
          have operators := unplaced_of_lexeme operator operator' _ legible.1 legible'.1 labels
          have lefts := Expr.form_unique left left' legible.2.1 legible'.2.1 lefts
          have rights := Expr.form_unique right right' legible.2.2 legible'.2.2 (List.cons.inj rest).1
          rw [Expr.moved, Expr.moved, operators, lefts, rights]
      | _ => cases nodes
  | .ternary condition yes no, right, legible, legible', same => by
      have nodes := Expr.node_unique _ right legible legible' same
      cases right with
      | ternary condition' yes' no' =>
          obtain ⟨conditions, branches⟩ := List.cons.inj (Form.list.inj same).2
          obtain ⟨yeses, rest⟩ := List.cons.inj branches
          have conditions := Expr.form_unique condition condition' legible.1 legible'.1 conditions
          have yeses := Expr.form_unique yes yes' legible.2.1 legible'.2.1 yeses
          have nos := Expr.form_unique no no' legible.2.2 legible'.2.2 (List.cons.inj rest).1
          rw [Expr.moved, Expr.moved, conditions, yeses, nos]
      | _ => cases nodes
  | .comma first second, right, legible, legible', same => by
      have nodes := Expr.node_unique _ right legible legible' same
      cases right with
      | comma first' second' =>
          obtain ⟨firsts, rest⟩ := List.cons.inj (Form.list.inj same).2
          have firsts := Expr.form_unique first first' legible.1 legible'.1 firsts
          have seconds := Expr.form_unique second second' legible.2 legible'.2 (List.cons.inj rest).1
          rw [Expr.moved, Expr.moved, firsts, seconds]
      | _ => cases nodes
  | .var _ name, right, legible, legible', same => by
      have nodes := Expr.node_unique _ right legible legible' same
      cases right with
      | var _ name' =>
          exact congrArg (Expr.var ()) (unplaced_of_lexeme name name' _ legible legible' (Form.word.inj same))
      | _ => cases nodes
  | .assign _ name value, right, legible, legible', same => by
      have nodes := Expr.node_unique _ right legible legible' same
      cases right with
      | assign _ name' value' =>
          obtain ⟨words, rest⟩ := List.cons.inj (Form.list.inj same).2
          have names := unplaced_of_lexeme name name' _ legible.1 legible'.1 (Form.word.inj words)
          have values := Expr.form_unique value value' legible.2 legible'.2 (List.cons.inj rest).1
          rw [Expr.moved, Expr.moved, names, values]
      | _ => cases nodes
  | .call callee close arguments, right, legible, legible', same => by
      have nodes := Expr.node_unique _ right legible legible' same
      cases right with
      | call callee' close' arguments' =>
          obtain ⟨callees, rest⟩ := List.cons.inj (Form.list.inj same).2
          have callees := Expr.form_unique callee callee' legible.1 legible'.1 callees
          have closes := fixed_unplaced .rightParen ")" rfl close close' legible.2.1 legible'.2.1
          have arguments := Expr.formAll_unique arguments arguments' legible.2.2 legible'.2.2 rest
          rw [Expr.moved, Expr.moved, callees, closes, arguments]
      | _ => cases nodes
theorem Expr.formAll_unique : (left right : List (Expr Unit)) → Expr.LegibleAll left → Expr.LegibleAll right →
    Expr.formAll left = Expr.formAll right → Expr.movedAll Token.unplaced left = Expr.movedAll Token.unplaced right
  | [], [], _, _, _ => rfl
  | first :: rest, first' :: rest', legible, legible', same => by
      obtain ⟨firsts, rests⟩ := List.cons.inj same
      have firsts := Expr.form_unique first first' legible.1 legible'.1 firsts
      have rests := Expr.formAll_unique rest rest' legible.2 legible'.2 rests
      rw [Expr.movedAll, Expr.movedAll, firsts, rests]
end

theorem Expr.formOption_unique (left right : Option (Expr Unit)) (legible : ∀ expr ∈ left, expr.Legible)
    (legible' : ∀ expr ∈ right, expr.Legible) (same : Expr.formOption left = Expr.formOption right) :
    left.map (Expr.moved Token.unplaced) = right.map (Expr.moved Token.unplaced) := by
  cases left with
  | none =>
      cases right with
      | none => rfl
      | some _ => cases same
  | some expr =>
      cases right with
      | none => cases same
      | some expr' =>
          exact congrArg some (Expr.form_unique expr expr' (legible expr rfl) (legible' expr' rfl) (List.cons.inj same).1)

def Stmt.label : Stmt Unit → String
  | .ret _ _ => "return"
  | .print _ _ => "print"
  | .expr _ => ";"
  | .var _ _ => "var"
  | .block _ => "block"
  | .func _ _ _ => "fun"
  | .branch _ _ _ => "if"
  | .loop _ _ => "while"

theorem Stmt.form_label (stmt : Stmt Unit) : ∃ items, stmt.form = .list stmt.label.toList items := by
  cases stmt with
  | branch _ _ no => cases no <;> exact ⟨_, rfl⟩
  | _ => exact ⟨_, rfl⟩

theorem Stmt.label_unique (left right : Stmt Unit) (same : left.form = right.form) : left.label = right.label := by
  obtain ⟨items, ofLeft⟩ := Stmt.form_label left
  obtain ⟨items', ofRight⟩ := Stmt.form_label right
  rw [ofLeft, ofRight] at same
  exact String.toList_inj.mp (Form.list.inj same).1

theorem names_unplaced (left : List Token) : ∀ right : List Token, (∀ name ∈ left, name.Spelled Kind.isName) →
    (∀ name ∈ right, name.Spelled Kind.isName) →
    left.map (·.lexeme.toList) = right.map (·.lexeme.toList) → left.map Token.unplaced = right.map Token.unplaced := by
  induction left with
  | nil =>
      intro right _ _ same
      cases right with
      | nil => rfl
      | cons _ _ => cases same
  | cons first rest ih =>
      intro right ofLeft ofRight same
      cases right with
      | nil => cases same
      | cons first' rest' =>
          obtain ⟨ofFirst, ofRest⟩ := List.forall_mem_cons.mp ofLeft
          obtain ⟨ofFirst', ofRest'⟩ := List.forall_mem_cons.mp ofRight
          obtain ⟨words, rests⟩ := List.cons.inj same
          rw [List.map_cons, List.map_cons, unplaced_of_lexeme first first' _ ofFirst ofFirst' words,
            ih rest' ofRest ofRest' rests]

mutual
theorem Stmt.form_unique : (left right : Stmt Unit) → left.Legible → right.Legible → left.form = right.form →
    left.moved Token.unplaced = right.moved Token.unplaced
  | .ret keyword value, right, legible, legible', same => by
      have labels := Stmt.label_unique _ right same
      cases right with
      | ret keyword' value' =>
          have keywords := fixed_unplaced .kwReturn "return" rfl keyword keyword' legible.1 legible'.1
          have values := Expr.formOption_unique value value' legible.2 legible'.2 (Form.list.inj same).2
          rw [Stmt.moved, Stmt.moved, keywords, values]
      | _ => simp [Stmt.label] at labels
  | .print keyword value, right, legible, legible', same => by
      have labels := Stmt.label_unique _ right same
      cases right with
      | print keyword' value' =>
          have items := (Form.list.inj same).2
          have keywords := fixed_unplaced .kwPrint "print" rfl keyword keyword' legible.1 legible'.1
          have values := Expr.form_unique value value' legible.2 legible'.2 (List.cons.inj items).1
          rw [Stmt.moved, Stmt.moved, keywords, values]
      | _ => simp [Stmt.label] at labels
  | .expr value, right, legible, legible', same => by
      have labels := Stmt.label_unique _ right same
      cases right with
      | expr value' =>
          have items := (Form.list.inj same).2
          exact congrArg Stmt.expr (Expr.form_unique value value' legible legible' (List.cons.inj items).1)
      | _ => simp [Stmt.label] at labels
  | .var name value, right, legible, legible', same => by
      have labels := Stmt.label_unique _ right same
      cases right with
      | var name' value' =>
          obtain ⟨words, rest⟩ := List.cons.inj (Form.list.inj same).2
          have names := unplaced_of_lexeme name name' _ legible.1 legible'.1 (Form.word.inj words)
          have values := Expr.formOption_unique value value' legible.2 legible'.2 rest
          rw [Stmt.moved, Stmt.moved, names, values]
      | _ => simp [Stmt.label] at labels
  | .block body, right, legible, legible', same => by
      have labels := Stmt.label_unique _ right same
      cases right with
      | block body' =>
          exact congrArg Stmt.block (Stmt.formAll_unique body body' legible legible' (Form.list.inj same).2)
      | _ => simp [Stmt.label] at labels
  | .func name params body, right, legible, legible', same => by
      have labels := Stmt.label_unique _ right same
      cases right with
      | func name' params' body' =>
          obtain ⟨signatures, bodies⟩ := List.cons.inj (Form.list.inj same).2
          obtain ⟨words, texts⟩ := Form.signature.inj signatures
          have names := unplaced_of_lexeme name name' _ legible.1 legible'.1 words
          have params := names_unplaced params params' legible.2.1 legible'.2.1 texts
          have bodies := Stmt.formAll_unique body body' legible.2.2 legible'.2.2 bodies
          rw [Stmt.moved, Stmt.moved, names, params, bodies]
      | _ => simp [Stmt.label] at labels
  | .branch condition yes none, right, legible, legible', same => by
      have labels := Stmt.label_unique _ right same
      cases right with
      | branch condition' yes' no' =>
          cases no' with
          | none =>
              obtain ⟨conditions, branches⟩ := List.cons.inj (Form.list.inj same).2
              have conditions := Expr.form_unique condition condition' legible.1 legible'.1 conditions
              have yeses := Stmt.form_unique yes yes' legible.2 legible'.2 (List.cons.inj branches).1
              rw [Stmt.moved, Stmt.moved, conditions, yeses]
          | some no' => cases (List.cons.inj (List.cons.inj (Form.list.inj same).2).2).2
      | _ => simp [Stmt.label] at labels
  | .branch condition yes (some no), right, legible, legible', same => by
      have labels := Stmt.label_unique _ right same
      cases right with
      | branch condition' yes' no' =>
          cases no' with
          | none => cases (List.cons.inj (List.cons.inj (Form.list.inj same).2).2).2
          | some no' =>
              obtain ⟨conditions, branches⟩ := List.cons.inj (Form.list.inj same).2
              obtain ⟨yeses, rest⟩ := List.cons.inj branches
              have conditions := Expr.form_unique condition condition' legible.1 legible'.1 conditions
              have yeses := Stmt.form_unique yes yes' legible.2.1 legible'.2.1 yeses
              have nos := Stmt.form_unique no no' legible.2.2 legible'.2.2 (List.cons.inj rest).1
              rw [Stmt.moved, Stmt.moved, conditions, yeses, nos]
      | _ => simp [Stmt.label] at labels
  | .loop condition body, right, legible, legible', same => by
      have labels := Stmt.label_unique _ right same
      cases right with
      | loop condition' body' =>
          obtain ⟨conditions, rest⟩ := List.cons.inj (Form.list.inj same).2
          have conditions := Expr.form_unique condition condition' legible.1 legible'.1 conditions
          have bodies := Stmt.form_unique body body' legible.2 legible'.2 (List.cons.inj rest).1
          rw [Stmt.moved, Stmt.moved, conditions, bodies]
      | _ => simp [Stmt.label] at labels
theorem Stmt.formAll_unique : (left right : List (Stmt Unit)) → Stmt.LegibleAll left → Stmt.LegibleAll right →
    Stmt.formAll left = Stmt.formAll right → Stmt.movedAll Token.unplaced left = Stmt.movedAll Token.unplaced right
  | [], [], _, _, _ => rfl
  | first :: rest, first' :: rest', legible, legible', same => by
      obtain ⟨firsts, rests⟩ := List.cons.inj same
      have firsts := Stmt.form_unique first first' legible.1 legible'.1 firsts
      have rests := Stmt.formAll_unique rest rest' legible.2 legible'.2 rests
      rw [Stmt.movedAll, Stmt.movedAll, firsts, rests]
end

-- From forms back to texts.

theorem Stmt.render_unique (left right : Stmt Unit) (legible : left.Legible) (legible' : right.Legible)
    (same : left.render = right.render) : left.moved Token.unplaced = right.moved Token.unplaced := by
  have texts : left.form.text ++ [] = right.form.text ++ [] := by
    rw [← Stmt.render_form left, ← Stmt.render_form right, same]
  have ends : Form.Ends [] := by simp [Form.Ends]
  have forms := Form.text_unique left.form right.form [] [] (Stmt.form_clear left legible)
    (Stmt.form_clear right legible') ends ends texts
  exact Stmt.form_unique left right legible legible' forms.1

theorem Stmt.render_line (stmt : Stmt Unit) (legible : stmt.Legible) : '\n' ∉ stmt.render.toList := by
  rw [Stmt.render_form]
  exact Form.text_line stmt.form (Stmt.form_clear stmt legible)

-- Lines are not shown.

theorem keepsText_unplaced : KeepsText Token.unplaced := fun _ => ⟨0, rfl⟩

variable {ν : Type}

mutual
theorem Expr.render_moved (move : Token → Token) (keeps : KeepsText move) : (expr : Expr ν) →
    (expr.moved move).render = expr.render
  | .literal _ => rfl
  | .group inner => by rw [Expr.moved, Expr.render, Expr.render, Expr.render_moved move keeps inner]
  | .unary operator operand => by
      rw [Expr.moved, Expr.render, Expr.render, Expr.render_moved move keeps operand, moved_lexeme move keeps]
  | .binary left operator right => by
      rw [Expr.moved, Expr.render, Expr.render, Expr.render_moved move keeps left, Expr.render_moved move keeps right,
        moved_lexeme move keeps]
  | .logical left operator right => by
      rw [Expr.moved, Expr.render, Expr.render, Expr.render_moved move keeps left, Expr.render_moved move keeps right,
        moved_lexeme move keeps]
  | .ternary condition yes no => by
      rw [Expr.moved, Expr.render, Expr.render, Expr.render_moved move keeps condition, Expr.render_moved move keeps yes,
        Expr.render_moved move keeps no]
  | .comma first second => by
      rw [Expr.moved, Expr.render, Expr.render, Expr.render_moved move keeps first, Expr.render_moved move keeps second]
  | .var _ name => moved_lexeme move keeps name
  | .assign _ name value => by
      rw [Expr.moved, Expr.render, Expr.render, Expr.render_moved move keeps value, moved_lexeme move keeps]
  | .call callee _ arguments => by
      rw [Expr.moved, Expr.render, Expr.render, Expr.render_moved move keeps callee,
        Expr.renderAll_moved move keeps arguments]
theorem Expr.renderAll_moved (move : Token → Token) (keeps : KeepsText move) : (exprs : List (Expr ν)) →
    Expr.renderAll (Expr.movedAll move exprs) = Expr.renderAll exprs
  | [] => rfl
  | first :: rest => by
      rw [Expr.movedAll, Expr.renderAll, Expr.renderAll, Expr.render_moved move keeps first,
        Expr.renderAll_moved move keeps rest]
end

mutual
theorem Stmt.render_moved (move : Token → Token) (keeps : KeepsText move) : (stmt : Stmt ν) →
    (stmt.moved move).render = stmt.render
  | .ret _ none => rfl
  | .ret _ (some value) => by
      rw [Stmt.moved, Option.map_some, Stmt.render, Stmt.render, Expr.render_moved move keeps value]
  | .print _ value => by rw [Stmt.moved, Stmt.render, Stmt.render, Expr.render_moved move keeps value]
  | .expr value => by rw [Stmt.moved, Stmt.render, Stmt.render, Expr.render_moved move keeps value]
  | .var name none => by rw [Stmt.moved, Option.map_none, Stmt.render, Stmt.render, moved_lexeme move keeps]
  | .var name (some value) => by
      rw [Stmt.moved, Option.map_some, Stmt.render, Stmt.render, Expr.render_moved move keeps value,
        moved_lexeme move keeps]
  | .block body => by rw [Stmt.moved, Stmt.render, Stmt.render, Stmt.renderAll_moved move keeps body]
  | .func name params body => by
      have lexemes : Token.lexeme ∘ move = Token.lexeme := funext (moved_lexeme move keeps)
      rw [Stmt.moved, Stmt.render, Stmt.render, Stmt.renderAll_moved move keeps body, moved_lexeme move keeps,
        List.map_map, lexemes]
  | .branch condition yes none => by
      rw [Stmt.moved, Stmt.render, Stmt.render, Expr.render_moved move keeps condition, Stmt.render_moved move keeps yes]
  | .branch condition yes (some no) => by
      rw [Stmt.moved, Stmt.render, Stmt.render, Expr.render_moved move keeps condition, Stmt.render_moved move keeps yes,
        Stmt.render_moved move keeps no]
  | .loop condition body => by
      rw [Stmt.moved, Stmt.render, Stmt.render, Expr.render_moved move keeps condition, Stmt.render_moved move keeps body]
theorem Stmt.renderAll_moved (move : Token → Token) (keeps : KeepsText move) : (stmts : List (Stmt ν)) →
    Stmt.renderAll (Stmt.movedAll move stmts) = Stmt.renderAll stmts
  | [] => rfl
  | first :: rest => by
      rw [Stmt.movedAll, Stmt.renderAll, Stmt.renderAll, Stmt.render_moved move keeps first,
        Stmt.renderAll_moved move keeps rest]
end

end Treewalk
