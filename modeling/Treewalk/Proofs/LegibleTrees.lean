import Treewalk.Proofs.Divisions
import Treewalk.Proofs.Forms
import Treewalk.Proofs.NumeralTexts
import Treewalk.Proofs.ProperTrees
import Treewalk.Tree.Render

/-!
Trees that a text can spell, as forms. Every node is written as a form with a label of its own, except that operators are
their own labels. Legible trees have clear forms.
-/

set_option autoImplicit false

namespace Treewalk

-- The tokens of a tree, without their lines.

def Token.unplaced (token : Token) : Token := { token with line := 0 }

def Token.Spelled (kinds : Kind → Bool) (token : Token) : Prop :=
  Lexeme token.kind token.literal token.lexeme.toList ∧ kinds token.kind = true

theorem unplaced_of_lexeme (left right : Token) (kinds : Kind → Bool) (ofLeft : left.Spelled kinds)
    (ofRight : right.Spelled kinds) (same : left.lexeme.toList = right.lexeme.toList) : left.unplaced = right.unplaced := by
  have lexeme := ofLeft.1
  rw [same] at lexeme
  obtain ⟨kind, literal⟩ := lexeme_unique _ _ _ _ _ lexeme ofRight.1
  obtain ⟨kind, text, literal, line⟩ := left
  obtain ⟨kind', text', literal', line'⟩ := right
  cases String.toList_inj.mp same
  simp_all [Token.unplaced]

-- The spelling of a kind that has only one.
def Kind.spelling? : Kind → Option String
  | .leftParen => some "("
  | .rightParen => some ")"
  | .leftBrace => some "\x7b"
  | .rightBrace => some "\x7d"
  | .comma => some ","
  | .minus => some "-"
  | .plus => some "+"
  | .semicolon => some ";"
  | .slash => some "/"
  | .star => some "*"
  | .question => some "?"
  | .colon => some ":"
  | .bang => some "!"
  | .bangEqual => some "!="
  | .equal => some "="
  | .equalEqual => some "=="
  | .greater => some ">"
  | .greaterEqual => some ">="
  | .less => some "<"
  | .lessEqual => some "<="
  | .kwAnd => some "and"
  | .kwElse => some "else"
  | .kwFalse => some "false"
  | .kwFun => some "fun"
  | .kwFor => some "for"
  | .kwIf => some "if"
  | .kwNil => some "nil"
  | .kwOr => some "or"
  | .kwPrint => some "print"
  | .kwReturn => some "return"
  | .kwTrue => some "true"
  | .kwVar => some "var"
  | .kwWhile => some "while"
  | .identifier | .stringLiteral | .number | .endOfInput => none

theorem keyword_spelling (word spelling : String) (kind : Kind) (found : keyword? word = some kind)
    (fixed : kind.spelling? = some spelling) : word = spelling := by
  unfold keyword? at found
  split at found <;> cases found <;> cases fixed <;> rfl

theorem lexeme_spelling (kind : Kind) (literal : Option Literal) (text : List Char) (spelling : String)
    (lexeme : Lexeme kind literal text) (fixed : kind.spelling? = some spelling) : text = spelling.toList := by
  cases lexeme with
  | mark char _ single =>
      unfold singleMark? at single
      split at single <;> cases single <;> cases fixed <;> rfl
  | alone char _ _ paired =>
      unfold pairedMark? at paired
      split at paired <;> cases paired <;> cases fixed <;> rfl
  | joined char _ _ paired =>
      unfold pairedMark? at paired
      split at paired <;> cases paired <;> cases fixed <;> rfl
  | slash =>
      cases fixed
      rfl
  | string | whole | fraction => cases fixed
  | word first letters =>
      cases found : keyword? (String.ofList (first :: letters)) with
      | none =>
          rw [found] at fixed
          cases fixed
      | some kind =>
          rw [found] at fixed
          rw [← keyword_spelling _ spelling kind found fixed, String.toList_ofList]

-- Trees whose tokens are spelled as a text can spell them, and whose numbers are those that a text can write.

def Datum.Legible : Datum → Prop
  | .number value => Numeral.Natural value
  | _ => True

def Kind.isName (kind : Kind) : Bool := kind = .identifier

mutual
def Expr.Legible : Expr Unit → Prop
  | .literal value => value.Legible
  | .group inner => inner.Legible
  | .unary operator operand => operator.Spelled Kind.isUnary ∧ operand.Legible
  | .binary left operator right => operator.Spelled Kind.isBinary ∧ left.Legible ∧ right.Legible
  | .logical left operator right => operator.Spelled Kind.isLogical ∧ left.Legible ∧ right.Legible
  | .ternary condition yes no => condition.Legible ∧ yes.Legible ∧ no.Legible
  | .comma first second => first.Legible ∧ second.Legible
  | .var _ name => name.Spelled Kind.isName
  | .assign _ name value => name.Spelled Kind.isName ∧ value.Legible
  | .call callee close arguments =>
      callee.Legible ∧ close.Spelled (· = .rightParen) ∧ Expr.LegibleAll arguments
def Expr.LegibleAll : List (Expr Unit) → Prop
  | [] => True
  | first :: rest => first.Legible ∧ Expr.LegibleAll rest
end

mutual
def Stmt.Legible : Stmt Unit → Prop
  | .ret keyword value => keyword.Spelled (· = .kwReturn) ∧ ∀ expr ∈ value, expr.Legible
  | .print keyword value => keyword.Spelled (· = .kwPrint) ∧ value.Legible
  | .expr value => value.Legible
  | .var name value => name.Spelled Kind.isName ∧ ∀ expr ∈ value, expr.Legible
  | .block body => Stmt.LegibleAll body
  | .func name params body =>
      name.Spelled Kind.isName ∧ (∀ param ∈ params, param.Spelled Kind.isName) ∧ Stmt.LegibleAll body
  | .branch condition yes none => condition.Legible ∧ yes.Legible
  | .branch condition yes (some no) => condition.Legible ∧ yes.Legible ∧ no.Legible
  | .loop condition body => condition.Legible ∧ body.Legible
def Stmt.LegibleAll : List (Stmt Unit) → Prop
  | [] => True
  | first :: rest => first.Legible ∧ Stmt.LegibleAll rest
end

-- Trees as forms.

def Datum.form : Datum → Form
  | .text value => .quote value
  | other => .word other.display.toList

mutual
def Expr.form : Expr Unit → Form
  | .literal value => value.form
  | .group inner => .list "group".toList [inner.form]
  | .unary operator operand => .list operator.lexeme.toList [operand.form]
  | .binary left operator right => .list operator.lexeme.toList [left.form, right.form]
  | .logical left operator right => .list operator.lexeme.toList [left.form, right.form]
  | .ternary condition yes no => .list "?:".toList [condition.form, yes.form, no.form]
  | .comma first second => .list ",".toList [first.form, second.form]
  | .var _ name => .word name.lexeme.toList
  | .assign _ name value => .list "=".toList [.word name.lexeme.toList, value.form]
  | .call callee _ arguments => .list "call".toList (callee.form :: Expr.formAll arguments)
def Expr.formAll : List (Expr Unit) → List Form
  | [] => []
  | first :: rest => first.form :: Expr.formAll rest
end

def Expr.formOption (value : Option (Expr Unit)) : List Form := value.elim [] fun expr => [expr.form]

mutual
def Stmt.form : Stmt Unit → Form
  | .ret _ value => .list "return".toList (Expr.formOption value)
  | .print _ value => .list "print".toList [value.form]
  | .expr value => .list ";".toList [value.form]
  | .var name value => .list "var".toList (.word name.lexeme.toList :: Expr.formOption value)
  | .block body => .list "block".toList (Stmt.formAll body)
  | .func name params body =>
      .list "fun".toList (.signature name.lexeme.toList (params.map (·.lexeme.toList)) :: Stmt.formAll body)
  | .branch condition yes none => .list "if".toList [condition.form, yes.form]
  | .branch condition yes (some no) => .list "if".toList [condition.form, yes.form, no.form]
  | .loop condition body => .list "while".toList [condition.form, body.form]
def Stmt.formAll : List (Stmt Unit) → List Form
  | [] => []
  | first :: rest => first.form :: Stmt.formAll rest
end

theorem Datum.render_form (value : Datum) : value.render.toList = value.form.text := by
  cases value <;> rfl

mutual
theorem Expr.render_form : (expr : Expr Unit) → expr.render.toList = expr.form.text
  | .literal value => Datum.render_form value
  | .group inner => by
      simp [Expr.render, Expr.form, Form.text, Form.textAll, Expr.render_form inner]
  | .unary operator operand => by
      simp [Expr.render, Expr.form, Form.text, Form.textAll, Expr.render_form operand]
  | .binary left operator right => by
      simp [Expr.render, Expr.form, Form.text, Form.textAll, Expr.render_form left, Expr.render_form right]
  | .logical left operator right => by
      simp [Expr.render, Expr.form, Form.text, Form.textAll, Expr.render_form left, Expr.render_form right]
  | .ternary condition yes no => by
      simp [Expr.render, Expr.form, Form.text, Form.textAll, Expr.render_form condition, Expr.render_form yes,
        Expr.render_form no]
  | .comma first second => by
      simp [Expr.render, Expr.form, Form.text, Form.textAll, Expr.render_form first, Expr.render_form second]
  | .var _ _ => rfl
  | .assign _ name value => by
      simp [Expr.render, Expr.form, Form.text, Form.textAll, Expr.render_form value]
  | .call callee _ arguments => by
      simp [Expr.render, Expr.form, Form.text, Form.textAll, Expr.render_form callee, Expr.renderAll_form arguments]
theorem Expr.renderAll_form : (exprs : List (Expr Unit)) →
    (Expr.renderAll exprs).toList = Form.textAll (Expr.formAll exprs)
  | [] => rfl
  | first :: rest => by
      simp [Expr.renderAll, Expr.formAll, Form.textAll, Expr.render_form first, Expr.renderAll_form rest]
end

mutual
theorem Stmt.render_form : (stmt : Stmt Unit) → stmt.render.toList = stmt.form.text
  | .ret _ none => by simp [Stmt.render, Stmt.form, Form.text, Form.textAll, Expr.formOption]
  | .ret _ (some value) => by
      simp [Stmt.render, Stmt.form, Form.text, Form.textAll, Expr.formOption, Expr.render_form value]
  | .print _ value => by simp [Stmt.render, Stmt.form, Form.text, Form.textAll, Expr.render_form value]
  | .expr value => by simp [Stmt.render, Stmt.form, Form.text, Form.textAll, Expr.render_form value]
  | .var name none => by simp [Stmt.render, Stmt.form, Form.text, Form.textAll, Expr.formOption]
  | .var name (some value) => by
      simp [Stmt.render, Stmt.form, Form.text, Form.textAll, Expr.formOption, Expr.render_form value]
  | .block body => by simp [Stmt.render, Stmt.form, Form.text, Stmt.renderAll_form body]
  | .func name params body => by
      simp [Stmt.render, Stmt.form, Form.text, Form.textAll, Stmt.renderAll_form body, Function.comp_def]
  | .branch condition yes none => by
      simp [Stmt.render, Stmt.form, Form.text, Form.textAll, Expr.render_form condition, Stmt.render_form yes]
  | .branch condition yes (some no) => by
      simp [Stmt.render, Stmt.form, Form.text, Form.textAll, Expr.render_form condition, Stmt.render_form yes,
        Stmt.render_form no]
  | .loop condition body => by
      simp [Stmt.render, Stmt.form, Form.text, Form.textAll, Expr.render_form condition, Stmt.render_form body]
theorem Stmt.renderAll_form : (stmts : List (Stmt Unit)) →
    (Stmt.renderAll stmts).toList = Form.textAll (Stmt.formAll stmts)
  | [] => rfl
  | first :: rest => by
      simp [Stmt.renderAll, Stmt.formAll, Form.textAll, Stmt.render_form first, Stmt.renderAll_form rest]
end

-- Names and operators as words and labels.

theorem free_of_word (char : Char) (word : continuesName char = true) : Form.free char = true := by
  have code := word_code char word
  have other (mark : Char) (low : mark.toNat < 0x30) : char ≠ mark := by
    rintro rfl
    omega
  simp [Form.free, other ' ' (by decide), other '(' (by decide), other ')' (by decide), other '"' (by decide),
    other '\n' (by decide)]

theorem name_spelled (name : Token) (spelled : name.Spelled Kind.isName) :
    ∃ first letters, name.lexeme.toList = first :: letters ∧ startsName first = true ∧
      (∀ char ∈ letters, continuesName char = true) ∧ keyword? name.lexeme = none := by
  obtain ⟨lexeme, isName⟩ := spelled
  have spelling := String.ofList_toList (s := name.lexeme)
  generalize name.lexeme.toList = text at lexeme spelling ⊢
  generalize name.kind = kind at lexeme isName
  generalize name.literal = literal at lexeme
  cases lexeme with
  | mark char _ single =>
      unfold singleMark? at single
      split at single <;> cases single <;> cases isName
  | alone char _ _ paired | joined char _ _ paired =>
      unfold pairedMark? at paired
      split at paired <;> cases paired <;> cases isName
  | slash | string | whole | fraction => cases isName
  | word first letters starts continues =>
      refine ⟨first, letters, rfl, starts, continues, ?_⟩
      rw [← spelling]
      cases found : keyword? (String.ofList (first :: letters)) with
      | none => rfl
      | some kind =>
          rw [found] at isName
          exact absurd (of_decide_eq_true isName) (keyword_word _ kind found).1.1

theorem name_word (name : Token) (spelled : name.Spelled Kind.isName) : Form.Word name.lexeme.toList := by
  obtain ⟨first, letters, shape, starts, continues, -⟩ := name_spelled name spelled
  rw [shape]
  refine ⟨List.cons_ne_nil first letters, List.forall_mem_cons.mpr ⟨?_, ?_⟩⟩
  · exact free_of_word first (word_of_name first starts)
  · exact fun char inside => free_of_word char (continues char inside)

theorem label_spelled (kinds : Kind → Bool) (labels : List String)
    (fixed : ∀ kind ∈ Kind.all, kinds kind = true → ∃ label ∈ labels, kind.spelling? = some label) (token : Token)
    (spelled : token.Spelled kinds) : ∃ label ∈ labels, token.lexeme.toList = label.toList := by
  obtain ⟨label, inside, spelling⟩ := fixed token.kind (Kind.mem_all token.kind) spelled.2
  exact ⟨label, inside, lexeme_spelling _ _ _ label spelled.1 spelling⟩

def unaryLabels : List String := ["!", "-"]

def binaryLabels : List String := ["==", "!=", ">", ">=", "<", "<=", "+", "-", "*", "/"]

def logicalLabels : List String := ["and", "or"]

theorem unary_label (token : Token) (spelled : token.Spelled Kind.isUnary) :
    ∃ label ∈ unaryLabels, token.lexeme.toList = label.toList :=
  label_spelled Kind.isUnary unaryLabels (by decide) token spelled

theorem binary_label (token : Token) (spelled : token.Spelled Kind.isBinary) :
    ∃ label ∈ binaryLabels, token.lexeme.toList = label.toList :=
  label_spelled Kind.isBinary binaryLabels (by decide) token spelled

theorem logical_label (token : Token) (spelled : token.Spelled Kind.isLogical) :
    ∃ label ∈ logicalLabels, token.lexeme.toList = label.toList :=
  label_spelled Kind.isLogical logicalLabels (by decide) token spelled

theorem free_text (text : String) (free : text.toList.all Form.free = true) :
    ∀ char ∈ text.toList, Form.free char = true :=
  List.all_eq_true.mp free

theorem labels_free (label : String) (inside : label ∈ unaryLabels ++ binaryLabels ++ logicalLabels) :
    ∀ char ∈ label.toList, Form.free char = true := by
  have all : (unaryLabels ++ binaryLabels ++ logicalLabels).all (·.toList.all Form.free) = true := rfl
  exact free_text label (List.all_eq_true.mp all label inside)

-- The forms of legible trees are clear.

theorem digit_free (char : Char) (digit : char.isDigit = true) : Form.free char = true :=
  free_of_word char (word_of_digit char digit)

theorem number_word (value : Float) (natural : Numeral.Natural value) : Form.Word (Numeral.plain value).toList := by
  obtain ⟨chars, first, rest, shape, -⟩ := Numeral.plain_chars value natural
  refine ⟨by rw [shape]; exact List.cons_ne_nil first rest, fun char inside => ?_⟩
  rcases chars char inside with digit | rfl
  · exact digit_free char digit
  · rfl

theorem Datum.form_clear (value : Datum) (legible : value.Legible) : value.form.Clear := by
  cases value with
  | nil => exact ⟨by decide, free_text "nil" rfl⟩
  | boolean value =>
      cases value with
      | false => exact ⟨by decide, free_text "false" rfl⟩
      | true => exact ⟨by decide, free_text "true" rfl⟩
  | number value => exact number_word value legible
  | text value => trivial

mutual
theorem Expr.form_clear : (expr : Expr Unit) → expr.Legible → expr.form.Clear
  | .literal value, legible => Datum.form_clear value legible
  | .group inner, legible => ⟨free_text "group" rfl, Expr.form_clear inner legible, trivial⟩
  | .unary operator operand, legible => by
      obtain ⟨label, inside, spelling⟩ := unary_label operator legible.1
      refine ⟨?_, Expr.form_clear operand legible.2, trivial⟩
      rw [spelling]
      exact labels_free label (by simp [inside])
  | .binary left operator right, legible => by
      obtain ⟨label, inside, spelling⟩ := binary_label operator legible.1
      refine ⟨?_, Expr.form_clear left legible.2.1, Expr.form_clear right legible.2.2, trivial⟩
      rw [spelling]
      exact labels_free label (by simp [inside])
  | .logical left operator right, legible => by
      obtain ⟨label, inside, spelling⟩ := logical_label operator legible.1
      refine ⟨?_, Expr.form_clear left legible.2.1, Expr.form_clear right legible.2.2, trivial⟩
      rw [spelling]
      exact labels_free label (by simp [inside])
  | .ternary condition yes no, legible =>
      ⟨free_text "?:" rfl, Expr.form_clear condition legible.1, Expr.form_clear yes legible.2.1, Expr.form_clear no legible.2.2,
        trivial⟩
  | .comma first second, legible =>
      ⟨free_text "," rfl, Expr.form_clear first legible.1, Expr.form_clear second legible.2, trivial⟩
  | .var _ name, legible => name_word name legible
  | .assign _ name value, legible => ⟨free_text "=" rfl, name_word name legible.1, Expr.form_clear value legible.2, trivial⟩
  | .call callee _ arguments, legible =>
      ⟨free_text "call" rfl, Expr.form_clear callee legible.1, Expr.formAll_clear arguments legible.2.2⟩
theorem Expr.formAll_clear : (exprs : List (Expr Unit)) → Expr.LegibleAll exprs → Form.ClearAll (Expr.formAll exprs)
  | [], _ => trivial
  | first :: rest, legible => ⟨Expr.form_clear first legible.1, Expr.formAll_clear rest legible.2⟩
end

theorem Expr.formOption_clear (value : Option (Expr Unit)) (legible : ∀ expr ∈ value, expr.Legible) :
    Form.ClearAll (Expr.formOption value) := by
  cases value with
  | none => trivial
  | some expr => exact ⟨Expr.form_clear expr (legible expr rfl), trivial⟩

mutual
theorem Stmt.form_clear : (stmt : Stmt Unit) → stmt.Legible → stmt.form.Clear
  | .ret _ value, legible => ⟨free_text "return" rfl, Expr.formOption_clear value legible.2⟩
  | .print _ value, legible => ⟨free_text "print" rfl, Expr.form_clear value legible.2, trivial⟩
  | .expr value, legible => ⟨free_text ";" rfl, Expr.form_clear value legible, trivial⟩
  | .var name value, legible => ⟨free_text "var" rfl, name_word name legible.1, Expr.formOption_clear value legible.2⟩
  | .block body, legible => ⟨free_text "block" rfl, Stmt.formAll_clear body legible⟩
  | .func name params body, legible => by
      refine ⟨free_text "fun" rfl, ⟨name_word name legible.1, ?_⟩, Stmt.formAll_clear body legible.2.2⟩
      intro text inside
      obtain ⟨param, among, rfl⟩ := List.mem_map.mp inside
      exact name_word param (legible.2.1 param among)
  | .branch condition yes none, legible =>
      ⟨free_text "if" rfl, Expr.form_clear condition legible.1, Stmt.form_clear yes legible.2, trivial⟩
  | .branch condition yes (some no), legible =>
      ⟨free_text "if" rfl, Expr.form_clear condition legible.1, Stmt.form_clear yes legible.2.1, Stmt.form_clear no legible.2.2,
        trivial⟩
  | .loop condition body, legible =>
      ⟨free_text "while" rfl, Expr.form_clear condition legible.1, Stmt.form_clear body legible.2, trivial⟩
theorem Stmt.formAll_clear : (stmts : List (Stmt Unit)) → Stmt.LegibleAll stmts → Form.ClearAll (Stmt.formAll stmts)
  | [], _ => trivial
  | first :: rest, legible => ⟨Stmt.form_clear first legible.1, Stmt.formAll_clear rest legible.2⟩
end

end Treewalk
