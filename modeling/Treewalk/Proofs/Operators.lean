import Treewalk.Machine.Operator

/-!
What operators see of values, and what they answer. Two values are alike if no operator can tell them apart: the same
data, or functions with the same serial number, name and number of parameters. Alike operands give the same datum or the
same complaint. An answer is a datum or a complaint on the line of the operator, which names the operator or can be
about no other.
-/

set_option autoImplicit false

namespace Treewalk

variable {ν ρ ν' ρ' : Type}

def Value.Alike : Value ν ρ → Value ν' ρ' → Prop
  | .datum left, .datum right => left = right
  | .closure left, .closure right =>
      left.serial = right.serial ∧ left.name.lexeme = right.name.lexeme ∧ left.params.length = right.params.length
  | .clock, .clock => True
  | _, _ => False

theorem Value.alike_display (left : Value ν ρ) (right : Value ν' ρ') (alike : left.Alike right) :
    left.display = right.display := by
  cases left <;> cases right <;> simp_all [Alike, display]

theorem Value.alike_toBool (left : Value ν ρ) (right : Value ν' ρ') (alike : left.Alike right) :
    left.toBool = right.toBool := by
  cases left <;> cases right <;> simp_all [Alike, toBool]

theorem Value.alike_number (left : Value ν ρ) (right : Value ν' ρ') (alike : left.Alike right) :
    left.number? = right.number? := by
  cases left <;> cases right <;> simp_all [Alike]
  · rename_i datum
    cases datum <;> rfl
  · rfl
  · rfl

theorem Value.alike_isText (left : Value ν ρ) (right : Value ν' ρ') (alike : left.Alike right) :
    left.isText = right.isText := by
  cases left <;> cases right <;> simp_all [Alike]
  · rename_i datum
    cases datum <;> rfl
  · rfl
  · rfl

theorem Value.alike_arity (left : Value ν ρ) (right : Value ν' ρ') (alike : left.Alike right) :
    left.arity? = right.arity? := by
  cases left <;> cases right <;> simp_all [Alike, arity?]

theorem Value.alike_equals (first second : Value ν ρ) (first' second' : Value ν' ρ') (alike : first.Alike first')
    (alike' : second.Alike second') : first.equals second = first'.equals second' := by
  cases first <;> cases first' <;> cases second <;> cases second' <;> simp_all [Alike, equals]

theorem alike_decides (operator operator' : Token) (left : Value ν ρ) (right : Value ν' ρ')
    (kinds : operator.kind = operator'.kind) (alike : left.Alike right) :
    decides operator left = decides operator' right := by
  simp [decides, kinds, Value.alike_toBool left right alike]

-- The answer of an operator on a line: a datum, or a complaint there.
def answerOn (line : Int) : Except Cause Datum → Except Fault (Value ν ρ)
  | .ok datum => .ok (.datum datum)
  | .error cause => .error ⟨cause, line⟩

variable (operator operator' : Token) (left right : Value ν ρ) (left' right' : Value ν' ρ')

theorem alike_onNumbers (build : Float → Float → Datum) (lexemes : operator.lexeme = operator'.lexeme)
    (alikeLeft : left.Alike left') (alikeRight : right.Alike right') :
    ∃ answer,
      onNumbers operator left right (fun a b => (.datum (build a b) : Value ν ρ)) = answerOn operator.line answer ∧
      onNumbers operator' left' right' (fun a b => (.datum (build a b) : Value ν' ρ')) =
        answerOn operator'.line answer := by
  have sameLeft := Value.alike_number left left' alikeLeft
  have sameRight := Value.alike_number right right' alikeRight
  unfold onNumbers
  rw [sameLeft, sameRight, lexemes]
  cases left'.number? with
  | none => exact ⟨.error (.notNumbers operator'.lexeme), rfl, rfl⟩
  | some first =>
      cases right'.number? with
      | none => exact ⟨.error (.notNumbers operator'.lexeme), rfl, rfl⟩
      | some second => exact ⟨.ok (build first second), rfl, rfl⟩

theorem onNumbers_map {α β : Type} (build : Float → Float → α) (finish : α → β) :
    (onNumbers operator left right build).map finish = onNumbers operator left right (fun a b => finish (build a b)) := by
  unfold onNumbers
  cases left.number? with
  | none => rfl
  | some first => cases right.number? <;> rfl

theorem alike_addValues (line line' : Int) (alikeLeft : left.Alike left') (alikeRight : right.Alike right') :
    ∃ answer, addValues line left right = answerOn line answer ∧ addValues line' left' right' = answerOn line' answer := by
  have texts : (left.isText || right.isText) = (left'.isText || right'.isText) := by
    rw [Value.alike_isText left left' alikeLeft, Value.alike_isText right right' alikeRight]
  have joined : left.display ++ right.display = left'.display ++ right'.display := by
    rw [Value.alike_display left left' alikeLeft, Value.alike_display right right' alikeRight]
  have unnumbered : ∃ answer,
      (if left'.isText || right'.isText then .ok (.text (left'.display ++ right'.display))
        else .error ⟨.notAddable, line⟩ : Except Fault (Value ν ρ)) = answerOn line answer ∧
      (if left'.isText || right'.isText then .ok (.text (left'.display ++ right'.display))
        else .error ⟨.notAddable, line'⟩ : Except Fault (Value ν' ρ')) = answerOn line' answer := by
    by_cases text : (left'.isText || right'.isText) = true
    · exact ⟨.ok (.text (left'.display ++ right'.display)), by simp only [text, if_true]; rfl,
        by simp only [text, if_true]; rfl⟩
    · exact ⟨.error .notAddable, by simp only [text]; rfl, by simp only [text]; rfl⟩
  unfold addValues
  rw [Value.alike_number left left' alikeLeft, Value.alike_number right right' alikeRight, texts, joined]
  cases left'.number? with
  | none => exact unnumbered
  | some first =>
      cases right'.number? with
      | none => exact unnumbered
      | some second => exact ⟨.ok (.number (first + second)), rfl, rfl⟩

theorem alike_divideValues (lexemes : operator.lexeme = operator'.lexeme) (alikeLeft : left.Alike left')
    (alikeRight : right.Alike right') :
    ∃ answer, divideValues operator left right = answerOn operator.line answer ∧
      divideValues operator' left' right' = answerOn operator'.line answer := by
  unfold divideValues
  rw [Value.alike_number left left' alikeLeft, Value.alike_number right right' alikeRight]
  by_cases zero : (left'.number?.isSome && right'.number?.any (· == 0.0)) = true
  · exact ⟨.error .divisionByZero, by simp only [zero, if_true]; rfl, by simp only [zero, if_true]; rfl⟩
  · simp only [zero]
    have plain := alike_onNumbers operator operator' left right left' right' (fun a b => .number (a / b)) lexemes
      alikeLeft alikeRight
    rw [if_neg Bool.false_ne_true, if_neg Bool.false_ne_true, onNumbers_map, onNumbers_map]
    exact plain

-- Alike operands, and operators of one kind and spelling on whatever lines.
theorem alike_applyBinary (kinds : operator.kind = operator'.kind) (lexemes : operator.lexeme = operator'.lexeme)
    (alikeLeft : left.Alike left') (alikeRight : right.Alike right') :
    ∃ answer, applyBinary operator left right = answerOn operator.line answer ∧
      applyBinary operator' left' right' = answerOn operator'.line answer := by
  have numbers (build : Float → Float → Datum) :=
    alike_onNumbers operator operator' left right left' right' build lexemes alikeLeft alikeRight
  have same := Value.alike_equals left right left' right' alikeLeft alikeRight
  unfold applyBinary
  rw [kinds]
  cases operator'.kind <;> simp only [onNumbers_map]
  case plus => exact alike_addValues left right left' right' operator.line operator'.line alikeLeft alikeRight
  case minus => exact numbers (fun a b => .number (a - b))
  case star => exact numbers (fun a b => .number (a * b))
  case slash => exact alike_divideValues operator operator' left right left' right' lexemes alikeLeft alikeRight
  case greater => exact numbers (fun a b => .boolean (decide (b < a)))
  case greaterEqual => exact numbers (fun a b => .boolean (decide (b ≤ a)))
  case less => exact numbers (fun a b => .boolean (decide (a < b)))
  case lessEqual => exact numbers (fun a b => .boolean (decide (a ≤ b)))
  case equalEqual => exact ⟨.ok (.boolean (left'.equals right')), by rw [same]; rfl, rfl⟩
  case bangEqual => exact ⟨.ok (.boolean !(left'.equals right')), by rw [same]; rfl, rfl⟩
  all_goals exact ⟨.ok .nil, rfl, rfl⟩

theorem alike_applyUnary (kinds : operator.kind = operator'.kind) (lexemes : operator.lexeme = operator'.lexeme)
    (alike : left.Alike left') :
    ∃ answer, applyUnary operator left = answerOn operator.line answer ∧
      applyUnary operator' left' = answerOn operator'.line answer := by
  unfold applyUnary
  rw [kinds, lexemes, Value.alike_number left left' alike, Value.alike_toBool left left' alike]
  cases operator'.kind
  case minus =>
    cases left'.number? with
    | none => exact ⟨.error (.notNumber operator'.lexeme), rfl, rfl⟩
    | some value => exact ⟨.ok (.number (-value)), rfl, rfl⟩
  case bang => exact ⟨.ok (.boolean !left'.toBool), rfl, rfl⟩
  all_goals exact ⟨.ok .nil, rfl, rfl⟩

-- The complaints that an operator can make about its operands.
inductive Cause.OfOperator (operator : Token) : Cause → Prop where
  | notNumber : OfOperator operator (.notNumber operator.lexeme)
  | notNumbers : OfOperator operator (.notNumbers operator.lexeme)
  | notAddable (isPlus : operator.kind = .plus) : OfOperator operator .notAddable
  | divisionByZero (isSlash : operator.kind = .slash) : OfOperator operator .divisionByZero

inductive Judged (operator : Token) : Except Fault (Value ν ρ) → Prop where
  | answer (datum : Datum) : Judged operator (.ok (.datum datum))
  | refusal (cause : Cause) (made : cause.OfOperator operator) : Judged operator (.error ⟨cause, operator.line⟩)

theorem onNumbers_judged (build : Float → Float → Datum) :
    Judged operator (onNumbers operator left right fun a b => (.datum (build a b) : Value ν ρ)) := by
  unfold onNumbers
  cases left.number? with
  | none => exact .refusal _ .notNumbers
  | some first =>
      cases right.number? with
      | none => exact .refusal _ .notNumbers
      | some second => exact .answer (build first second)

theorem addValues_judged (isPlus : operator.kind = .plus) : Judged operator (addValues operator.line left right) := by
  have unnumbered : Judged operator
      (if left.isText || right.isText then .ok (.text (left.display ++ right.display))
        else .error ⟨.notAddable, operator.line⟩ : Except Fault (Value ν ρ)) := by
    by_cases text : (left.isText || right.isText) = true
    · rw [if_pos text]
      exact .answer _
    · rw [if_neg text]
      exact .refusal _ (.notAddable isPlus)
  unfold addValues
  cases left.number? with
  | none => exact unnumbered
  | some first =>
      cases right.number? with
      | none => exact unnumbered
      | some second => exact .answer _

theorem divideValues_judged (isSlash : operator.kind = .slash) :
    Judged operator (divideValues operator left right) := by
  unfold divideValues
  by_cases zero : (left.number?.isSome && right.number?.any (· == 0.0)) = true
  · rw [if_pos zero]
    exact .refusal _ (.divisionByZero isSlash)
  · rw [if_neg zero, onNumbers_map]
    exact onNumbers_judged operator left right fun a b => .number (a / b)

theorem applyBinary_judged : Judged operator (applyBinary operator left right) := by
  have numbers (build : Float → Float → Datum) := onNumbers_judged operator left right build
  unfold applyBinary
  cases kind : operator.kind <;> simp only [onNumbers_map]
  case plus => exact addValues_judged operator left right kind
  case minus => exact numbers fun a b => .number (a - b)
  case star => exact numbers fun a b => .number (a * b)
  case slash => exact divideValues_judged operator left right kind
  case greater => exact numbers fun a b => .boolean (decide (b < a))
  case greaterEqual => exact numbers fun a b => .boolean (decide (b ≤ a))
  case less => exact numbers fun a b => .boolean (decide (a < b))
  case lessEqual => exact numbers fun a b => .boolean (decide (a ≤ b))
  all_goals exact .answer _

theorem applyUnary_judged : Judged operator (applyUnary operator left) := by
  unfold applyUnary
  cases operator.kind
  case minus =>
    cases left.number? with
    | none => exact .refusal _ .notNumber
    | some value => exact .answer _
  all_goals exact .answer _

end Treewalk
