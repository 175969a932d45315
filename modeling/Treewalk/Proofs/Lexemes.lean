import Mathlib
import Treewalk.Token.Scan

/-!
The spellings of tokens. A lexeme is a mark, a string in quotes, a number or a word, and its characters decide the kind
and the value of the token. A lexeme is cut off a text whole if nothing behind it can carry it on, and what is cut off is
never shorter than a lexeme with which the text starts.
-/

set_option autoImplicit false

namespace Treewalk

inductive Lexeme : Kind → Option Literal → List Char → Prop where
  | mark (char : Char) (kind : Kind) (single : singleMark? char = some kind) : Lexeme kind none [char]
  | alone (char : Char) (alone joined : Kind) (paired : pairedMark? char = some (alone, joined)) :
      Lexeme alone none [char]
  | joined (char : Char) (alone joined : Kind) (paired : pairedMark? char = some (alone, joined)) :
      Lexeme joined none [char, '=']
  | slash : Lexeme .slash none ['/']
  | string (body : List Char) (unquoted : ∀ char ∈ body, char ≠ '"') :
      Lexeme .stringLiteral (some (.text (String.ofList body))) ('"' :: body ++ ['"'])
  | whole (first : Char) (digits : List Char) (all : ∀ char ∈ first :: digits, char.isDigit = true) :
      Lexeme .number (some (.number (Numeral.ofParts (first :: digits) [] 0))) (first :: digits)
  | fraction (first digit : Char) (digits places : List Char)
      (all : ∀ char ∈ first :: digits ++ digit :: places, char.isDigit = true) :
      Lexeme .number (some (.number (Numeral.ofParts (first :: digits) (digit :: places) 0)))
        (first :: digits ++ '.' :: digit :: places)
  | word (first : Char) (letters : List Char) (starts : startsName first = true)
      (continues : ∀ char ∈ letters, continuesName char = true) :
      Lexeme ((keyword? (String.ofList (first :: letters))).getD .identifier) none (first :: letters)

-- What kinds of characters there are.

section characters

variable (char : Char)

theorem word_code (word : continuesName char = true) : 0x30 ≤ char.toNat ∧ char.toNat ≤ 0x7a := by
  simp only [continuesName, Char.isAlphanum, Char.isAlpha, Char.isUpper, Char.isLower, Char.isDigit, Bool.or_eq_true,
    Bool.and_eq_true, decide_eq_true_eq, beq_iff_eq, ge_iff_le, UInt32.le_iff_toNat_le] at word
  rcases word with ((upper | lower) | digit) | rfl
  · exact ⟨Nat.le_trans (by decide) upper.1, Nat.le_trans upper.2 (by decide)⟩
  · exact ⟨Nat.le_trans (by decide) lower.1, Nat.le_trans lower.2 (by decide)⟩
  · exact ⟨Nat.le_trans (by decide) digit.1, Nat.le_trans digit.2 (by decide)⟩
  · decide

theorem blank_code (blank : Text.isBlank char = true) : char.toNat < 0x30 ∨ 0x7a < char.toNat := by
  simp only [Text.isBlank, Bool.or_eq_true, Bool.and_eq_true, decide_eq_true_eq, beq_iff_eq] at blank
  omega

theorem name_not_digit (starts : startsName char = true) : char.isDigit = false := by
  simp only [startsName, Char.isAlpha, Char.isUpper, Char.isLower, Char.isDigit, Bool.or_eq_true, Bool.and_eq_true,
    decide_eq_true_eq, beq_iff_eq, ge_iff_le, UInt32.le_iff_toNat_le, Bool.and_eq_false_iff,
    decide_eq_false_iff_not] at starts ⊢
  right
  rcases starts with (upper | lower) | rfl
  · exact Nat.not_le.mpr (Nat.lt_of_lt_of_le (by decide) upper.1)
  · exact Nat.not_le.mpr (Nat.lt_of_lt_of_le (by decide) lower.1)
  · decide

theorem word_of_digit (digit : char.isDigit = true) : continuesName char = true := by
  simp [continuesName, Char.isAlphanum, digit]

theorem word_of_name (starts : startsName char = true) : continuesName char = true := by
  simp only [startsName, continuesName, Char.isAlphanum, Bool.or_eq_true] at starts ⊢
  exact starts.imp_left .inl

theorem word_unmarked (word : continuesName char = true) :
    singleMark? char = none ∧ pairedMark? char = none ∧ char ≠ '/' ∧ Text.isBlank char = false ∧ char ≠ '"' := by
  have bounds := word_code char word
  refine ⟨?_, ?_, ?_, ?_, ?_⟩
  · unfold singleMark?
    split
    all_goals first | rfl | cases word
  · unfold pairedMark?
    split
    all_goals first | rfl | cases word
  · rintro rfl
    cases word
  · cases blank : Text.isBlank char with
    | false => rfl
    | true =>
        have outside := blank_code char blank
        omega
  · rintro rfl
    cases word

theorem blank_unmarked (blank : Text.isBlank char = true) :
    singleMark? char = none ∧ pairedMark? char = none ∧ char ≠ '/' := by
  refine ⟨?_, ?_, ?_⟩
  · unfold singleMark?
    split
    all_goals first | rfl | cases blank
  · unfold pairedMark?
    split
    all_goals first | rfl | cases blank
  · rintro rfl
    cases blank

end characters

-- The first character decides how a piece is cut off, whatever follows.

section firsts

variable (first : Char) (rest : List Char)

theorem cut_single (kind : Kind) (mark : singleMark? first = some kind) :
    cut first rest = (.token kind none [first], rest) := by
  simp only [cut, mark]

theorem cut_paired (alone joined : Kind) (mark : pairedMark? first = some (alone, joined)) :
    cut first rest = cutPaired first alone joined rest := by
  have single : singleMark? first = none := by
    unfold pairedMark? at mark
    split at mark
    all_goals first | rfl | cases mark
  simp only [cut, single, mark]

theorem cut_blank (blank : Text.isBlank first = true) : cut first rest = (.gap [first], rest) := by
  obtain ⟨single, paired, slash⟩ := blank_unmarked first blank
  simp only [cut, single, paired, if_neg slash, blank, if_true]

theorem cut_digit (digit : first.isDigit = true) : cut first rest = cutNumber first rest := by
  obtain ⟨single, paired, slash, blank, quote⟩ := word_unmarked first (word_of_digit first digit)
  simp only [cut, single, paired, if_neg slash, blank, if_neg quote, digit, if_true, Bool.false_eq_true, if_false]

theorem cut_letter (starts : startsName first = true) : cut first rest = cutName first rest := by
  obtain ⟨single, paired, slash, blank, quote⟩ := word_unmarked first (word_of_name first starts)
  simp only [cut, single, paired, if_neg slash, blank, if_neg quote, name_not_digit first starts, starts, if_true,
    Bool.false_eq_true, if_false]

end firsts

inductive Cuts (first : Char) : Prop where
  | single (kind : Kind) (mark : singleMark? first = some kind)
      (cuts : ∀ rest, cut first rest = (.token kind none [first], rest))
  | paired (alone joined : Kind) (mark : pairedMark? first = some (alone, joined))
      (cuts : ∀ rest, cut first rest = cutPaired first alone joined rest)
  | slash (isSlash : first = '/') (cuts : ∀ rest, cut first rest = cutSlash rest)
  | blank (isBlank : Text.isBlank first = true) (cuts : ∀ rest, cut first rest = (.gap [first], rest))
  | string (isQuote : first = '"') (cuts : ∀ rest, cut first rest = cutString rest)
  | number (isDigit : first.isDigit = true) (cuts : ∀ rest, cut first rest = cutNumber first rest)
  | name (starts : startsName first = true) (cuts : ∀ rest, cut first rest = cutName first rest)
  | stray (notBlank : Text.isBlank first = false) (cuts : ∀ rest, cut first rest = (.stray first, rest))

theorem cuts (first : Char) : Cuts first := by
  cases single : singleMark? first with
  | some kind => exact .single kind single fun rest => cut_single first rest kind single
  | none =>
      cases paired : pairedMark? first with
      | some kinds => exact .paired kinds.1 kinds.2 paired fun rest => cut_paired first rest kinds.1 kinds.2 paired
      | none =>
          by_cases slash : first = '/'
          · exact .slash slash fun _ => by simp only [cut, single, paired, if_pos slash]
          · by_cases blank : Text.isBlank first = true
            · exact .blank blank fun rest => cut_blank first rest blank
            · by_cases quote : first = '"'
              · exact .string quote fun _ => by
                  simp only [cut, single, paired, if_neg slash, if_neg blank, if_pos quote]
              · by_cases digit : first.isDigit = true
                · exact .number digit fun rest => cut_digit first rest digit
                · by_cases letter : startsName first = true
                  · exact .name letter fun rest => cut_letter first rest letter
                  · exact .stray (by simpa using blank) fun _ => by
                      simp only [cut, single, paired, if_neg slash, if_neg blank, if_neg quote, if_neg digit,
                        if_neg letter]

section cutting

variable (first : Char) (rest : List Char)

theorem cutPaired_alone (alone joined : Kind) (other : rest.head? ≠ some '=') :
    cutPaired first alone joined rest = (.token alone none [first], rest) := by
  unfold cutPaired
  split
  · exact absurd rfl other
  · rfl

theorem cutSlash_alone (other : rest.head? ≠ some '/') : cutSlash rest = (.token .slash none ['/'], rest) := by
  unfold cutSlash
  split
  · exact absurd rfl other
  · rfl

-- A point and a digit behind the whole part of a number.
def HasFraction (text : List Char) (digit : Char) (tail : List Char) : Prop :=
  text.dropWhile Char.isDigit = '.' :: digit :: tail ∧ digit.isDigit = true

theorem cutNumber_fraction (digit : Char) (tail : List Char) (fraction : HasFraction rest digit tail) :
    cutNumber first rest =
      (.token .number
        (some (.number (Numeral.ofParts (first :: rest.takeWhile Char.isDigit)
          (digit :: tail.takeWhile Char.isDigit) 0)))
        ((first :: rest.takeWhile Char.isDigit) ++ '.' :: digit :: tail.takeWhile Char.isDigit),
        tail.dropWhile Char.isDigit) := by
  obtain ⟨point, digits⟩ := fraction
  unfold cutNumber
  simp only [point, digits, if_true]

theorem cutNumber_whole (whole : ∀ digit tail, ¬ HasFraction rest digit tail) :
    cutNumber first rest =
      (.token .number (some (.number (Numeral.ofParts (first :: rest.takeWhile Char.isDigit) [] 0)))
        (first :: rest.takeWhile Char.isDigit), rest.dropWhile Char.isDigit) := by
  unfold cutNumber
  dsimp only
  split
  · rename_i digit tail point
    have none : ¬ digit.isDigit = true := fun digits => whole digit tail ⟨point, digits⟩
    simp [none, point]
  · rfl

end cutting

-- A search over characters that all pass ends behind them, if the next one does not pass.
theorem search_stops (passes : Char → Bool) (text behind : List Char) (all : ∀ char ∈ text, passes char = true)
    (stops : ∀ next ∈ behind.head?, passes next = false) :
    (text ++ behind).takeWhile passes = text ∧ (text ++ behind).dropWhile passes = behind := by
  rw [List.takeWhile_append_of_pos all, List.dropWhile_append_of_pos all]
  cases behind with
  | nil => simp
  | cons next later => simp [stops next rfl]

-- No character that could carry on a token.
def Apart (behind : List Char) : Prop :=
  ∀ next ∈ behind.head?, next ≠ '=' ∧ next ≠ '/' ∧ next ≠ '.' ∧ continuesName next = false

theorem apart_nil : Apart [] := by
  simp [Apart]

theorem apart_digit (behind : List Char) (apart : Apart behind) : ∀ next ∈ behind.head?, next.isDigit = false := by
  intro next found
  obtain ⟨-, -, -, other⟩ := apart next found
  cases digit : next.isDigit with
  | false => rfl
  | true => exact (word_of_digit next digit).symm.trans other

-- A piece is cut off a text, and some text is left.
def CutsOff (text : List Char) (piece : Piece) (behind : List Char) : Prop :=
  ∃ first rest, text = first :: rest ∧ cut first rest = (piece, behind)

theorem pieces_of_cutsOff (text behind : List Char) (piece : Piece) (cutsOff : CutsOff text piece behind) :
    pieces text = piece :: pieces behind := by
  obtain ⟨first, rest, rfl, cut⟩ := cutsOff
  rw [pieces, cut]

theorem cutString_closed (body behind : List Char) (unquoted : ∀ char ∈ body, char ≠ '"') :
    cutString (body ++ '"' :: behind) =
      (.token .stringLiteral (some (.text (String.ofList body))) ('"' :: body ++ ['"']), behind) := by
  obtain ⟨taken, dropped⟩ := search_stops (· != '"') body ('"' :: behind) (by simpa using unquoted) (by simp)
  unfold cutString
  simp only [taken, dropped]

-- The parts of a number with a fraction, whatever is behind it.
theorem number_parts (digit : Char) (digits places behind : List Char)
    (all : ∀ char ∈ digits ++ digit :: places, char.isDigit = true) :
    HasFraction (digits ++ '.' :: digit :: (places ++ behind)) digit (places ++ behind) ∧
      (digits ++ '.' :: digit :: (places ++ behind)).takeWhile Char.isDigit = digits ∧
      ∀ char ∈ places, char.isDigit = true := by
  rw [List.forall_mem_append, List.forall_mem_cons] at all
  obtain ⟨ofDigits, ofDigit, ofPlaces⟩ := all
  obtain ⟨taken, dropped⟩ := search_stops Char.isDigit digits ('.' :: digit :: (places ++ behind)) ofDigits (by simp)
  exact ⟨⟨dropped, ofDigit⟩, taken, ofPlaces⟩

theorem cutsOff_lexeme (kind : Kind) (literal : Option Literal) (text behind : List Char)
    (lexeme : Lexeme kind literal text) (apart : Apart behind) :
    CutsOff (text ++ behind) (.token kind literal text) behind := by
  have noDigit := apart_digit behind apart
  cases lexeme with
  | mark char kind single => exact ⟨char, behind, rfl, cut_single char behind kind single⟩
  | alone char alone joined paired =>
      have other : behind.head? ≠ some '=' := fun found => (apart '=' found).1 rfl
      refine ⟨char, behind, rfl, ?_⟩
      rw [cut_paired char behind _ _ paired, cutPaired_alone char behind _ _ other]
  | joined char alone joined paired =>
      refine ⟨char, '=' :: behind, rfl, ?_⟩
      rw [cut_paired char _ _ _ paired]
      rfl
  | slash =>
      have other : behind.head? ≠ some '/' := fun found => (apart '/' found).2.1 rfl
      exact ⟨'/', behind, rfl, cutSlash_alone behind other⟩
  | string body unquoted =>
      refine ⟨'"', body ++ '"' :: behind, by simp, ?_⟩
      exact cutString_closed body behind unquoted
  | whole first digits all =>
      obtain ⟨digit, others⟩ := List.forall_mem_cons.mp all
      obtain ⟨taken, dropped⟩ := search_stops Char.isDigit digits behind others noDigit
      have whole : ∀ digit tail, ¬ HasFraction (digits ++ behind) digit tail := by
        intro digit tail fraction
        rw [HasFraction, dropped] at fraction
        exact (apart '.' (by rw [fraction.1]; rfl)).2.2.1 rfl
      refine ⟨first, digits ++ behind, rfl, ?_⟩
      rw [cut_digit first _ digit, cutNumber_whole first _ whole, taken, dropped]
  | fraction first digit digits places all =>
      obtain ⟨ofFirst, others⟩ := List.forall_mem_cons.mp all
      obtain ⟨fraction, digitsTaken, ofPlaces⟩ := number_parts digit digits places behind others
      obtain ⟨taken, dropped⟩ := search_stops Char.isDigit places behind ofPlaces noDigit
      refine ⟨first, digits ++ '.' :: digit :: (places ++ behind), by simp, ?_⟩
      rw [cut_digit first _ ofFirst, cutNumber_fraction first _ digit _ fraction, taken, dropped, digitsTaken]
  | word first letters starts continues =>
      obtain ⟨taken, dropped⟩ := search_stops continuesName letters behind continues fun next found =>
        (apart next found).2.2.2
      refine ⟨first, letters ++ behind, rfl, ?_⟩
      rw [cut_letter first _ starts, cutName, taken, dropped]

-- So the characters of a lexeme decide its kind and its value.
theorem lexeme_unique (kind other : Kind) (literal value : Option Literal) (text : List Char)
    (one : Lexeme kind literal text) (two : Lexeme other value text) : kind = other ∧ literal = value := by
  obtain ⟨first, rest, shape, cut⟩ := cutsOff_lexeme kind literal text [] one apart_nil
  obtain ⟨first', rest', shape', cut'⟩ := cutsOff_lexeme other value text [] two apart_nil
  obtain ⟨rfl, rfl⟩ := List.cons.inj (shape.symm.trans shape')
  have same := cut.symm.trans cut'
  simp only [Prod.mk.injEq, Piece.token.injEq, and_true] at same
  exact same

-- What is cut off a text is a piece of it with at least one character.
theorem cut_text_length (first : Char) (rest : List Char) : 1 ≤ (cut first rest).1.text.length := by
  have head := cut_text_head first rest
  cases text : (cut first rest).1.text with
  | nil => simp [text] at head
  | cons char others => simp

theorem cut_covers (kind : Kind) (literal : Option Literal) (text behind : List Char)
    (lexeme : Lexeme kind literal text) (first : Char) (rest : List Char) (shape : text ++ behind = first :: rest) :
    text.length ≤ (cut first rest).1.text.length := by
  have positive := cut_text_length first rest
  cases lexeme with
  | mark | alone | slash => exact positive
  | joined char alone joined paired =>
      obtain ⟨rfl, rfl⟩ := List.cons.inj shape
      rw [cut_paired char _ _ _ paired]
      exact Nat.le_refl 2
  | string body unquoted =>
      simp only [List.cons_append, List.append_assoc, List.nil_append] at shape
      obtain ⟨rfl, rfl⟩ := List.cons.inj shape
      change _ ≤ (cutString (body ++ '"' :: behind)).1.text.length
      rw [cutString_closed body behind unquoted]
      exact Nat.le_refl _
  | whole char digits all =>
      rw [List.cons_append] at shape
      obtain ⟨rfl, rfl⟩ := List.cons.inj shape
      obtain ⟨digit, others⟩ := List.forall_mem_cons.mp all
      have taken : (digits ++ behind).takeWhile Char.isDigit = digits ++ behind.takeWhile Char.isDigit :=
        List.takeWhile_append_of_pos others
      rw [cut_digit char _ digit]
      by_cases fraction : ∃ digit tail, HasFraction (digits ++ behind) digit tail
      · obtain ⟨digit, tail, point⟩ := fraction
        rw [cutNumber_fraction char _ digit tail point, taken]
        simp only [Piece.text, List.length_append, List.length_cons]
        omega
      · rw [cutNumber_whole char _ fun digit tail point => fraction ⟨digit, tail, point⟩, taken]
        simp [Piece.text]
  | fraction char digit digits places all =>
      simp only [List.cons_append, List.append_assoc] at shape
      obtain ⟨rfl, rfl⟩ := List.cons.inj shape
      obtain ⟨ofChar, others⟩ := List.forall_mem_cons.mp all
      obtain ⟨fraction, taken, ofPlaces⟩ := number_parts digit digits places behind others
      rw [cut_digit char _ ofChar, cutNumber_fraction char _ digit _ fraction, taken,
        List.takeWhile_append_of_pos ofPlaces]
      simp [Piece.text]
  | word char letters starts continues =>
      rw [List.cons_append] at shape
      obtain ⟨rfl, rfl⟩ := List.cons.inj shape
      rw [cut_letter char _ starts, cutName, List.takeWhile_append_of_pos continues]
      simp [Piece.text]

end Treewalk
