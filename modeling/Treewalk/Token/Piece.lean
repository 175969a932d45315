import Treewalk.Text.Blank
import Treewalk.Token.Basic

/-!
Program text cut into pieces. Every character belongs to exactly one piece: a token, a gap between tokens,
a character that starts nothing, or a string that is never closed. `pieces_text` says that nothing is lost.
-/

set_option autoImplicit false

namespace Treewalk

inductive Piece where
  | token (kind : Kind) (literal : Option Literal) (text : List Char)
  | gap (text : List Char)
  | stray (char : Char)
  | unclosed (text : List Char)
deriving Repr

def Piece.text : Piece → List Char
  | .token _ _ text => text
  | .gap text => text
  | .stray char => [char]
  | .unclosed text => text

-- Marks that no other character can extend.
def singleMark? : Char → Option Kind
  | '(' => some .leftParen
  | ')' => some .rightParen
  | '\x7b' => some .leftBrace
  | '\x7d' => some .rightBrace
  | ',' => some .comma
  | '-' => some .minus
  | '+' => some .plus
  | ';' => some .semicolon
  | '*' => some .star
  | '?' => some .question
  | ':' => some .colon
  | _ => none

-- Marks that an equals sign extends: the kind alone, and the kind with it.
def pairedMark? : Char → Option (Kind × Kind)
  | '!' => some (.bang, .bangEqual)
  | '=' => some (.equal, .equalEqual)
  | '<' => some (.less, .lessEqual)
  | '>' => some (.greater, .greaterEqual)
  | _ => none

def keyword? : String → Option Kind
  | "and" => some .kwAnd
  | "else" => some .kwElse
  | "false" => some .kwFalse
  | "for" => some .kwFor
  | "fun" => some .kwFun
  | "if" => some .kwIf
  | "nil" => some .kwNil
  | "or" => some .kwOr
  | "print" => some .kwPrint
  | "return" => some .kwReturn
  | "true" => some .kwTrue
  | "var" => some .kwVar
  | "while" => some .kwWhile
  | _ => none

def startsName (c : Char) : Bool := c.isAlpha || c == '_'
def continuesName (c : Char) : Bool := c.isAlphanum || c == '_'

def cutPaired (first : Char) (alone joined : Kind) : List Char → Piece × List Char
  | '=' :: rest => (.token joined none [first, '='], rest)
  | rest => (.token alone none [first], rest)

-- A slash, or a comment up to the end of its line.
def cutSlash : List Char → Piece × List Char
  | '/' :: rest => (.gap ('/' :: '/' :: rest.takeWhile (· != '\n')), rest.dropWhile (· != '\n'))
  | rest => (.token .slash none ['/'], rest)

-- A string after its opening quote. It has no escapes and may run over lines.
def cutString (rest : List Char) : Piece × List Char :=
  let body := rest.takeWhile (· != '"')
  match rest.dropWhile (· != '"') with
  | [] => (.unclosed ('"' :: body), [])
  | close :: tail =>
      (.token .stringLiteral (some (.text (String.ofList body))) ('"' :: body ++ [close]), tail)

-- A number from its first digit on. A point belongs to it only before another digit.
def cutNumber (first : Char) (rest : List Char) : Piece × List Char :=
  let whole := first :: rest.takeWhile Char.isDigit
  match rest.dropWhile Char.isDigit with
  | '.' :: digit :: tail =>
      if digit.isDigit then
        let fraction := digit :: tail.takeWhile Char.isDigit
        (.token .number (some (.number (Numeral.ofParts whole fraction 0))) (whole ++ '.' :: fraction),
          tail.dropWhile Char.isDigit)
      else (.token .number (some (.number (Numeral.ofParts whole [] 0))) whole, '.' :: digit :: tail)
  | tail => (.token .number (some (.number (Numeral.ofParts whole [] 0))) whole, tail)

def cutName (first : Char) (rest : List Char) : Piece × List Char :=
  let word := first :: rest.takeWhile continuesName
  (.token ((keyword? (String.ofList word)).getD .identifier) none word, rest.dropWhile continuesName)

/-- The piece that starts with a character, and the text behind it. -/
def cut (first : Char) (rest : List Char) : Piece × List Char :=
  match singleMark? first with
  | some kind => (.token kind none [first], rest)
  | none => match pairedMark? first with
    | some (alone, joined) => cutPaired first alone joined rest
    | none =>
        if first = '/' then cutSlash rest
        else if Text.isBlank first then (.gap [first], rest)
        else if first = '"' then cutString rest
        else if first.isDigit then cutNumber first rest
        else if startsName first then cutName first rest
        else (.stray first, rest)

theorem cutPaired_text (first : Char) (alone joined : Kind) (rest : List Char) :
    (cutPaired first alone joined rest).1.text ++ (cutPaired first alone joined rest).2 = first :: rest := by
  unfold cutPaired
  split <;> simp [Piece.text]

theorem cutSlash_text (rest : List Char) : (cutSlash rest).1.text ++ (cutSlash rest).2 = '/' :: rest := by
  unfold cutSlash
  split <;> simp [Piece.text, List.takeWhile_append_dropWhile]

theorem cutString_text (rest : List Char) :
    (cutString rest).1.text ++ (cutString rest).2 = '"' :: rest := by
  have whole := List.takeWhile_append_dropWhile (p := (· != '"')) (l := rest)
  unfold cutString
  split <;> rename_i tail <;> rw [tail] at whole <;> simpa [Piece.text] using whole

theorem cutNumber_text (first : Char) (rest : List Char) :
    (cutNumber first rest).1.text ++ (cutNumber first rest).2 = first :: rest := by
  have whole := List.takeWhile_append_dropWhile (p := Char.isDigit) (l := rest)
  unfold cutNumber
  dsimp only
  split
  · rename_i digit tail point
    rw [point] at whole
    split <;> simpa [Piece.text, List.takeWhile_append_dropWhile] using whole
  · simp [Piece.text]

theorem cutName_text (first : Char) (rest : List Char) :
    (cutName first rest).1.text ++ (cutName first rest).2 = first :: rest := by
  simp [cutName, Piece.text, List.takeWhile_append_dropWhile]

/-- A piece and the text behind it make up the text. -/
theorem cut_text (first : Char) (rest : List Char) :
    (cut first rest).1.text ++ (cut first rest).2 = first :: rest := by
  unfold cut
  split
  · simp [Piece.text]
  · split
    · exact cutPaired_text ..
    · by_cases slash : first = '/'
      · rw [if_pos slash, slash]; exact cutSlash_text rest
      · rw [if_neg slash]
        by_cases blank : Text.isBlank first
        · simp [blank, Piece.text]
        · rw [if_neg blank]
          by_cases quote : first = '"'
          · rw [if_pos quote, quote]; exact cutString_text rest
          · rw [if_neg quote]
            split
            · exact cutNumber_text first rest
            · split
              · exact cutName_text first rest
              · simp [Piece.text]

theorem cut_text_head (first : Char) (rest : List Char) : (cut first rest).1.text.head? = some first := by
  unfold cut
  split
  · rfl
  · split
    · unfold cutPaired; split <;> rfl
    · by_cases slash : first = '/'
      · rw [if_pos slash, slash]; unfold cutSlash; split <;> rfl
      · rw [if_neg slash]
        by_cases blank : Text.isBlank first
        · simp [blank, Piece.text]
        · rw [if_neg blank]
          by_cases quote : first = '"'
          · rw [if_pos quote, quote]; unfold cutString; dsimp only; split <;> rfl
          · rw [if_neg quote]
            split
            · unfold cutNumber; dsimp only; split
              · split <;> rfl
              · rfl
            · split <;> rfl

theorem cut_rest_shorter (first : Char) (rest : List Char) : (cut first rest).2.length < rest.length + 1 := by
  have whole := congrArg List.length (cut_text first rest)
  have nonempty : (cut first rest).1.text ≠ [] := by
    intro empty
    have head := cut_text_head first rest
    simp [empty] at head
  have positive := List.length_pos_iff.mpr nonempty
  simp only [List.length_append, List.length_cons] at whole
  omega

def pieces : List Char → List Piece
  | [] => []
  | first :: rest => (cut first rest).1 :: pieces (cut first rest).2
termination_by text => text.length
decreasing_by exact cut_rest_shorter first rest

/-- The pieces, one after another, are the text. -/
theorem pieces_text (text : List Char) : (pieces text).flatMap Piece.text = text := by
  fun_induction pieces text with
  | case1 => rfl
  | case2 first rest ih => rw [List.flatMap_cons, ih, cut_text]

end Treewalk
