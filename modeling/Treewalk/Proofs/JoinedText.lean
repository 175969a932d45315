import Treewalk.Proofs.Divisions
import Treewalk.Proofs.Moving

/-!
Two program texts with a line break between them. If the first has no open string, the joined text has the pieces of
both. Where both texts are without mistakes it has the tokens of the first and those of the second, as many lines further
down as the first has.
-/

set_option autoImplicit false

namespace Treewalk

-- A search that ends in a text, or at the character behind it, goes no further.
theorem takeWhile_before (passes : Char → Bool) (stop : Char) (more text : List Char)
    (stops : text.dropWhile passes = [] → passes stop = false) :
    (text ++ stop :: more).takeWhile passes = text.takeWhile passes := by
  induction text with
  | nil => simp [stops rfl]
  | cons first rest ih =>
      cases passed : passes first with
      | false => simp [passed]
      | true =>
          have later : rest.dropWhile passes = [] → passes stop = false := by simpa [passed] using stops
          simp [passed, ih later]

theorem dropWhile_before (passes : Char → Bool) (stop : Char) (more text : List Char)
    (stops : text.dropWhile passes = [] → passes stop = false) :
    (text ++ stop :: more).dropWhile passes = text.dropWhile passes ++ stop :: more := by
  induction text with
  | nil => simp [stops rfl]
  | cons first rest ih =>
      cases passed : passes first with
      | false => simp [passed]
      | true =>
          have later : rest.dropWhile passes = [] → passes stop = false := by simpa [passed] using stops
          simp [passed, ih later]

-- A piece that is part of a program: a token or a gap.
def Piece.regular : Piece → Bool
  | .token _ _ _ => true
  | .gap _ => true
  | .stray _ => false
  | .unclosed _ => false

-- A piece that ends where it does whatever comes behind the text: any but a string that is never closed.
def Piece.closed : Piece → Bool
  | .unclosed _ => false
  | _ => true

theorem closed_of_regular (piece : Piece) (regular : piece.regular = true) : piece.closed = true := by
  cases piece with
  | token | gap | stray => rfl
  | unclosed text => cases regular

section cutting

variable (first : Char) (rest more : List Char)

-- A piece is cut off in the same way when a line break and more text follow.
def CutBefore (alone joined : Piece × List Char) : Prop := joined = (alone.1, alone.2 ++ '\n' :: more)

-- Behind the text comes a line break, which starts with nothing that would extend a piece.
theorem head_before (next : Char) (other : next ≠ '\n') (missing : rest.head? ≠ some next) :
    (rest ++ '\n' :: more).head? ≠ some next := by
  cases rest with
  | nil => exact fun same => other (Option.some.inj same).symm
  | cons first tail => exact missing

theorem cutPaired_before (alone joined : Kind) :
    CutBefore more (cutPaired first alone joined rest) (cutPaired first alone joined (rest ++ '\n' :: more)) := by
  by_cases extended : rest.head? = some '='
  · obtain ⟨tail, rfl⟩ := List.head?_eq_some_iff.mp extended
    rfl
  · rw [cutPaired_alone first rest alone joined extended]
    exact cutPaired_alone first _ alone joined (head_before rest more '=' (by decide) extended)

theorem cutSlash_before : CutBefore more (cutSlash rest) (cutSlash (rest ++ '\n' :: more)) := by
  by_cases comment : rest.head? = some '/'
  · obtain ⟨tail, rfl⟩ := List.head?_eq_some_iff.mp comment
    simp only [CutBefore, List.cons_append, cutSlash]
    rw [takeWhile_before _ _ _ _ (fun _ => by decide), dropWhile_before _ _ _ _ (fun _ => by decide)]
  · rw [cutSlash_alone rest comment]
    exact cutSlash_alone _ (head_before rest more '/' (by decide) comment)

theorem cutString_before (closed : (cutString rest).1.closed = true) :
    CutBefore more (cutString rest) (cutString (rest ++ '\n' :: more)) := by
  unfold cutString at closed ⊢
  dsimp only at closed ⊢
  cases quote : rest.dropWhile (· != '"') with
  | nil =>
      rw [quote] at closed
      cases closed
  | cons close behind =>
      have stops : rest.dropWhile (· != '"') = [] → ('\n' != '"') = false := by
        intro unclosed
        cases quote.symm.trans unclosed
      rw [takeWhile_before _ _ _ _ stops, dropWhile_before _ _ _ _ stops, quote]
      rfl

-- The line break is no digit, so it ends a number, and a point in front of it is left.
theorem hasFraction_before (digit : Char) (tail : List Char) (fraction : HasFraction (rest ++ '\n' :: more) digit tail) :
    ∃ behind, HasFraction rest digit behind := by
  obtain ⟨point, digits⟩ := fraction
  rw [dropWhile_before Char.isDigit '\n' more rest (fun _ => by decide)] at point
  cases left : rest.dropWhile Char.isDigit with
  | nil => simp [left] at point
  | cons head behind =>
      rw [left] at point
      obtain ⟨rfl, follows⟩ := List.cons.inj point
      cases behind with
      | nil =>
          obtain ⟨rfl, -⟩ := List.cons.inj follows
          cases digits
      | cons next behind =>
          obtain ⟨rfl, -⟩ := List.cons.inj follows
          exact ⟨behind, left, digits⟩

theorem cutNumber_before : CutBefore more (cutNumber first rest) (cutNumber first (rest ++ '\n' :: more)) := by
  have taken := takeWhile_before Char.isDigit '\n' more rest (fun _ => by decide)
  have dropped := dropWhile_before Char.isDigit '\n' more rest (fun _ => by decide)
  by_cases fraction : ∃ digit tail, HasFraction rest digit tail
  · obtain ⟨digit, tail, point, digits⟩ := fraction
    rw [point] at dropped
    rw [cutNumber_fraction first rest digit tail ⟨point, digits⟩,
      cutNumber_fraction first _ digit (tail ++ '\n' :: more) ⟨dropped, digits⟩, taken,
      takeWhile_before Char.isDigit '\n' more tail (fun _ => by decide),
      dropWhile_before Char.isDigit '\n' more tail (fun _ => by decide)]
    rfl
  · have whole : ∀ digit tail, ¬ HasFraction rest digit tail := fun digit tail point => fraction ⟨digit, tail, point⟩
    have wholeBefore : ∀ digit tail, ¬ HasFraction (rest ++ '\n' :: more) digit tail := by
      intro digit tail point
      obtain ⟨behind, inside⟩ := hasFraction_before rest more digit tail point
      exact whole digit behind inside
    rw [cutNumber_whole first rest whole, cutNumber_whole first _ wholeBefore, taken, dropped]
    rfl

theorem cutName_before : CutBefore more (cutName first rest) (cutName first (rest ++ '\n' :: more)) := by
  simp only [CutBefore, cutName]
  rw [takeWhile_before _ _ _ _ (fun _ => by decide), dropWhile_before _ _ _ _ (fun _ => by decide)]

theorem cut_before (closed : (cut first rest).1.closed = true) :
    CutBefore more (cut first rest) (cut first (rest ++ '\n' :: more)) := by
  cases cuts first with
  | single kind mark cuts =>
      rw [cuts, cuts]
      rfl
  | paired alone joined mark cuts =>
      rw [cuts, cuts]
      exact cutPaired_before first rest more alone joined
  | slash _ cuts =>
      rw [cuts, cuts]
      exact cutSlash_before rest more
  | blank _ cuts =>
      rw [cuts, cuts]
      rfl
  | string _ cuts =>
      rw [cuts] at closed
      rw [cuts, cuts]
      exact cutString_before rest more closed
  | number _ cuts =>
      rw [cuts, cuts]
      exact cutNumber_before first rest more
  | name _ cuts =>
      rw [cuts, cuts]
      exact cutName_before first rest more
  | stray _ cuts =>
      rw [cuts, cuts]
      rfl

end cutting

-- All pieces of the joined text.
theorem pieces_joined (more text : List Char) (closed : ∀ piece ∈ pieces text, piece.closed = true) :
    pieces (text ++ '\n' :: more) = pieces text ++ .gap ['\n'] :: pieces more := by
  fun_induction pieces text with
  | case1 =>
      rw [List.nil_append, pieces]
      rfl
  | case2 first rest ih =>
      have cuts := cut_before first rest more (closed _ List.mem_cons_self)
      rw [List.cons_append, pieces, cuts]
      rw [ih fun piece inside => closed piece (List.mem_cons_of_mem _ inside)]
      rfl

theorem pieces_lines (first second : String) (closed : ∀ piece ∈ pieces first.toList, piece.closed = true) :
    pieces (first ++ "\n" ++ second).toList = pieces first.toList ++ .gap ['\n'] :: pieces second.toList := by
  have characters : (first ++ "\n" ++ second).toList = first.toList ++ '\n' :: second.toList := by simp
  rw [characters, pieces_joined _ _ closed]

-- The lines that pieces go down.
def newlinesOf (pieces : List Piece) : Nat := (pieces.map Piece.newlines).sum

theorem ofPieces_append (pieces more : List Piece) : ∀ line : Int,
    (Scan.ofPieces line (pieces ++ more)).tokens =
      Scan.body line pieces ++ (Scan.ofPieces (line + newlinesOf pieces) more).tokens := by
  induction pieces with
  | nil => simp [Scan.body, newlinesOf]
  | cons piece rest ih =>
      intro line
      have lines : line + newlinesOf (piece :: rest) = line + piece.newlines + newlinesOf rest := by
        simp only [newlinesOf, List.map_cons, List.sum_cons]
        omega
      simp only [List.cons_append, Scan.ofPieces, Scan.body, ih, lines, List.append_assoc]

theorem body_down (lines : Int) (pieces : List Piece) : ∀ line : Int,
    Scan.body (line + lines) pieces = (Scan.body line pieces).map (Token.down lines) := by
  induction pieces with
  | nil => exact fun _ => rfl
  | cons piece rest ih =>
      intro line
      have token : (piece.token? (line + lines)).toList = (piece.token? line).toList.map (Token.down lines) := by
        cases piece <;> rfl
      have further : line + lines + piece.newlines = line + piece.newlines + lines := by omega
      simp only [Scan.body, List.map_append, token, further, ih]

-- A text is scanned without a mistake when all its pieces are regular, on whatever line it starts.
theorem errors_nil_iff (pieces : List Piece) : ∀ line : Int,
    (Scan.ofPieces line pieces).errors = [] ↔ ∀ piece ∈ pieces, piece.regular = true := by
  induction pieces with
  | nil => exact fun _ => ⟨fun _ _ inside => (nomatch inside), fun _ => rfl⟩
  | cons piece rest ih =>
      intro line
      have here : (piece.error? line).toList = [] ↔ piece.regular = true := by
        cases piece <;> simp [Piece.error?, Piece.regular]
      simp only [Scan.ofPieces, List.append_eq_nil_iff, here, ih, List.forall_mem_cons]

-- The tokens of a text without the end of the input, and the number of its line breaks.

def wordsOf (source : String) : List Token := Scan.body 1 (pieces source.toList)

def linesOf (source : String) : Nat := source.toList.count '\n'

theorem newlinesOf_pieces (source : String) : newlinesOf (pieces source.toList) = linesOf source := by
  have counted := congrArg (List.count '\n') (pieces_text source.toList)
  rw [List.count_flatMap] at counted
  exact counted

-- A text that starts on some line.
theorem tokens_from (source : String) (line : Int) :
    (Scan.ofPieces line (pieces source.toList)).tokens =
      Scan.body line (pieces source.toList) ++ [Token.endAt (line + linesOf source)] := by
  have whole := ofPieces_append (pieces source.toList) [] line
  rw [List.append_nil, newlinesOf_pieces] at whole
  exact whole

theorem scan_tokens (source : String) : (scan source).tokens = wordsOf source ++ [Token.endAt (1 + linesOf source)] :=
  tokens_from source 1

theorem scan_joined (first second : String) (firstClean : (scan first).errors = [])
    (secondClean : (scan second).errors = []) :
    (scan (first ++ "\n" ++ second)).errors = [] ∧
    ∃ last, (scan (first ++ "\n" ++ second)).tokens =
      wordsOf first ++ (wordsOf second).map (Token.down (linesOf first + 1)) ++ [Token.endAt last] := by
  have firstRegular := (errors_nil_iff _ _).mp firstClean
  have secondRegular := (errors_nil_iff _ _).mp secondClean
  have joined := pieces_lines first second fun piece inside => closed_of_regular piece (firstRegular piece inside)
  refine ⟨?_, 1 + linesOf first + 1 + linesOf second, ?_⟩
  · rw [scan, joined, errors_nil_iff]
    intro piece inside
    rcases List.mem_append.mp inside with early | late
    · exact firstRegular piece early
    · rcases List.mem_cons.mp late with rfl | behind
      · rfl
      · exact secondRegular piece behind
  · have behind : Scan.body (1 + linesOf first + 1) (pieces second.toList) =
        (wordsOf second).map (Token.down (linesOf first + 1)) := by
      rw [Int.add_assoc, body_down]
      rfl
    rw [scan, joined, ofPieces_append, newlinesOf_pieces, List.append_assoc, ← behind, ← tokens_from]
    rfl

end Treewalk
