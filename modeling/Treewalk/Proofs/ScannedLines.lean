import Treewalk.Proofs.JoinedText

/-!
Scanning line by line. A line break ends a comment, an operator, a number and a word, and only a string runs over it. So a
text is scanned by scanning what lies before and behind a line break apart, mistakes included, unless a string is open
there.
-/

set_option autoImplicit false

namespace Treewalk

-- The same mistake some lines further down.
def ScanError.down (lines : Int) (error : ScanError) : ScanError := { error with line := error.line + lines }

-- An open string is the only piece that is reported as one.
theorem error_unterminated (piece : Piece) (line : Int) :
    (∀ error ∈ (piece.error? line).toList, error.cause ≠ .unterminatedString) ↔ piece.closed = true := by
  cases piece <;> simp [Piece.error?, Piece.closed]

theorem errors_closed_iff (pieces : List Piece) : ∀ line : Int,
    (∀ error ∈ (Scan.ofPieces line pieces).errors, error.cause ≠ .unterminatedString) ↔
      ∀ piece ∈ pieces, piece.closed = true := by
  induction pieces with
  | nil => simp [Scan.ofPieces]
  | cons piece rest ih =>
      intro line
      rw [Scan.ofPieces, List.forall_mem_append, error_unterminated, ih, List.forall_mem_cons]

theorem errors_append (pieces more : List Piece) : ∀ line : Int,
    (Scan.ofPieces line (pieces ++ more)).errors =
      (Scan.ofPieces line pieces).errors ++ (Scan.ofPieces (line + newlinesOf pieces) more).errors := by
  induction pieces with
  | nil => simp [Scan.ofPieces, newlinesOf]
  | cons piece rest ih =>
      intro line
      have lines : line + newlinesOf (piece :: rest) = line + piece.newlines + newlinesOf rest := by
        simp only [newlinesOf, List.map_cons, List.sum_cons]
        omega
      simp only [List.cons_append, Scan.ofPieces, ih, lines, List.append_assoc]

theorem piece_error_down (lines : Int) (piece : Piece) (line : Int) :
    piece.error? (line + lines) = (piece.error? line).map (ScanError.down lines) := by
  cases piece with
  | token | gap | stray => rfl
  | unclosed text =>
      have further : line + lines + (Piece.unclosed text).newlines = line + (Piece.unclosed text).newlines + lines := by
        omega
      simp only [Piece.error?, Option.map_some, ScanError.down, further]

-- Pieces that start further down give the same scan further down.
theorem ofPieces_down (lines : Int) (pieces : List Piece) : ∀ line : Int,
    Scan.ofPieces (line + lines) pieces =
      ⟨(Scan.ofPieces line pieces).tokens.map (Token.down lines),
        (Scan.ofPieces line pieces).errors.map (ScanError.down lines)⟩ := by
  induction pieces with
  | nil => exact fun _ => rfl
  | cons piece rest ih =>
      intro line
      have token : (piece.token? (line + lines)).toList = (piece.token? line).toList.map (Token.down lines) := by
        cases piece <;> rfl
      have error : (piece.error? (line + lines)).toList = (piece.error? line).toList.map (ScanError.down lines) := by
        rw [piece_error_down]
        cases piece.error? line <;> rfl
      have further : line + lines + piece.newlines = line + piece.newlines + lines := by omega
      simp only [Scan.ofPieces, token, error, further, ih, List.map_append]

-- Only the first text has to be closed: mistakes of either text are reported as they are without the other.
theorem scan_of_joined_lines (first second : String)
    (closed : ∀ error ∈ (scan first).errors, error.cause ≠ .unterminatedString) :
    (scan first).tokens = wordsOf first ++ [Token.endAt (1 + linesOf first)] ∧
    (scan (first ++ "\n" ++ second)).tokens =
      wordsOf first ++ (scan second).tokens.map (Token.down (1 + linesOf first)) ∧
    (scan (first ++ "\n" ++ second)).errors =
      (scan first).errors ++ (scan second).errors.map (ScanError.down (1 + linesOf first)) := by
  have joined := pieces_lines first second ((errors_closed_iff _ _).mp closed)
  have start : 1 + (newlinesOf (pieces first.toList) : Int) + (Piece.gap ['\n']).newlines = 1 + (1 + linesOf first) := by
    rw [newlinesOf_pieces]
    change 1 + (linesOf first : Int) + 1 = _
    omega
  have behind : Scan.ofPieces (1 + newlinesOf (pieces first.toList)) (.gap ['\n'] :: pieces second.toList) =
      Scan.ofPieces (1 + (1 + linesOf first)) (pieces second.toList) := by
    rw [← start]
    rfl
  refine ⟨scan_tokens first, ?_, ?_⟩
  · rw [scan, joined, ofPieces_append, behind, ofPieces_down]
    rfl
  · rw [scan, joined, errors_append, behind, ofPieces_down]
    rfl

-- The first text ends with a number in front of a point and has a comment, a string over two lines and two characters that
-- start nothing; in the second a string stays open.
def unevenStart : String := "a@ // =\n\"b\nc\" <# 1."

def unevenRest : String := "= 2\n$ \"d\ne"

theorem uneven_scanned :
    (scan (unevenStart ++ "\n" ++ unevenRest)).errors =
      [⟨1, .unexpectedCharacter⟩, ⟨3, .unexpectedCharacter⟩, ⟨3, .unexpectedCharacter⟩, ⟨5, .unexpectedCharacter⟩,
        ⟨6, .unterminatedString⟩] ∧
    (scan (unevenStart ++ "\n" ++ unevenRest)).tokens.map (fun token => (token.lexeme, token.line)) =
      [("a", 1), ("\"b\nc\"", 2), ("<", 3), ("1", 3), ("=", 4), ("2", 4), ("", 6)] := by
  have closed : ∀ error ∈ (scan unevenStart).errors, error.cause ≠ .unterminatedString := by decide +kernel
  obtain ⟨-, tokens, errors⟩ := scan_of_joined_lines unevenStart unevenRest closed
  rw [tokens, errors]
  decide +kernel

end Treewalk
