import Treewalk.Proofs.JoinedText

/-!
Printing tokens. The lexemes of a text with single spaces between them are a text without mistakes, and its tokens are
those of the first text but for their lines. So layout, comments and characters that start nothing make no difference to
the tokens.
-/

set_option autoImplicit false

namespace Treewalk

-- A token without its line.
def Token.content (token : Token) : Kind × String × Option Literal := (token.kind, token.lexeme, token.literal)

def Token.piece (token : Token) : Piece := .token token.kind token.literal token.lexeme.toList

def spaced (words : List Token) : String := " ".intercalate (words.map Token.lexeme)

def spacedPieces (words : List Token) : List Piece := (words.map Token.piece).intersperse (.gap [' '])

section printing

variable (words : List Token)

theorem spaced_cons (first second : Token) :
    (spaced (first :: second :: words)).toList = first.lexeme.toList ++ ' ' :: (spaced (second :: words)).toList := by
  simp [spaced]

theorem apart_blank (behind : List Char) : Apart (' ' :: behind) := by
  intro next found
  cases found
  decide

-- A space keeps each lexeme from being carried on by the next one.
theorem pieces_spaced (lexemes : ∀ token ∈ words, Lexeme token.kind token.literal token.lexeme.toList) :
    pieces (spaced words).toList = spacedPieces words := by
  induction words with
  | nil => simp [spaced, spacedPieces, pieces]
  | cons first rest ih =>
      obtain ⟨lexeme, others⟩ := List.forall_mem_cons.mp lexemes
      cases rest with
      | nil =>
          have cutsOff := cutsOff_lexeme _ _ _ [] lexeme apart_nil
          have whole : (spaced [first]).toList = first.lexeme.toList ++ [] := by simp [spaced]
          rw [whole, pieces_of_cutsOff _ [] _ cutsOff, pieces]
          rfl
      | cons second more =>
          have cutsOff := cutsOff_lexeme _ _ _ _ lexeme (apart_blank (spaced (second :: more)).toList)
          have space : CutsOff (' ' :: (spaced (second :: more)).toList) (.gap [' ']) (spaced (second :: more)).toList :=
            ⟨' ', _, rfl, cut_blank ' ' _ (by decide)⟩
          rw [spaced_cons, pieces_of_cutsOff _ _ _ cutsOff, pieces_of_cutsOff _ _ _ space, ih others]
          rfl

theorem body_spaced : ∀ line : Int,
    (Scan.body line (spacedPieces words)).map Token.content = words.map Token.content := by
  induction words with
  | nil => exact fun _ => rfl
  | cons first rest ih =>
      intro line
      have same : Token.content ⟨first.kind, String.ofList first.lexeme.toList, first.literal, line⟩ = first.content := by
        rw [String.ofList_toList]
        rfl
      cases rest with
      | nil => exact congrArg (· :: []) same
      | cons second more => exact congrArg₂ List.cons same (ih _)

theorem spacedPieces_regular : ∀ piece ∈ spacedPieces words, piece.regular = true := by
  induction words with
  | nil => simp [spacedPieces]
  | cons first rest ih =>
      cases rest with
      | nil => simp [spacedPieces, Token.piece, Piece.regular]
      | cons second more =>
          intro piece inside
          rcases List.mem_cons.mp inside with rfl | inside
          · rfl
          · rcases List.mem_cons.mp inside with rfl | inside
            · rfl
            · exact ih piece inside

end printing

theorem wordsOf_lexeme (source : String) (token : Token) (inside : token ∈ wordsOf source) :
    Lexeme token.kind token.literal token.lexeme.toList :=
  body_lexeme source.toList token 1 inside

theorem wordsOf_spaced (source : String) :
    (wordsOf (spaced (wordsOf source))).map Token.content = (wordsOf source).map Token.content := by
  have printed := pieces_spaced (wordsOf source) (wordsOf_lexeme source)
  rw [wordsOf, printed, body_spaced]

-- The tokens before the end of the input come back from their lexemes, so texts with the same lexemes have the same
-- tokens, whatever stands between the lexemes.
theorem scan_spaced (source : String) :
    (scan source).tokens = wordsOf source ++ [Token.endAt (1 + linesOf source)] ∧
    (∀ token ∈ wordsOf source, token.kind ≠ .endOfInput) ∧
    (scan (spaced (wordsOf source))).errors = [] ∧
    (∃ printed line, (scan (spaced (wordsOf source))).tokens = printed ++ [Token.endAt line] ∧
      printed.map Token.content = (wordsOf source).map Token.content) ∧
    ∀ other, (wordsOf other).map Token.lexeme = (wordsOf source).map Token.lexeme →
      (wordsOf other).map Token.content = (wordsOf source).map Token.content := by
  refine ⟨scan_tokens source, fun token => body_free source.toList token 1, ?_,
    ⟨_, _, scan_tokens _, wordsOf_spaced source⟩, fun other same => ?_⟩
  · rw [scan, errors_nil_iff, pieces_spaced (wordsOf source) (wordsOf_lexeme source)]
    exact spacedPieces_regular (wordsOf source)
  · have printed : spaced (wordsOf other) = spaced (wordsOf source) := congrArg (" ".intercalate ·) same
    rw [← wordsOf_spaced other, printed, wordsOf_spaced source]

-- A stray character, a comment and a string that is never closed, and the same tokens without them.
def ragged : String := "a@=\"b // c\"// d\n+1\n\"e"

def tidy : String := "a =\n\"b // c\"+ 1"

theorem ragged_spaced :
    spaced (wordsOf ragged) = "a = \"b // c\" + 1" ∧ (scan ragged).errors.length = 2 ∧
    (scan "a = \"b // c\" + 1").errors = [] ∧
    (wordsOf tidy).map Token.content = (wordsOf ragged).map Token.content := by
  obtain ⟨-, -, clean, -, alike⟩ := scan_spaced ragged
  have printed : spaced (wordsOf ragged) = "a = \"b // c\" + 1" := by decide +kernel
  have same : (wordsOf tidy).map Token.lexeme = (wordsOf ragged).map Token.lexeme := by decide +kernel
  rw [printed] at clean
  exact ⟨printed, by decide +kernel, clean, alike tidy same⟩

end Treewalk
