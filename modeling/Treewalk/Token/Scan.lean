import Treewalk.Token.Piece

/-!
From pieces to tokens. Tokens stand on the line on which their piece starts; what cannot be a token is
reported and left out, so the tokens always end with the end of the input.
-/

set_option autoImplicit false

namespace Treewalk

inductive ScanCause where
  | unexpectedCharacter
  | unterminatedString
deriving DecidableEq, Repr

def ScanCause.message : ScanCause → String
  | unexpectedCharacter => "Unexpected character."
  | unterminatedString => "Unterminated string."

structure ScanError where
  line : Int
  cause : ScanCause
deriving DecidableEq, Repr

def ScanError.display (error : ScanError) : String :=
  "[line " ++ toString error.line ++ "] Error: " ++ error.cause.message

def Piece.newlines (piece : Piece) : Nat := piece.text.count '\n'

-- The token of a piece that starts on a line.
def Piece.token? (line : Int) : Piece → Option Token
  | .token kind literal text => some ⟨kind, String.ofList text, literal, line⟩
  | _ => none

-- The mistake in a piece that starts on a line. An open string is noticed where the text ends.
def Piece.error? (line : Int) (piece : Piece) : Option ScanError :=
  match piece with
  | .stray _ => some ⟨line, .unexpectedCharacter⟩
  | .unclosed _ => some ⟨line + piece.newlines, .unterminatedString⟩
  | _ => none

structure Scan where
  tokens : List Token
  errors : List ScanError
deriving Repr

def Scan.ofPieces (line : Int) : List Piece → Scan
  | [] => ⟨[Token.endAt line], []⟩
  | piece :: rest =>
      let later := Scan.ofPieces (line + piece.newlines) rest
      ⟨(piece.token? line).toList ++ later.tokens, (piece.error? line).toList ++ later.errors⟩

def scan (source : String) : Scan := Scan.ofPieces 1 (pieces source.toList)

end Treewalk
