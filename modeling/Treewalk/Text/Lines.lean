/-!
Text in lines.
-/

set_option autoImplicit false

namespace Treewalk.Text

-- Characters of a line of text, without a carriage return at its end.
def dropReturn (line : List Char) : List Char :=
  if line.getLast? = some '\r' then line.dropLast else line

-- The lines of a text. Newlines end lines, a carriage return before one belongs to it, and no empty line
-- follows the last newline.
def linesFrom (line : List Char) : List Char → List String
  | [] => if line.isEmpty then [] else [String.ofList line.reverse]
  | '\n' :: rest => String.ofList (dropReturn line.reverse) :: linesFrom [] rest
  | c :: rest => linesFrom (c :: line) rest

def lines (text : String) : List String := linesFrom [] text.toList

end Treewalk.Text
