import Treewalk.Text.Attached
import Treewalk.Text.Unprintable

/-!
Quoted text: double quotes around a text in which every character can be seen. Quotes, backslashes and
four control characters have a short escape; other characters that cannot be seen on their own are
written by their number in braces.
-/

set_option autoImplicit false

namespace Treewalk.Text

def shortEscape? : Char → Option Char
  | '\x00' => some '0'
  | '\t' => some 't'
  | '\r' => some 'r'
  | '\n' => some 'n'
  | '\\' => some '\\'
  | '"' => some '"'
  | _ => none

-- The number of a character, in lower case and without padding.
def numberEscape (c : Char) : List Char :=
  ['\\', 'u', '\x7b'] ++ Nat.toDigits 16 c.toNat ++ ['\x7d']

def escape (c : Char) : List Char :=
  match shortEscape? c with
  | some letter => ['\\', letter]
  | none => if isAttached c || isUnprintable c then numberEscape c else [c]

def quoted (text : String) : String :=
  String.ofList ('"' :: text.toList.flatMap escape ++ ['"'])

end Treewalk.Text
