/-!
Text behind bytes. Output that was cut off may end inside a character.
-/

set_option autoImplicit false

namespace Treewalk.Text

/-- The text of bytes that are valid but for a character cut off at the end, which reads as one
replacement character. -/
def ofCutBytes (bytes : ByteArray) : String :=
  let cutBy (count : Nat) : Option String := String.fromUTF8? (bytes.extract 0 (bytes.size - count))
  match cutBy 0 with
  | some text => text
  | none => match [1, 2, 3].findSome? cutBy with
    | some text => text ++ "\ufffd"
    | none => "\ufffd"

end Treewalk.Text
