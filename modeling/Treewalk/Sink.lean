import Treewalk.Text.Lines
import Treewalk.Text.Utf8

/-!
Where output goes. A sink is offered texts one after another. Of each it stores some bytes, and it may refuse the
rest in words of its own; what it does may depend on all that was offered before. One kind of sink takes bytes up to a
capacity, if there is one: a write that does not fit stores the part that fits and fails.
-/

set_option autoImplicit false

namespace Treewalk

structure Sink where
  written : ByteArray
  /-- The texts offered so far, the latest first. -/
  offered : List ByteArray
  /-- How many bytes of a text are stored and the words of a refusal, given what is written and was offered. -/
  policy : ByteArray → List ByteArray → ByteArray → Nat × Option String

namespace Sink

-- Offers a text, and tells the words of a refusal.
def offer (sink : Sink) (bytes : ByteArray) : Option String × Sink :=
  let (count, refusal) := sink.policy sink.written sink.offered bytes
  (refusal, { sink with written := sink.written ++ bytes.extract 0 count, offered := bytes :: sink.offered })

-- The words in which a full sink refuses a write.
def refusal : String := "broken pipe"

def fits (capacity : Option Nat) (written : ByteArray) (count : Nat) : Bool :=
  capacity.all (written.size + count ≤ ·)

-- Takes what fits.
def bounded (capacity : Option Nat) (written : ByteArray) (_ : List ByteArray) (bytes : ByteArray) :
    Nat × Option String :=
  if fits capacity written bytes.size then (bytes.size, none)
  else (capacity.getD 0 - written.size, some refusal)

def empty (capacity : Option Nat) : Sink := ⟨ByteArray.empty, [], bounded capacity⟩

-- The text written after the first `start` bytes.
def textFrom (sink : Sink) (start : Nat) : String :=
  Text.ofCutBytes (sink.written.extract start sink.written.size)

def lines (sink : Sink) : List String := Text.lines (sink.textFrom 0)

end Sink

end Treewalk
