import Std.Time.DateTime.Timestamp
import Treewalk.Command

/-!
The program: reads arguments, files and the standard input, and writes what the command leaves.
-/

set_option autoImplicit false

namespace Treewalk

def readClockNow : IO Clock := do
  let now ← Std.Time.Timestamp.now
  return Clock.ticking now.toMillisecondsSinceUnixEpoch.toInt.toNat

def readFile (path : String) : IO (Except ReadFailure ByteArray) := do
  try return .ok (← IO.FS.readBinFile path)
  catch
    | .noFileOrDirectory .. => return .error .notFound
    | .inappropriateType .. => return .error .isDirectory
    | error => return .error (.other (toString error))

-- Writes what a session has added to another.
def showAdded (before after : Session) : IO Unit := do
  let written := after.machine.sink.written
  let output ← IO.getStdout
  output.write (written.extract before.machine.sink.written.size written.size)
  output.flush
  for message in after.messages.drop before.messages.length do
    IO.eprintln message

-- The next line of the input without its newline, and whether it had one.
partial def readLine (input : IO.FS.Stream) (line : List UInt8) : IO (List UInt8 × Bool) := do
  let bytes ← input.read 1
  match bytes.data.toList with
  | [] => return (line.reverse, false)
  | byte :: _ => if byte = 10 then return (line.reverse, true) else readLine input (byte :: line)

partial def promptLoop (input : IO.FS.Stream) (session : Session) : IO Nat := do
  let asked := session.ask
  showAdded session asked
  let (line, ended) ← readLine input []
  if line.isEmpty && !ended then return Exit.success
  match asked.answer ampleFuel line ended with
  | .error failure =>
      IO.eprintln failure.inputComplaint
      return Exit.inputFailed
  | .ok none => return Exit.failed
  | .ok (some after) =>
      showAdded asked after
      promptLoop input after

def performNow (command : Command) : IO Nat := do
  let clock ← readClockNow
  match command with
  | .prompt => promptLoop (← IO.getStdin) (Session.start (Sink.empty none) clock)
  | .version | .script _ _ =>
      let content ← match command with
        | .script path _ => readFile path
        | _ => pure (.error .notFound)
      match command.perform ampleFuel clock (fun _ => content) ByteArray.empty with
      | none => return Exit.failed
      | some transcript =>
          let output ← IO.getStdout
          output.write transcript.output
          output.flush
          IO.eprint transcript.errorText
          return transcript.exit

end Treewalk

def main (arguments : List String) : IO UInt32 := do
  match Treewalk.Command.ofArguments arguments with
  | .error error =>
      IO.eprintln ("error: " ++ error.message)
      return Treewalk.Exit.usage.toUInt32
  | .ok command => return (← Treewalk.performNow command).toUInt32
