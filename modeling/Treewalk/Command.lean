import Treewalk.Session

/-!
The command line: a script to run or to show as trees, or a prompt. Arguments are taken in order, and the
first that is wrong, or that asks for the version, decides.
-/

set_option autoImplicit false

namespace Treewalk

inductive Command where
  | version
  | script (path : String) (treeOnly : Bool)
  | prompt
deriving DecidableEq, Repr

inductive UsageError where
  | unexpected (argument : String)
  | repeated (option : String)
  | valueMissing (option : String)
  | valueUnwanted (option : String)
  | scriptMissing
deriving DecidableEq, Repr

def UsageError.message : UsageError → String
  | unexpected argument => "unexpected argument '" ++ argument ++ "' found"
  | repeated option => "the argument '" ++ option ++ "' cannot be used multiple times"
  | valueMissing option => "a value is required for '" ++ option ++ "' but none was supplied"
  | valueUnwanted option => "unexpected value for '" ++ option ++ "' found; no more were expected"
  | scriptMissing => "the following required arguments were not provided: <SCRIPT>"

structure Options where
  log : Option String
  treeOnly : Bool
  script : Option String
deriving DecidableEq, Repr

namespace Options

def initial : Options := ⟨none, false, none⟩

def setLog (options : Options) (filter : String) : Except UsageError Options :=
  if options.log.isSome then .error (.repeated "--log") else .ok { options with log := some filter }

def setTreeOnly (options : Options) : Except UsageError Options :=
  if options.treeOnly then .error (.repeated "--print-ast") else .ok { options with treeOnly := true }

def setScript (options : Options) (path : String) : Except UsageError Options :=
  if options.script.isSome then .error (.unexpected path)
  else if path.isEmpty then .error (.valueMissing "[SCRIPT]")
  else .ok { options with script := some path }

def command (options : Options) : Except UsageError Command :=
  match options.script with
  | some path => .ok (.script path options.treeOnly)
  | none => if options.treeOnly then .error .scriptMissing else .ok .prompt

end Options

/-- An argument by its form. A long option may carry a value behind an equals sign. -/
inductive Argument where
  | ending
  | long (name : String) (value : Option String)
  | short (first : Char)
  | path
deriving DecidableEq, Repr

def Argument.ofString (argument : String) : Argument :=
  match argument.toList with
  | ['-', '-'] => .ending
  | '-' :: '-' :: text =>
      let name := String.ofList (text.takeWhile (· != '='))
      match text.dropWhile (· != '=') with
      | [] => .long name none
      | _ :: value => .long name (some (String.ofList value))
  | '-' :: first :: _ => .short first
  | _ => .path

-- Arguments behind the mark that ends options: all are paths.
def takePaths (options : Options) : List String → Except UsageError Command
  | [] => options.command
  | path :: rest => do takePaths (← options.setScript path) rest

def takeArguments (options : Options) : List String → Except UsageError Command
  | [] => options.command
  | argument :: rest =>
      match Argument.ofString argument with
      | .ending => takePaths options rest
      | .path => do takeArguments (← options.setScript argument) rest
      | .short first => if first = 'V' then .ok .version else .error (.unexpected argument)
      | .long "log" (some filter) => do takeArguments (← options.setLog filter) rest
      | .long "log" none => match rest with
        | [] => .error (.valueMissing "--log")
        | filter :: later =>
            if Argument.ofString filter = .path then do takeArguments (← options.setLog filter) later
            else .error (.valueMissing "--log")
      | .long "print-ast" none => do takeArguments (← options.setTreeOnly) rest
      | .long "version" none => .ok .version
      | .long name (some _) =>
          if name = "print-ast" ∨ name = "version" then .error (.valueUnwanted ("--" ++ name))
          else .error (.unexpected argument)
      | .long _ none => .error (.unexpected argument)

def Command.ofArguments (arguments : List String) : Except UsageError Command :=
  takeArguments Options.initial arguments

inductive ReadFailure where
  | notFound
  | isDirectory
  | notText
  | other (reason : String)
deriving DecidableEq, Repr

def ReadFailure.reason : ReadFailure → String
  | notFound => "No such file or directory (os error 2)"
  | isDirectory => "Is a directory (os error 21)"
  | notText => "stream did not contain valid UTF-8"
  | other reason => reason

namespace Exit

def success : Nat := 0
def inputFailed : Nat := 1
def usage : Nat := 2
def rejected : Nat := 65
def unreadable : Nat := 66
def failed : Nat := 70

end Exit

/-- What a run of the command leaves: its exit code and all that it wrote. -/
structure Transcript where
  exit : Nat
  output : ByteArray
  messages : List String

def Session.transcript (session : Session) (exit : Nat) (more : List String) : Transcript :=
  ⟨exit, session.machine.sink.written, session.messages ++ more⟩

-- The exit code after a script.
def Session.exit (session : Session) : Nat :=
  if session.hadError then Exit.rejected
  else if session.hadRuntimeError then Exit.failed
  else Exit.success

-- Messages stand on lines of their own.
def Transcript.errorText (transcript : Transcript) : String :=
  String.join (transcript.messages.map (· ++ "\n"))

def versionText : String := "treelox 0.1.0\n"

def promptText : String := "> "

def textOf (bytes : ByteArray) : Except ReadFailure String :=
  match String.fromUTF8? bytes with
  | some text => .ok text
  | none => .error .notText

def runScript (fuel : Nat) (session : Session) (path : String) (treeOnly : Bool)
    (content : Except ReadFailure ByteArray) : Option Transcript :=
  match content.bind textOf with
  | .error failure =>
      some (session.transcript Exit.unreadable ["Could not read '" ++ path ++ "': " ++ failure.reason])
  | .ok source => do
      let after ← session.step fuel (if treeOnly then .tree else .run) source
      return after.transcript after.exit []

-- Lines of bytes. Newlines end lines, and nothing follows the last one.
def byteLines (line : List UInt8) : List UInt8 → List (List UInt8)
  | [] => if line.isEmpty then [] else [line.reverse]
  | byte :: rest => if byte = 10 then line.reverse :: byteLines [] rest else byteLines (byte :: line) rest

-- A line from the prompt, without a carriage return before its newline.
def promptLine (line : List UInt8) (ended : Bool) : Except ReadFailure String :=
  let bare := if ended && line.getLast? = some 13 then line.dropLast else line
  textOf ⟨bare.toArray⟩

-- Shows the prompt.
def Session.ask (session : Session) : Session :=
  { session with machine := (session.machine.emit promptText).2 }

-- Runs a line from the prompt.
def Session.answer (fuel : Nat) (session : Session) (line : List UInt8) (ended : Bool) :
    Except ReadFailure (Option Session) :=
  (promptLine line ended).map (session.step fuel .line)

def ReadFailure.inputComplaint (failure : ReadFailure) : String := "Error: " ++ failure.reason

-- Runs the lines that a prompt receives. `ended` says whether a newline ended the last of them.
def runPrompt (fuel : Nat) (ended : Bool) (session : Session) : List (List UInt8) → Option Transcript
  | [] => some (session.ask.transcript Exit.success [])
  | line :: rest =>
      match session.ask.answer fuel line (ended || !rest.isEmpty) with
      | .error failure => some (session.ask.transcript Exit.inputFailed [failure.inputComplaint])
      | .ok after => after.bind (runPrompt fuel ended · rest)

/-- Carries out a command, given the contents of files and of the standard input. -/
def Command.perform (fuel : Nat) (clock : Clock) (files : String → Except ReadFailure ByteArray)
    (input : ByteArray) : Command → Option Transcript
  | .version => some ⟨Exit.success, versionText.toUTF8, []⟩
  | .script path treeOnly =>
      runScript fuel (Session.start (Sink.empty none) clock) path treeOnly (files path)
  | .prompt =>
      let bytes := input.data.toList
      runPrompt fuel (bytes.getLast? = some 10) (Session.start (Sink.empty none) clock) (byteLines [] bytes)

end Treewalk
