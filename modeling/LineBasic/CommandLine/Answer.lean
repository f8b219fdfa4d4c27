import LineBasic.CommandLine.Directory
import LineBasic.CommandLine.Request
import LineBasic.Script

/-!
# Answers

The answer to a request is an exit code, what has been written to the standard output, and a
message for the standard error.  The message is empty exactly when the code is zero.
-/

namespace LineBasic.CommandLine

/-- The exit codes: all went well, the script is no program, the script cannot be read, a statement
failed, and a listing could not be written. -/
inductive ExitCode where
  | ok
  | rejected
  | unreadable
  | failed
  | unwritable
deriving DecidableEq, Repr, Inhabited

/-- The number of an exit code. -/
def ExitCode.number : ExitCode → Nat
  | ok => 0
  | rejected => 65
  | unreadable => 66
  | failed => 70
  | unwritable => 74

/-- The answer to a request. -/
structure Answer where
  code : ExitCode
  output : Sink
  message : String := ""
deriving Inhabited

/-- The text of a script: the content of its file with a line break at its end. -/
def scriptText (content : ByteArray) : Except ReadFailure String :=
  match String.fromUTF8? content with
  | some text => .ok (text ++ "\n")
  | none => .error .notText

/-- The answer once a sink has been written to for the last time. -/
def writeAnswer (output : Sink) (bytes : ByteArray) : Answer :=
  if output.fits bytes then ⟨.ok, output.write bytes, ""⟩
  else ⟨.unwritable, output.write bytes, Sink.fullMessage ++ "\n"⟩

/-- Lists tokens, one on a line, up to the first line that does not fit. -/
def listTokens (output : Sink) : List Token → Answer
  | [] => ⟨.ok, output, ""⟩
  | token :: tokens =>
    let bytes := (token.listing ++ "\n").toUTF8
    if output.fits bytes then listTokens (output.write bytes) tokens
    else writeAnswer output bytes

/-- Lists the program that a script spells. -/
def listProgram (source : String) (output : Sink) : Answer :=
  match Program.ofSource source with
  | .error rejection => ⟨.rejected, output, rejection.message ++ "\n"⟩
  | .ok program => writeAnswer output program.listing.toUTF8

/-- Runs a script. -/
def runScript (source : String) (output : Sink) : Answer :=
  match Script.run source output with
  | .error rejection => ⟨.rejected, output, rejection.message ++ "\n"⟩
  | .ok run =>
    match run.ending with
    | .failed error => ⟨.failed, run.machine.sink, error.message ++ "\n"⟩
    | .finished | .outOfSteps => ⟨.ok, run.machine.sink, ""⟩

/-- The answer for a script that has been read. -/
def answerScript (mode : Mode) (source : String) (output : Sink) : Answer :=
  match mode with
  | .run => runScript source output
  | .listTokens => listTokens output (Token.scan source)
  | .listProgram => listProgram source output

/-- The answer to a request, given the content of the file or the reason why it cannot be read. -/
def Request.answer (request : Request) (content : Except ReadFailure ByteArray)
    (output : Sink) : Answer :=
  match content.bind scriptText with
  | .error failure =>
    ⟨.unreadable, output, "Failed to read " ++ request.file ++ ": " ++ failure.message ++ "\n"⟩
  | .ok source => answerScript request.mode source output

/-- The answer to a request whose script is looked for in a directory. -/
def Request.answerIn (request : Request) (entries : List (String × Entry)) (output : Sink) :
    Answer :=
  request.answer (fileAt entries request.file) output

end LineBasic.CommandLine
