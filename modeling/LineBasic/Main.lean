import LineBasic.CommandLine.Answer

/-!
# The command line

Reads the script that the arguments name, and writes the answer.
-/

namespace LineBasic.CommandLine

/-- The reason why a file cannot be read. -/
def failureOf : IO.Error → ReadFailure
  | .noFileOrDirectory .. => .notFound
  | .inappropriateType _ 20 _ => .notDirectory
  | .inappropriateType _ 21 _ => .isDirectory
  | error => .other (toString error)

/-- The content of a file, or the reason why it cannot be read. -/
def contentOf (file : String) : IO (Except ReadFailure ByteArray) := do
  try
    return .ok (← IO.FS.readBinFile file)
  catch error =>
    return .error (failureOf error)

/-- How the command line is used. -/
def usage : String :=
  "Usage: [--tokens | --ast] FILE"

/-- Says why no script is run. -/
def refuse (refusal : Refusal) : IO UInt32 := do
  match refusal with
  | .help => IO.println usage; return 0
  | .version => IO.println "0.1.0"; return 0
  | .missingFile => IO.eprintln ("error: no file is named\n" ++ usage); return 2
  | .emptyFile => IO.eprintln ("error: the name of the file is empty\n" ++ usage); return 2
  | .unknownArgument => IO.eprintln ("error: unexpected argument\n" ++ usage); return 2
  | .conflict => IO.eprintln ("error: the options exclude each other\n" ++ usage); return 2
  | .unexpectedValue => IO.eprintln ("error: the option takes no value\n" ++ usage); return 2

/-- Answers the arguments. -/
def answerArguments (arguments : List String) : IO UInt32 := do
  match Request.ofArguments arguments with
  | .error refusal => refuse refusal
  | .ok request =>
    let answer := request.answer (← contentOf request.file) {}
    (← IO.getStdout).write answer.output.written
    IO.eprint answer.message
    return answer.code.number.toUInt32

end LineBasic.CommandLine

/-- Runs or lists the script that the arguments name. -/
def main (arguments : List String) : IO UInt32 :=
  LineBasic.CommandLine.answerArguments arguments
