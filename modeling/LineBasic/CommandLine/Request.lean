/-!
# Requests

The arguments of the command line ask for a script to be run, or for its tokens or its program to
be listed.  Arguments are taken from left to right.  The name of the script is any argument that
does not start with a hyphen, or is a hyphen alone, or comes after the argument `--`.
-/

namespace LineBasic.CommandLine

/-- What is done with a script. -/
inductive Mode where
  | run
  | listTokens
  | listProgram
deriving DecidableEq, Repr, Inhabited

/-- A script and what is done with it. -/
structure Request where
  file : String
  mode : Mode
deriving DecidableEq, Repr, Inhabited

/-- Why the arguments make no request. -/
inductive Refusal where
  /-- No script is named. -/
  | missingFile
  /-- The script's name is empty. -/
  | emptyFile
  /-- An option is not known, or a second script is named. -/
  | unknownArgument
  /-- An option is given twice, or both listings are asked for. -/
  | conflict
  /-- An option is given a value. -/
  | unexpectedValue
  /-- Help is asked for. -/
  | help
  /-- The version is asked for. -/
  | version
deriving DecidableEq, Repr, Inhabited

/-- The options. -/
inductive Flag where
  | tokens
  | ast
  | help
  | version
deriving DecidableEq, Repr, Inhabited

/-- The option with a long name. -/
def Flag.ofName? : List Char → Option Flag
  | ['t', 'o', 'k', 'e', 'n', 's'] => some tokens
  | ['a', 's', 't'] => some ast
  | ['h', 'e', 'l', 'p'] => some help
  | ['v', 'e', 'r', 's', 'i', 'o', 'n'] => some version
  | _ => none

/-- What an argument is by itself. -/
inductive Argument where
  | file (name : String)
  | flag (flag : Flag)
  | flagWithValue
  | endOfOptions
  | unknown
deriving DecidableEq, Repr, Inhabited

/-- What an argument is in front of the end of the options. -/
def Argument.ofString (argument : String) : Argument :=
  match argument.toList with
  | ['-', '-'] => .endOfOptions
  | '-' :: '-' :: name =>
    match Flag.ofName? (name.takeWhile (· ≠ '=')) with
    | some option => if '=' ∈ name then .flagWithValue else .flag option
    | none => .unknown
  | '-' :: 'h' :: _ => .flag .help
  | '-' :: 'V' :: _ => .flag .version
  | '-' :: _ :: _ => .unknown
  | _ => .file argument

/-- What the arguments have given so far. -/
structure Given where
  tokens : Bool := false
  ast : Bool := false
  file : Option String := none
deriving DecidableEq, Repr, Inhabited

namespace Given

/-- The name of the script, if one is given, is not empty. -/
def checkFile (given : Given) : Except Refusal Unit :=
  if given.file = some "" then .error .emptyFile else .ok ()

/-- Takes the name of the script. -/
def addFile (given : Given) (name : String) : Except Refusal Given :=
  if given.file.isSome then .error .unknownArgument else .ok { given with file := some name }

/-- Takes an option, once the name of a script in front of it has been found good. -/
def addFlag (given : Given) (flag : Flag) : Except Refusal Given :=
  match given.checkFile with
  | .error refusal => .error refusal
  | .ok () =>
    match flag with
    | .help => .error .help
    | .version => .error .version
    | .tokens => if given.tokens then .error .conflict else .ok { given with tokens := true }
    | .ast => if given.ast then .error .conflict else .ok { given with ast := true }

/-- Takes an argument in front of the end of the options. -/
def add (given : Given) : Argument → Except Refusal Given
  | .file name => given.addFile name
  | .flag option => given.addFlag option
  | .flagWithValue => .error .unexpectedValue
  | .endOfOptions => .ok given
  | .unknown => .error .unknownArgument

/-- The request, when all arguments have been taken. -/
def request (given : Given) : Except Refusal Request :=
  match given.checkFile with
  | .error refusal => .error refusal
  | .ok () =>
    if given.tokens && given.ast then .error .conflict
    else
      match given.file with
      | none => .error .missingFile
      | some file =>
        .ok ⟨file, if given.tokens then .listTokens else if given.ast then .listProgram else .run⟩

/-- Takes the arguments behind the end of the options. -/
def addFiles (given : Given) : List String → Except Refusal Given
  | [] => .ok given
  | name :: names =>
    match given.addFile name with
    | .error refusal => .error refusal
    | .ok given => addFiles given names

/-- Takes arguments from left to right. -/
def addAll (given : Given) : List String → Except Refusal Given
  | [] => .ok given
  | argument :: arguments =>
    match Argument.ofString argument with
    | .endOfOptions => given.addFiles arguments
    | found =>
      match given.add found with
      | .error refusal => .error refusal
      | .ok given => addAll given arguments

end Given

/-- The request that arguments make. -/
def Request.ofArguments (arguments : List String) : Except Refusal Request :=
  match Given.addAll {} arguments with
  | .error refusal => .error refusal
  | .ok given => given.request

end LineBasic.CommandLine
