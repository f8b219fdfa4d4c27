/-!
# Directories

A directory holds files and further directories under names.  A path leads from it to one of them,
name by name; `.` stays in place and `..` goes back up.  Only a directory leads on, so a path may
end in a slash only behind a directory.  What lies above the directory a path starts from is not
known to hold anything.
-/

namespace LineBasic.CommandLine

/-- Why a file cannot be read. -/
inductive ReadFailure where
  | notFound
  | isDirectory
  | notDirectory
  | notText
  | other (reason : String)
deriving DecidableEq, Repr, Inhabited

/-- What is said of a file that cannot be read. -/
def ReadFailure.message : ReadFailure → String
  | notFound => "No such file or directory (os error 2)"
  | isDirectory => "Is a directory (os error 21)"
  | notDirectory => "Not a directory (os error 20)"
  | notText => "stream did not contain valid UTF-8"
  | other reason => reason

/-- A file with its content, or a directory with its entries. -/
inductive Entry where
  | file (content : ByteArray)
  | directory (entries : List (String × Entry))
deriving Inhabited

/-- Follows the names of a path.  The entries passed through come with the latest first. -/
def Entry.follow (above : List Entry) (entry : Entry) : List String → Except ReadFailure Entry
  | [] => .ok entry
  | name :: names =>
    match entry with
    | .file _ => .error .notDirectory
    | .directory entries =>
      if name = "" ∨ name = "." then follow above entry names
      else if name = ".." then
        match above with
        | [] => follow [] (.directory []) names
        | parent :: above => follow above parent names
      else
        match entries.lookup name with
        | none => .error .notFound
        | some found => follow (entry :: above) found names

/-- The content of the file at a path from a directory. -/
def fileAt (entries : List (String × Entry)) (path : String) : Except ReadFailure ByteArray :=
  let names := path.splitOn "/"
  let start := if path.startsWith "/" then Entry.directory [] else .directory entries
  if path = "" then .error .notFound
  else
    match start.follow [] names with
    | .error failure => .error failure
    | .ok (.directory _) => .error .isDirectory
    | .ok (.file content) => .ok content

end LineBasic.CommandLine
