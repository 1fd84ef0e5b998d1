/-!
# File trees

What a path leads to. A tree consists of directories, with their entries by name, and of files. A
path is followed from left to right, from the root or from the working directory: an empty name and
a dot stay where they are, two dots go up, and above the root is the root. The first name that
leads nowhere decides why the path fails, so a name that is too long is not noticed behind one that
is missing.
-/

set_option autoImplicit false

namespace W65C816.CommandLine

/-- Why a path does not lead to the content of a file. -/
inductive ReadFailure where
  | missing
  | denied
  /-- The path goes on behind a file. -/
  | notDirectory
  | directory
  /-- A name or the whole path is too long. -/
  | nameTooLong
deriving DecidableEq, Repr

namespace ReadFailure

def all : List ReadFailure :=
  [.missing, .denied, .notDirectory, .directory, .nameTooLong]

/-- The number that the system gives to the failure. -/
def code : ReadFailure → Nat
  | .missing => 2
  | .denied => 13
  | .notDirectory => 20
  | .directory => 21
  | .nameTooLong => 36

/-- The failure with the given number. -/
def ofCode? (code : Nat) : Option ReadFailure :=
  all.find? fun failure => failure.code = code

/-- The wording of a failure without its number. -/
def description : ReadFailure → String
  | .missing => "No such file or directory"
  | .denied => "Permission denied"
  | .notDirectory => "Not a directory"
  | .directory => "Is a directory"
  | .nameTooLong => "File name too long"

def message (failure : ReadFailure) : String :=
  failure.description ++ " (os error " ++ toString failure.code ++ ")"

/-- The code of a failure determines the failure. -/
@[simp] theorem ofCode?_code (failure : ReadFailure) : ofCode? failure.code = some failure := by
  cases failure <;> rfl

end ReadFailure

/-- A file, or a directory with everything below it. -/
inductive FileTree where
  | file (content : ByteArray)
  | directory (entries : List (String × FileTree))

namespace FileTree

def longestName : Nat := 255

def longestPath : Nat := 4095

/-- Follows the names of a path. `above` is what two dots go back to, innermost first. -/
def follow (above : List FileTree) (here : FileTree) : List String → Except ReadFailure FileTree
  | [] => .ok here
  | name :: rest =>
    match here with
    | .file _ => .error .notDirectory
    | .directory entries =>
      if name = "" ∨ name = "." then follow above here rest
      else if name = ".." then
        match above with
        | [] => follow [] here rest
        | parent :: above => follow above parent rest
      else if longestName < name.utf8ByteSize then .error .nameTooLong
      else
        match entries.lookup name with
        | some entry => follow (here :: above) entry rest
        | none => .error .missing

/-- The content of the file that a path leads to, seen from a working directory. -/
def read (root : FileTree) (workingDirectory : List String) (path : String) :
    Except ReadFailure ByteArray :=
  if path.isEmpty then .error .missing
  else if longestPath < path.utf8ByteSize then .error .nameTooLong
  else
    let start := if path.startsWith "/" then [] else workingDirectory
    match follow [] root (start ++ path.splitOn "/") with
    | .ok (.file content) => .ok content
    | .ok (.directory _) => .error .directory
    | .error failure => .error failure

end FileTree

end W65C816.CommandLine
