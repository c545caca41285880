/-!
# Files

A `FileTree` holds files and directories by name. `FileTree.read` follows a path from the root or
from the working directory, name by name, to the content of a file; the first name that leads no
further decides what is wrong. `FileFault` is what may be wrong with a file.
-/

namespace LoadGenerator

inductive FileFault where
  | nulInPath
  | missing
  | notDirectory
  | isDirectory
  | nameTooLong
  | notText
  | other (report : String)
  deriving DecidableEq, Repr

namespace FileFault

def message : FileFault → String
  | .nulInPath => "file name contained an unexpected NUL byte"
  | .missing => "No such file or directory (os error 2)"
  | .notDirectory => "Not a directory (os error 20)"
  | .isDirectory => "Is a directory (os error 21)"
  | .nameTooLong => "File name too long (os error 36)"
  | .notText => "stream did not contain valid UTF-8"
  | .other report => report

end FileFault

/-- A file, or a directory of files and directories. -/
inductive FileTree where
  | file (content : ByteArray)
  | directory (entries : List (String × FileTree))

namespace FileTree

/-- The bytes that one name may have. -/
def maxNameSize : Nat := 255

/-- The bytes that a path may have. -/
def maxPathSize : Nat := 4095

def names (path : String) : List String :=
  path.splitOn "/"

/-- Where some names lead from a place, given the directories above it. An empty name and a dot stay
where they are, two dots lead to the directory above. -/
def follow : List FileTree → FileTree → List String → Except FileFault FileTree
  | _, here, [] => .ok here
  | _, .file _, _ :: _ => .error .notDirectory
  | above, .directory entries, name :: rest =>
    if name = "" ∨ name = "." then follow above (.directory entries) rest
    else if name = ".." then
      match above with
      | [] => follow [] (.directory entries) rest
      | parent :: above => follow above parent rest
    else if maxNameSize < name.utf8ByteSize then .error .nameTooLong
    else
      match entries.lookup name with
      | none => .error .missing
      | some next => follow (.directory entries :: above) next rest

/-- The content of the file at a path, which starts at the root or else at the working directory. -/
def read (root : FileTree) (workingDirectory path : String) : Except FileFault ByteArray :=
  if path.toList.contains '\x00' then .error .nulInPath
  else if path.isEmpty then .error .missing
  else if maxPathSize < path.utf8ByteSize then .error .nameTooLong
  else do
    let start := if path.startsWith "/" then [] else names workingDirectory
    match ← follow [] root (start ++ names path) with
    | .file content => .ok content
    | .directory _ => .error .isDirectory

end FileTree

end LoadGenerator
