/-!
# Files

A command reads files by their paths. In a directory that is held in memory a path is followed name
by name from the directory itself; what lies outside of it is not known.
-/

namespace Treatise.CommandLine

/-- Files by their paths: the content, or why it cannot be read. -/
abbrev Files := String → Except String String

/-- Why a file that is missing cannot be read. -/
def missingReason : String := "No such file or directory (os error 2)"

/-- Why there is nothing inside a file. -/
def insideFileReason : String := "Not a directory (os error 20)"

/-- Why a directory cannot be read. -/
def directoryReason : String := "Is a directory (os error 21)"

/-- The files in a directory and in those inside it, by the names that lead to them. -/
abbrev Directory := List (List String × String)

/-- What a path leads to. -/
inductive Place where
  | file (text : String)
  | directory (names : List String)
  | outside
  deriving DecidableEq, Repr

namespace Directory

/-- The directory of files with paths that do not lead out of it. -/
def ofFiles (files : List (String × String)) : Directory :=
  files.map fun (path, text) =>
    ((path.splitOn "/").filter fun name => name ≠ "" && name ≠ ".", text)

/-- What a name leads to in a directory. -/
def enter (directory : Directory) (names : List String) : Except String Place :=
  match directory.lookup names with
  | some text => .ok (.file text)
  | none =>
    if directory.any fun file => names.isPrefixOf file.1 then .ok (.directory names)
    else .error missingReason

/-- Follows a name in a path. -/
def follow (directory : Directory) : Place → String → Except String Place
  | .file _, _ => .error insideFileReason
  | place, "" | place, "." => .ok place
  | .directory [], ".." => .ok .outside
  | .directory names, ".." => .ok (.directory names.dropLast)
  | .directory names, name => directory.enter (names ++ [name])
  | .outside, ".." => .ok .outside
  | .outside, _ => .error missingReason

def read (directory : Directory) : Files := fun path => do
  if path.isEmpty then .error missingReason
  let start := if path.startsWith "/" then .outside else .directory []
  match ← (path.splitOn "/").foldlM directory.follow start with
  | .file text => return text
  | .directory _ | .outside => .error directoryReason

end Directory

end Treatise.CommandLine
