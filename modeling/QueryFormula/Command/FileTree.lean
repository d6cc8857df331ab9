/-!
# File trees

Documents at hand stand in folders, as files do.  A path is followed name by name, from the root
when it begins with a slash and else from the working folder, and ends at a text or at the reason
why there is none.
-/

namespace QueryFormula

/-- Why a file cannot be read. -/
inductive FileError where
  | missing
  | notFolder
  | isFolder
  | nameTooLong
  | denied
  /-- A reason of another kind, in the words of the system. -/
  | other (reason : String)
deriving Repr, DecidableEq

namespace FileError

/-- The message of a failure: the words of the system for it, and its number. -/
def message : FileError → String
  | .missing => "No such file or directory (os error 2)"
  | .denied => "Permission denied (os error 13)"
  | .notFolder => "Not a directory (os error 20)"
  | .isFolder => "Is a directory (os error 21)"
  | .nameTooLong => "File name too long (os error 36)"
  | .other reason => reason

end FileError

/-- The files at hand, each with the names that lead to it from the root, the last name first. -/
structure FileTree where
  files : List (List String × String)
deriving Repr

namespace FileTree

/-- The working folder.  It stands in the root under a name that stays where it is, so that no
path from the root leads to it. -/
def workingFolder : List String :=
  ["."]

/-- The most bytes that a name may have. -/
def longestName : Nat :=
  255

/-- The most bytes that a path may have. -/
def longestPath : Nat :=
  4095

/-- The place that a name leads to: no name and one dot stay, two dots go out of a folder, though
not out of the root, and every other name goes in. -/
def step (place : List String) (name : String) : List String :=
  if name = "" ∨ name = "." then place
  else if name = ".." then place.tail
  else name :: place

/-- The place where a path begins. -/
def start (path : String) : List String :=
  if path.startsWith "/" then [] else workingFolder

/-- The names of a path, in the order in which they are followed. -/
def names (path : String) : List String :=
  path.splitOn "/"

/-- The tree of the files with the given paths and texts. -/
def ofList (files : List (String × String)) : FileTree :=
  ⟨files.map fun (path, text) => ((names path).foldl step (start path), text)⟩

/-- What stands at a place. -/
inductive Entry where
  | folder (place : List String)
  | file (text : String)
deriving Repr, DecidableEq

/-- What stands at a place of the tree.  The root and the working folder are always there, and
other folders are there for the files in them. -/
def entry? (tree : FileTree) (place : List String) : Option Entry :=
  match tree.files.lookup place with
  | some text => some (.file text)
  | none =>
    if place.isSuffixOf workingFolder || tree.files.any (place.isSuffixOf ·.1) then
      some (.folder place)
    else none

/-- What a name leads to; nothing is in a file. -/
def enter (tree : FileTree) : Entry → String → Except FileError Entry
  | .file _, _ => .error .notFolder
  | .folder place, name =>
    if longestName < name.utf8ByteSize then .error .nameTooLong
    else
      match tree.entry? (step place name) with
      | some entry => .ok entry
      | none => .error .missing

/-- The text of the file that a path leads to. -/
def read (tree : FileTree) (path : String) : Except FileError String := do
  if path = "" then throw .missing
  if longestPath < path.utf8ByteSize then throw .nameTooLong
  match ← (names path).foldlM tree.enter (.folder (start path)) with
  | .file text => return text
  | .folder _ => throw .isFolder

end FileTree
end QueryFormula
