import Patchbay.Files.Path

/-!
# File trees

A file tree maps the places below the root to files and directories, and has a
working directory for relative paths. A path is followed one component at a time:
every component but the last has to be a directory, `..` goes to the directory
above, and a trailing slash asks for a directory.
-/

namespace Patchbay

/-- The content of a file. -/
inductive FileContent where
  | text (content : String)
  /-- Bytes that are not UTF-8 text. -/
  | binary (bytes : List UInt8)
  deriving DecidableEq, Inhabited

/-- The content that a row of bytes is. -/
def FileContent.ofBytes (bytes : ByteArray) : FileContent :=
  match String.fromUTF8? bytes with
  | some content => .text content
  | none => .binary bytes.data.toList

/-- What stands at a place. -/
inductive FileEntry where
  | directory
  | file (content : FileContent)
  deriving DecidableEq, Inhabited

/-- A place, as the names on the way from the root. -/
abbrev Place := List String

/-- Files and directories, with a working directory. -/
structure FileTree where
  entries : List (Place × FileEntry) := []
  workingPlace : Place := []
  deriving DecidableEq

namespace FileTree

/-- The components of a path, a place and a rest to follow from there. -/
def start (tree : FileTree) (path : String) : Place × List String :=
  let names := (Path.segments path.toList).map String.ofList
  (if Path.isAbsolute path then [] else tree.workingPlace, names)

/-- What stands at a place; the root is always a directory. -/
def entry? (tree : FileTree) (place : Place) : Option FileEntry :=
  if place.isEmpty then some .directory else tree.entries.lookup place

/-- Whether a place is a directory. -/
def isDirectoryAt (tree : FileTree) (place : Place) : Bool :=
  tree.entry? place == some .directory

/-- Follow names from a place. -/
def follow (tree : FileTree) (place : Place) : List String → Option Place
  | [] => some place
  | name :: rest =>
    if !tree.isDirectoryAt place then none
    else if name = "" ∨ name = "." then follow tree place rest
    else if name = ".." then follow tree place.dropLast rest
    else if (tree.entry? (place ++ [name])).isSome then follow tree (place ++ [name]) rest
    else none

/-- What a path leads to. -/
def find? (tree : FileTree) (path : String) : Option FileEntry :=
  if path.isEmpty then none
  else
    let (place, names) := tree.start path
    (tree.follow place names).bind tree.entry?

/-- Whether a path leads to a file. -/
def isFile (tree : FileTree) (path : String) : Bool :=
  match tree.find? path with
  | some (.file _) => true
  | _ => false

/-- Whether a path leads anywhere. -/
def isPresent (tree : FileTree) (path : String) : Bool := (tree.find? path).isSome

/-- The text of the file at a path, `none` if there is no text there. -/
def readText? (tree : FileTree) (path : String) : Option String :=
  match tree.find? path with
  | some (.file (.text content)) => some content
  | _ => none

/-- Put an entry at a place. -/
def put (tree : FileTree) (place : Place) (entry : FileEntry) : FileTree :=
  { tree with entries := (place, entry) :: tree.entries.filter fun old => old.1 != place }

/-- Follow names from a place, making the directories that are missing. -/
def makeDirectoriesFrom (tree : FileTree) (place : Place) : List String → Option FileTree
  | [] => if tree.isDirectoryAt place then some tree else none
  | name :: rest =>
    if !tree.isDirectoryAt place then none
    else if name = "" ∨ name = "." then makeDirectoriesFrom tree place rest
    else if name = ".." then makeDirectoriesFrom tree place.dropLast rest
    else if (tree.entry? (place ++ [name])).isSome then
      makeDirectoriesFrom tree (place ++ [name]) rest
    else makeDirectoriesFrom (tree.put (place ++ [name]) .directory) (place ++ [name]) rest

/-- Make a directory and those above it. -/
def makeDirectories? (tree : FileTree) (path : String) : Option FileTree :=
  if path.isEmpty then some tree
  else
    let (place, names) := tree.start path
    tree.makeDirectoriesFrom place names

/-- Write a file; its directory has to exist. -/
def write? (tree : FileTree) (path : String) (content : FileContent) : Option FileTree :=
  let (place, names) := tree.start path
  match names.reverse with
  | [] => none
  | name :: before =>
    if name = "" ∨ name = "." ∨ name = ".." then none
    else
      match tree.follow place before.reverse with
      | some directory =>
        if tree.isDirectoryAt directory && !tree.isDirectoryAt (directory ++ [name]) then
          some (tree.put (directory ++ [name]) (.file content))
        else none
      | none => none

end FileTree

end Patchbay
