import Patchbay.Files.FileTree

/-!
# Search paths

An ordered list of directories in which patches are looked for.
-/

namespace Patchbay

/-- Directories to look in, in order. -/
structure SearchPath where
  directories : List String := []
  deriving DecidableEq, Repr, Inhabited

namespace SearchPath

/-- Look in one more directory. -/
def add (searchPath : SearchPath) (directory : String) : SearchPath :=
  ⟨searchPath.directories ++ [directory]⟩

/-- Find a file. An absolute name is taken as it is; a given directory is the only
one looked in; otherwise the first directory that has the file wins. -/
def resolve? (searchPath : SearchPath) (files : FileTree) (name directory : String) :
    Option String :=
  if Path.isAbsolute name then
    if files.isFile name then some name else none
  else if !directory.isEmpty then
    if files.isFile (Path.join directory name) then some (Path.join directory name) else none
  else
    (searchPath.directories.map fun directory => Path.join directory name).find? files.isFile

end SearchPath

end Patchbay
