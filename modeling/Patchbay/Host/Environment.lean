import Patchbay.Files.SearchPath
import Patchbay.Host.Hooks
import Patchbay.Patch.Patch

/-!
# The shared environment

Instances share the files, the search path and two counters. Each file that is
read as a patch gets a number of its own, whichever instance reads it and whether
or not it turns out to be a patch.
-/

namespace Patchbay

/-- The version of the engine. -/
structure Version where
  major : Nat
  minor : Nat
  bug : Nat
  deriving DecidableEq, Repr

/-- The version of this engine. -/
def version : Version := ⟨0, 4, 0⟩

/-- The text of a version. -/
def Version.text (v : Version) : String :=
  toString v.major ++ "." ++ toString v.minor ++ "." ++ toString v.bug

/-- The number of the first patch. -/
def firstDollarZero : Int32 := 1000

/-- An operation's new state, the calls it made, and its result. -/
structure Outcome (State Value : Type) where
  state : State
  calls : List Call := []
  result : Except Failure Value

/-- What all instances share. -/
structure Environment where
  files : FileTree := {}
  searchPath : SearchPath := {}
  nextInstance : Nat := 1
  nextDollarZero : Int32 := firstDollarZero
  deriving DecidableEq

namespace Environment

/-- Add a directory to the search path. -/
def addSearchPath (environment : Environment) (directory : String) :
    Environment × List Call :=
  ({ environment with searchPath := environment.searchPath.add directory },
    [.log .debug s!"Search path added: {directory}"])

/-- Empty the search path. -/
def clearSearchPath (environment : Environment) : Environment × List Call :=
  ({ environment with searchPath := {} }, [.log .debug "Search path cleared"])

/-- Make the search path a given list of directories. -/
def replaceSearchPath (environment : Environment) (directories : List String) :
    Environment × List Call :=
  directories.foldl
    (fun (environment, calls) directory =>
      let (environment, more) := environment.addSearchPath directory
      (environment, calls ++ more))
    environment.clearSearchPath

/-- Read a patch file, with the diagnostics of its text. The patch number is used
up as soon as the file has been read. -/
def readPatchFile (environment : Environment) (path : String) :
    Environment × Except Failure (Patch × List String) :=
  match environment.files.readText? path with
  | some text =>
    let dollarZero := environment.nextDollarZero
    ({ environment with nextDollarZero := dollarZero + 1 },
      readPatch ((Path.fileName? path).getD "") path text dollarZero)
  | none =>
    (environment, .error (.patchOpenFailed path "stream did not contain valid UTF-8"))

end Environment

end Patchbay
