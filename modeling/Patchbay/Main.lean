import Patchbay.CommandLine

/-!
# The program

Reads what the command line names from the disk, runs the program on it and prints
its report.
-/

namespace Patchbay.CommandLine

/-- Read a file, if there is one. -/
def readFile? (path : String) : IO (Option ByteArray) := do
  try
    return some (← IO.FS.readBinFile path)
  catch _ => return none

/-- Put a file and the directories above it into a tree. -/
def addFile (files : FileTree) (path : String) (bytes : ByteArray) : FileTree :=
  let made := ((Path.parent? path).bind files.makeDirectories?).getD files
  (made.write? path (.ofBytes bytes)).getD made

/-- Add the files at some paths to a tree, as far as they can be read. -/
def addFiles (files : FileTree) (paths : List String) : IO FileTree :=
  paths.foldlM (fun files path => do
    match ← readFile? path with
    | some bytes => return addFile files path bytes
    | none => return files) files

end Patchbay.CommandLine

open Patchbay

/-- Run the command line and print what it reports. -/
def main (arguments : List String) : IO UInt32 := do
  let settingsDirectory := (← IO.getEnv "XDG_CONFIG_HOME").getD ""
  let home := (← IO.getEnv "HOME").getD ""
  let bare : CommandLine.Surroundings := { settingsDirectory, home }
  let files ←
    match CommandLine.readArguments {} arguments with
    | .error _ => pure bare.files
    | .ok read =>
      let path := CommandLine.settingsPath bare read
      let files ← CommandLine.addFiles bare.files [path]
      CommandLine.addFiles files (CommandLine.wantedFiles (Settings.load files path) read)
  let report := CommandLine.run { bare with files } arguments
  IO.print report.output
  IO.eprint report.errors
  return UInt32.ofNat report.code
