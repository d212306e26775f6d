import Patchbay.Config.Settings
import Patchbay.Host.Instance
import Patchbay.Number.Fixed
import Patchbay.Text.Integer

/-!
# The command line

The program loads the settings, opens the configured patches and the given one in
a single instance, runs some blocks with silent input and reports the peak of each
output channel. It takes a patch and the options `--config` and `--blocks`.
-/

namespace Patchbay.CommandLine

/-- How many blocks are run unless told otherwise. -/
def defaultBlocks : Nat := 100

/-- The arguments of the program. -/
structure Arguments where
  config : Option String := none
  blocks : Nat := defaultBlocks
  patch : Option String := none
  deriving DecidableEq, Repr

/-- What the program was started with, besides its arguments. -/
structure Surroundings where
  files : FileTree := {}
  settingsDirectory : String := ""
  home : String := ""
  deriving DecidableEq

/-- A report of why the program stopped, with a cause if there is one. -/
structure Complaint where
  text : String
  cause : Option String := none
  deriving DecidableEq, Repr

/-- A text with each of its lines indented by four. -/
def indented (text : String) : String :=
  "    " ++ String.intercalate "\n    " (text.splitOn "\n")

/-- A complaint as it is printed. -/
def Complaint.report (complaint : Complaint) : String :=
  "Error: " ++ complaint.text ++ "\n" ++
    match complaint.cause with
    | some cause => "\nCaused by:\n" ++ indented cause ++ "\n"
    | none => ""

/-- What the program leaves behind. -/
structure Report where
  code : Nat := 0
  output : String := ""
  errors : String := ""
  deriving DecidableEq, Repr

/-- Read the arguments from the left; later ones take the place of earlier ones. -/
def readArguments (arguments : Arguments) : List String → Except Complaint Arguments
  | [] => .ok arguments
  | argument :: rest =>
    if argument = "--config" then
      match rest with
      | path :: rest => readArguments { arguments with config := some path } rest
      | [] => .error { text := "--config needs a path" }
    else if argument = "--blocks" then
      match rest with
      | count :: rest =>
        match readCount count with
        | .ok blocks => readArguments { arguments with blocks } rest
        | .error problem =>
          .error { text := "Invalid block count: " ++ count, cause := some problem.message }
      | [] => .error { text := "--blocks needs a count" }
    else if ['-', '-'].isPrefixOf argument.toList then
      .error { text := "Unknown flag: " ++ argument }
    else readArguments { arguments with patch := some argument } rest

/-- The settings file to use. -/
def settingsPath (surroundings : Surroundings) (arguments : Arguments) : String :=
  arguments.config.getD (Settings.defaultPath surroundings.settingsDirectory surroundings.home)

/-- The patches to open. -/
def patchPaths (settings : Settings) (arguments : Arguments) : List String :=
  settings.patches ++ arguments.patch.toList

/-- Split a patch path into the name of the file and its directory. -/
def splitPatchPath (path : String) : Except Complaint (String × String) :=
  match Path.fileName? path with
  | some name => .ok (name, (Path.parent? path).getD "")
  | none => .error { text := "Not a patch file: " ++ quoted path }

/-- The program while it is running: what it works on and what it has printed. -/
structure Run where
  environment : Environment
  inst : Instance
  output : String := ""

namespace Run

/-- Print a line. -/
def print (run : Run) (line : String) : Run := { run with output := run.output ++ line ++ "\n" }

/-- Open one patch. -/
def openPatch (run : Run) (path : String) : Run × Option Complaint :=
  match splitPatchPath path with
  | .error complaint => (run, some complaint)
  | .ok (name, directory) =>
    let done := Instance.load run.environment run.inst name directory
    let run := { run with environment := done.state.1, inst := done.state.2 }
    match done.result with
    | .error failure =>
      (run, some { text := "Failed to open " ++ quoted path, cause := some failure.message })
    | .ok id =>
      match run.inst.patch? id with
      | some patch =>
        let dollarZero := patch.dollarZero
        let count := patch.objects.length
        (run.print ("Opened " ++ patch.name ++ s!" ($0={dollarZero}, {count} objects)"), none)
      | none => (run, none)

/-- Open patches in order, up to the first that fails. -/
def openPatches (run : Run) : List String → Run × Option Complaint
  | [] => (run, none)
  | path :: rest =>
    match run.openPatch path with
    | (run, some complaint) => (run, some complaint)
    | (run, none) => openPatches run rest

/-- The greater of two samples; what is not a number is passed over. -/
def louder (a b : Sample) : Sample :=
  if a.isNaN then b else if b.isNaN then a else if a < b then b else a

/-- The peak of a block, but no less than the peak so far. -/
def blockPeak (peak : Sample) (block : Block) : Sample :=
  louder peak (block.foldl (fun peak sample => louder peak sample.abs) 0)

/-- Run blocks with silent input, keeping the peak of each output. -/
def runBlocks (format : AudioFormat) : (count : Nat) → Run → (outputs : List Block) →
    (peaks : List Sample) → Run × List Sample × Option Complaint
  | 0, run, _, peaks => (run, peaks, none)
  | count + 1, run, outputs, peaks =>
    let inputs := List.replicate format.inputs (Block.silence format.blockSize)
    let done := run.inst.perform [] format.blockSize inputs outputs
    let run := { run with inst := done.state }
    match done.result with
    | .error failure => (run, peaks, some { text := failure.message })
    | .ok outputs => runBlocks format count run outputs (List.zipWith blockPeak peaks outputs)

/-- Print the peaks, counting channels from one. -/
def printPeaks (run : Run) (peaks : List Sample) : Run :=
  peaks.zipIdx.foldl
    (fun run (peak, channel) =>
      run.print ("  out " ++ toString (channel + 1) ++ ": peak " ++ Number.fixedSingle 4 peak))
    run

/-- Prepare for a format, run blocks and report on them. -/
def measure (run : Run) (format : AudioFormat) (blocks : Nat) : Run × Option Complaint :=
  let done := run.inst.prepare format
  let run := { run with inst := done.state }
  match done.result with
  | .error failure =>
    (run, some { text := "Failed to prepare DSP", cause := some failure.message })
  | .ok () =>
    let outputs := List.replicate format.outputs (Block.silence format.blockSize)
    match runBlocks format blocks run outputs (List.replicate format.outputs 0) with
    | (run, _, some complaint) => (run, some complaint)
    | (run, peaks, none) =>
      let seconds := Number.fixedQuotient 3 (blocks * format.blockSize) format.sampleRate
      let rate := format.sampleRate
      let run := run.print s!"Ran {blocks} blocks ({seconds} s at {rate} Hz)"
      (run.printPeaks peaks, none)

/-- What is left behind once the program is through. -/
def finish (done : Run × Option Complaint) : Report :=
  match done with
  | (run, none) => { output := run.output }
  | (run, some complaint) => { code := 1, output := run.output, errors := complaint.report }

end Run

/-- Run the program. -/
def run (surroundings : Surroundings) (arguments : List String) : Report :=
  match readArguments {} arguments with
  | .error complaint => { code := 1, errors := complaint.report }
  | .ok arguments =>
    let path := settingsPath surroundings arguments
    let settings := Settings.load surroundings.files path
    let environment : Environment :=
      ({ files := surroundings.files : Environment }.replaceSearchPath settings.searchPaths).1
    let patches := patchPaths settings arguments
    let start : Run := { environment, inst := { id := environment.nextInstance } }
    if patches.isEmpty then
      Run.finish (start, some
        { text := "No patch given and none configured in " ++ quoted path })
    else
      match start.openPatches patches with
      | (run, some complaint) => Run.finish (run, some complaint)
      | (run, none) => Run.finish (run.measure settings.format arguments.blocks)

/-- The files the program may want to read, once the text of its settings file is
known: every patch in its own directory or in each directory searched. -/
def wantedFiles (settings : Settings) (arguments : Arguments) : List String :=
  (patchPaths settings arguments).flatMap fun path =>
    match splitPatchPath path with
    | .ok (name, directory) =>
      if directory.isEmpty then settings.searchPaths.map fun searched => Path.join searched name
      else [Path.join directory name]
    | .error _ => []

end Patchbay.CommandLine
