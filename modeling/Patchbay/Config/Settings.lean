import Patchbay.Config.BlockReader
import Patchbay.Config.ScalarWriter
import Patchbay.Files.FileTree
import Patchbay.Signal.Format
import Patchbay.Text.Quote

/-!
# Settings files

The settings of a host: where to look for patches, the audio format and the
patches to open. Everything may be left out of a settings file and then takes its
default; keys that are not known are passed over.
-/

namespace Patchbay

/-- The settings of a host. -/
structure Settings where
  searchPaths : List String := []
  format : AudioFormat := {}
  patches : List String := []
  deriving DecidableEq, Repr, Inhabited

namespace Settings

/-! ## Reading -/

/-- The text of a scalar, however it is written. -/
def textOf? : Yaml.Value → Option String
  | .scalar _ text => some text
  | _ => none

/-- The texts of a sequence; a value left out has none. -/
def textsOf? : Yaml.Value → Option (List String)
  | .sequence items => items.mapM textOf?
  | .scalar true "" => some []
  | _ => none

/-- A number below a bound, written plain. -/
def countOf? (bound : Nat) : Yaml.Value → Option Nat
  | .scalar true text => Yaml.readUnsigned? bound text.toList
  | _ => none

/-- The entries of a mapping by key; a value left out has none. -/
def entriesOf? : Yaml.Value → Option (List (String × Yaml.Value))
  | .mapping entries =>
    entries.mapM fun (key, value) => (textOf? key).map fun key => (key, value)
  | .scalar true "" => some []
  | _ => none

/-- The value of a key, or a default if it is missing. A key given twice is an
error. -/
def field? {α : Type} (entries : List (String × Yaml.Value)) (key : String)
    (read : Yaml.Value → Option α) (default : α) : Option α :=
  match entries.filter fun entry => entry.1 == key with
  | [] => some default
  | [(_, value)] => read value
  | _ => none

/-- The audio format a value describes. -/
def formatOf? (value : Yaml.Value) : Option AudioFormat := do
  let entries ← entriesOf? value
  let standard : AudioFormat := {}
  return {
    inputs := ← field? entries "inputs" (countOf? sizeBound) standard.inputs
    outputs := ← field? entries "outputs" (countOf? sizeBound) standard.outputs
    sampleRate := ← field? entries "sample_rate" (countOf? (Nat.pow 2 32)) standard.sampleRate
    blockSize := ← field? entries "block_size" (countOf? sizeBound) standard.blockSize }

/-- The settings a value describes. -/
def ofValue? (value : Yaml.Value) : Option Settings := do
  let entries ← entriesOf? value
  return {
    searchPaths := ← field? entries "search_paths" textsOf? []
    format := ← field? entries "dsp" formatOf? {}
    patches := ← field? entries "patches" textsOf? [] }

/-- The settings a text describes. -/
def parse? (text : String) : Option Settings := (Yaml.readDocument text).bind ofValue?

/-! ## Writing -/

/-- A key with a list of texts. -/
def writeTexts (key : String) (texts : List String) : List Char :=
  if texts.isEmpty then key.toList ++ ": []\n".toList
  else
    key.toList ++ ":\n".toList ++
      texts.flatMap fun text => "- ".toList ++ Yaml.writeScalar text ++ ['\n']

/-- A key with a number. -/
def writeCount (key : String) (n : Nat) : List Char :=
  key.toList ++ ": ".toList ++ Nat.toDigits 10 n ++ ['\n']

/-- Settings as the text of a settings file. -/
def text (settings : Settings) : String :=
  String.ofList (writeTexts "search_paths" settings.searchPaths ++ "dsp:\n".toList ++
    writeCount "  inputs" settings.format.inputs ++
    writeCount "  outputs" settings.format.outputs ++
    writeCount "  sample_rate" settings.format.sampleRate ++
    writeCount "  block_size" settings.format.blockSize ++
    writeTexts "patches" settings.patches)

/-! ## Files -/

/-- Read a settings file; there are no settings if there is no file. A failure is
told as text. -/
def read (files : FileTree) (path : String) : Except String (Option Settings) :=
  if !files.isPresent path then .ok none
  else
    match files.readText? path with
    | none => .error ("Failed to read config file: " ++ quoted path)
    | some text =>
      match parse? text with
      | some settings => .ok (some settings)
      | none => .error ("Failed to parse config file: " ++ quoted path)

/-- Read a settings file, with the defaults in place of one that is missing or
cannot be read. -/
def load (files : FileTree) (path : String) : Settings :=
  match read files path with
  | .ok (some settings) => settings
  | _ => {}

/-- Write a settings file and the directories above it. A failure is told as text;
the directories made before it stay. -/
def save (settings : Settings) (files : FileTree) (path : String) :
    FileTree × Except String Unit :=
  let made := match Path.parent? path with
    | some parent =>
      match files.makeDirectories? parent with
      | some files => Except.ok files
      | none => .error ("Failed to create config directory: " ++ quoted parent)
    | none => .ok files
  match made with
  | .error failure => (files, .error failure)
  | .ok files =>
    match files.write? path (.text settings.text) with
    | some files => (files, .ok ())
    | none => (files, .error ("Failed to write config file: " ++ quoted path))

/-- Where the settings file is unless told otherwise: below the directory for
settings, if that is given by an absolute path, and else below the home
directory. -/
def defaultPath (settingsDirectory home : String) : String :=
  let base :=
    if Path.isAbsolute settingsDirectory then settingsDirectory
    else Path.join home ".config"
  Path.join (Path.join base "zpd") "config.yaml"

end Settings

end Patchbay
