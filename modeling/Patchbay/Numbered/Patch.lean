import Patchbay.Numbered.Object

/-!
# Patches of numbers

Reading a patch text numbers the names in it, in the order of the text: the words that are
symbols, then the names an object takes from them, then its class. What has no names is read
as it is for patches of names.
-/

namespace Patchbay.Numbered

/-- A box in a patch. -/
structure PatchObject where
  name : Symbol
  text : String
  bounds : Bounds
  node : Node
  deriving DecidableEq, Inhabited

/-- A loaded patch. -/
structure Patch where
  name : String
  path : String
  dollarZero : Int32
  x : Int32
  y : Int32
  width : Int32
  height : Int32
  fontSize : Int32
  objects : List PatchObject
  connections : List Connection
  wiring : Wiring
  deriving DecidableEq

namespace Patch

/-- The node of an object. -/
def node? (patch : Patch) (object : Nat) : Option Node :=
  patch.objects[object]?.map PatchObject.node

/-- Replace the node of an object. -/
def setNode (patch : Patch) (object : Nat) (node : Node) : Patch :=
  { patch with objects := patch.objects.modify object fun o => { o with node } }

end Patch

/-! ## Reading a patch -/

namespace Canvas

/-- A box of a class, which is numbered last. -/
def place (className text : String) (bounds : Bounds) (node : Node) : Numbering PatchObject := do
  let name ← Numbering.symbol className
  return { name, text, bounds, node }

/-- A box without names but its class. -/
def placeNameless (box : Patchbay.PatchObject) : Numbering PatchObject :=
  place box.name.name box.text box.bounds (.ofNameless box.node)

/-- The object of an `obj` record, with a diagnostic if it could not be created. -/
def object (canvas : Canvas) (record : Record) : Numbering (PatchObject × Option String) := do
  let (body, columns) := splitColumns record.body
  let text := showTokens body
  let className := (headWord? body).getD ""
  let arguments ← Numbering.each (fun word => expandWord word canvas.dollarZero)
    ((body.drop 1).filterMap Token.word?)
  match GuiKind.ofClass? className with
  | some kind =>
    let (x, y) := (record.int 2, record.int 3)
    let gui ← Gui.create kind arguments x y (fontCell canvas.fontSize).1
    let bounds := { x, y, width := gui.body.width, height := gui.body.height }
    let box ← place className text bounds (.gui gui)
    return (box, none)
  | none =>
    let bounds := canvas.bounds record text columns
    if className.isEmpty then
      let box ← place className text bounds .inert
      return (box, none)
    else
      let created ← Node.create className arguments
      match created with
      | some node =>
        let box ← place className text bounds node
        return (box, none)
      | none =>
        let box ← place className text bounds .inert
        return (box, some (text ++ "\n... couldn't create"))

/-- The object of a `msg` record. -/
def messageBox (canvas : Canvas) (record : Record) : Numbering PatchObject := do
  let text := showTokens record.body
  let pieces ← readPieces record.body canvas.dollarZero
  place "msg" text (canvas.bounds record text none) (.messageBox pieces)

end Canvas

/-- What has been read of a patch. -/
structure PatchReader where
  depth : Nat := 0
  objects : List PatchObject := []
  pending : List (Nat × Connection) := []
  diagnostics : List String := []
  deriving DecidableEq

namespace PatchReader

/-- Add an object, with a diagnostic if there is one. -/
def add (reader : PatchReader) (object : PatchObject) (diagnostic : Option String) :
    PatchReader :=
  { reader with
    objects := reader.objects ++ [object]
    diagnostics := reader.diagnostics ++ diagnostic.toList }

/-- Add a connection to be checked once all objects are known. -/
def connect (canvas : Canvas) (reader : PatchReader) (record : Record) : PatchReader :=
  match Connection.ofRecord? record with
  | some connection =>
    { reader with pending := reader.pending ++ [(record.line, connection)] }
  | none =>
    let line := record.line
    { reader with
      diagnostics := reader.diagnostics ++
        [canvas.name ++ s!": connection on line {line} has an invalid object or port index"] }

/-- Add a box without names but its class. -/
def addNameless (reader : PatchReader) (box : Patchbay.PatchObject) : Numbering PatchReader := do
  let object ← Canvas.placeNameless box
  return reader.add object none

/-- Read a record outside every nested canvas. -/
def stepOuter (canvas : Canvas) (reader : PatchReader) (record : Record) :
    Numbering PatchReader :=
  if record.word? 0 = some "#X" then
    match record.word? 1 with
    | some "obj" => do
      let (object, diagnostic) ← Canvas.object canvas record
      return reader.add object diagnostic
    | some "msg" => do
      let object ← Canvas.messageBox canvas record
      return reader.add object none
    | some "text" => reader.addNameless (canvas.comment record)
    | some "floatatom" => reader.addNameless (canvas.entryBox "floatatom" record)
    | some "symbolatom" => reader.addNameless (canvas.entryBox "symbolatom" record)
    | some "listbox" => reader.addNameless (canvas.entryBox "listbox" record)
    | some "connect" => return connect canvas reader record
    | _ => return reader
  else return reader

/-- Read one record. -/
def step (canvas : Canvas) (reader : PatchReader) (record : Record) : Numbering PatchReader :=
  if Patchbay.PatchReader.opensCanvas record then return { reader with depth := reader.depth + 1 }
  else match reader.depth with
    | 0 => stepOuter canvas reader record
    | depth + 1 =>
      if Patchbay.PatchReader.closesCanvas record then
        let reader := { reader with depth }
        if depth = 0 then reader.addNameless (canvas.nested record) else return reader
      else return reader

end PatchReader

/-- Read the records of a patch text. -/
def readPatch (name path text : String) (dollarZero : Int32) :
    Numbering (Except Failure (Patch × List String)) :=
  match readRecords text with
  | [] => return .error (.invalidPatch path 1 "empty file")
  | header :: records =>
    if !Patchbay.PatchReader.opensCanvas header then
      return .error (.invalidPatch path header.line "missing canvas header")
    else do
      let fontSize := if header.int 6 = 0 then 10 else header.int 6
      let canvas : Patchbay.Canvas := { name, dollarZero, fontSize }
      let reader ← records.foldlM (PatchReader.step canvas) {}
      let count := reader.objects.length
      let connections := (reader.pending.filter fun entry => entry.2.fits count).map Prod.snd
      let missing := (reader.pending.filter fun entry => !entry.2.fits count).map fun entry =>
        missingObject name entry.1 entry.2
      return .ok
        ({ name, path, dollarZero, fontSize, connections
           x := header.int 2
           y := header.int 3
           width := header.int 4
           height := header.int 5
           objects := reader.objects
           wiring := connections.foldl Wiring.add (Wiring.blank count) },
          reader.diagnostics ++ missing)

end Patchbay.Numbered
