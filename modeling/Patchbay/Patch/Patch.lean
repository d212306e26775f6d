import Patchbay.Failure
import Patchbay.Object.Node

/-!
# Patches

A patch is a graph of objects read from a patch text. Its first record is a
canvas header; later records add objects and connections. Everything between a
further canvas header and its `restore` record counts as one object.

## Implementation notes

Connections are kept twice: as one list in file order, and by object and outlet
for delivery. Connections that cannot be made are reported as diagnostics and
left out of both.
-/

namespace Patchbay

/-- A box in a patch. -/
structure PatchObject where
  name : Symbol
  text : String
  bounds : Bounds
  node : Node
  deriving DecidableEq, Inhabited

/-- A line from an outlet of one object to an inlet of another. -/
structure Connection where
  source : Nat
  outlet : Nat
  target : Nat
  inlet : Nat
  deriving DecidableEq, Repr, Inhabited

/-- Outlets and inlets are numbered up to this one. -/
def maxPort : Nat := 1023

/-- A number that is not negative. -/
def nonNegative? (n : Int32) : Option Nat := if n < 0 then none else some n.toNatClampNeg

/-- The connection a record describes, if its fields can be a connection. -/
def Connection.ofRecord? (record : Record) : Option Connection :=
  match nonNegative? (record.int 2), nonNegative? (record.int 3), nonNegative? (record.int 4),
      nonNegative? (record.int 5) with
  | some source, some outlet, some target, some inlet =>
    if outlet ≤ maxPort ∧ inlet ≤ maxPort then some { source, outlet, target, inlet } else none
  | _, _, _, _ => none

/-- The targets of each outlet of each object, in connection order. -/
abbrev Wiring := List (List (List (Nat × Nat)))

namespace Wiring

/-- No connections from `size` objects. -/
def blank (size : Nat) : Wiring := List.replicate size []

/-- Add a target to an outlet, making room for the outlet first. -/
def extend (outlets : List (List (Nat × Nat))) (outlet : Nat) (target : Nat × Nat) :
    List (List (Nat × Nat)) :=
  let outlets := outlets ++ List.replicate (outlet + 1 - outlets.length) []
  outlets.modify outlet (· ++ [target])

/-- Add a connection. -/
def add (wiring : Wiring) (connection : Connection) : Wiring :=
  wiring.modify connection.source fun outlets =>
    extend outlets connection.outlet (connection.target, connection.inlet)

/-- The targets of an outlet, none for an outlet that has no connections. -/
def targets (wiring : Wiring) (object outlet : Nat) : List (Nat × Nat) :=
  (wiring.getD object []).getD outlet []

end Wiring

/-- A loaded patch. -/
structure Patch where
  name : String
  path : String
  dollarZero : Int32
  x : Int32
  y : Int32
  width : Int32
  height : Int32
  fontSize : Int32
  objects : List PatchObject
  connections : List Connection
  wiring : Wiring
  deriving DecidableEq

namespace Patch

/-- The tie that `$0` followed by `ending` names in this patch. -/
def tieFor (patch : Patch) (ending : String) : Tie := ⟨toString patch.dollarZero ++ ending⟩

/-- The node of an object. -/
def node? (patch : Patch) (object : Nat) : Option Node :=
  patch.objects[object]?.map PatchObject.node

/-- Replace the node of an object. -/
def setNode (patch : Patch) (object : Nat) (node : Node) : Patch :=
  { patch with objects := patch.objects.modify object fun o => { o with node } }

end Patch

/-! ## Reading a patch -/

/-- What the objects of a patch share while they are being built. -/
structure Canvas where
  name : String
  dollarZero : Int32
  fontSize : Int32
  deriving DecidableEq, Repr

/-- The class word at the head of a box text. -/
def headWord? : List Token → Option String
  | .word text :: _ => some text
  | _ => none

/-- Split a trailing `, f` and a column count off a box text. -/
def splitColumns (tokens : List Token) : List Token × Option Int32 :=
  match tokens.reverse with
  | .word columns :: .word "f" :: .comma :: rest => (rest.reverse, readInt32 columns.toList)
  | _ => (tokens, none)

namespace Canvas

/-- The box of a text on this canvas. -/
def bounds (canvas : Canvas) (record : Record) (text : String) (columns : Option Int32) :
    Bounds :=
  textBounds canvas.fontSize (record.int 2) (record.int 3) text.length columns

/-- The object of an `obj` record, with a diagnostic if it could not be created. -/
def object (canvas : Canvas) (record : Record) : PatchObject × Option String :=
  let (body, columns) := splitColumns record.body
  let text := showTokens body
  let className := (headWord? body).getD ""
  let arguments := (body.drop 1).filterMap fun token =>
    token.word?.map fun word => expandWord word canvas.dollarZero
  match GuiKind.ofClass? className with
  | some kind =>
    let (x, y) := (record.int 2, record.int 3)
    let gui := Gui.create kind arguments x y (fontCell canvas.fontSize).1
    let bounds := { x, y, width := gui.width, height := gui.height }
    ({ name := ⟨className⟩, text, bounds, node := .gui gui }, none)
  | none =>
    let bounds := canvas.bounds record text columns
    if className.isEmpty then ({ name := ⟨className⟩, text, bounds, node := .inert }, none)
    else
      match Node.create className arguments with
      | some node => ({ name := ⟨className⟩, text, bounds, node }, none)
      | none =>
        ({ name := ⟨className⟩, text, bounds, node := .inert },
          some (text ++ "\n... couldn't create"))

/-- The object of a `msg` record. -/
def messageBox (canvas : Canvas) (record : Record) : PatchObject :=
  let text := showTokens record.body
  { name := ⟨"msg"⟩, text
    bounds := canvas.bounds record text none
    node := .messageBox (readPieces record.body canvas.dollarZero) }

/-- The object of a `text` record. -/
def comment (canvas : Canvas) (record : Record) : PatchObject :=
  let text := showTokens record.body
  { name := ⟨"text"⟩, text, bounds := canvas.bounds record text none, node := .inert }

/-- The object of a number, symbol or list entry box. -/
def entryBox (canvas : Canvas) (className : String) (record : Record) : PatchObject :=
  let columns := if record.int 4 = 0 then 5 else record.int 4
  { name := ⟨className⟩, text := className
    bounds := canvas.bounds record "" (some columns)
    node := if className = "floatatom" then .number 0 else .inert }

/-- The object that stands for a nested canvas. -/
def nested (canvas : Canvas) (record : Record) : PatchObject :=
  let text := showTokens record.body
  { name := ⟨(headWord? record.body).getD "pd"⟩, text
    bounds := canvas.bounds record text none
    node := .inert }

end Canvas

/-- What has been read of a patch. -/
structure PatchReader where
  /-- How many nested canvases are open. -/
  depth : Nat := 0
  objects : List PatchObject := []
  /-- Connections with the lines they stand on, still to be checked. -/
  pending : List (Nat × Connection) := []
  diagnostics : List String := []
  deriving DecidableEq

namespace PatchReader

/-- Add an object, with a diagnostic if there is one. -/
def add (reader : PatchReader) (object : PatchObject) (diagnostic : Option String) :
    PatchReader :=
  { reader with
    objects := reader.objects ++ [object]
    diagnostics := reader.diagnostics ++ diagnostic.toList }

/-- Add a connection to be checked once all objects are known. -/
def connect (canvas : Canvas) (reader : PatchReader) (record : Record) : PatchReader :=
  match Connection.ofRecord? record with
  | some connection =>
    { reader with pending := reader.pending ++ [(record.line, connection)] }
  | none =>
    let line := record.line
    { reader with
      diagnostics := reader.diagnostics ++
        [canvas.name ++ s!": connection on line {line} has an invalid object or port index"] }

/-- Read a record outside every nested canvas. -/
def stepOuter (canvas : Canvas) (reader : PatchReader) (record : Record) : PatchReader :=
  if record.word? 0 = some "#X" then
    match record.word? 1 with
    | some "obj" =>
      let (object, diagnostic) := canvas.object record
      reader.add object diagnostic
    | some "msg" => reader.add (canvas.messageBox record) none
    | some "text" => reader.add (canvas.comment record) none
    | some "floatatom" => reader.add (canvas.entryBox "floatatom" record) none
    | some "symbolatom" => reader.add (canvas.entryBox "symbolatom" record) none
    | some "listbox" => reader.add (canvas.entryBox "listbox" record) none
    | some "connect" => connect canvas reader record
    | _ => reader
  else reader

/-- Whether a record opens a canvas. -/
def opensCanvas (record : Record) : Bool :=
  record.word? 0 == some "#N" && record.word? 1 == some "canvas"

/-- Whether a record closes a nested canvas. -/
def closesCanvas (record : Record) : Bool :=
  record.word? 0 == some "#X" && record.word? 1 == some "restore"

/-- Read one record. -/
def step (canvas : Canvas) (reader : PatchReader) (record : Record) : PatchReader :=
  if opensCanvas record then { reader with depth := reader.depth + 1 }
  else match reader.depth with
    | 0 => stepOuter canvas reader record
    | depth + 1 =>
      if closesCanvas record then
        let reader := { reader with depth }
        if depth = 0 then reader.add (canvas.nested record) none else reader
      else reader

end PatchReader

/-- Whether both ends of a connection are among `count` objects. -/
def Connection.fits (count : Nat) (connection : Connection) : Bool :=
  connection.source < count && connection.target < count

/-- The diagnostic of a connection with a missing end. -/
def missingObject (name : String) (line : Nat) (connection : Connection) : String :=
  let ⟨source, outlet, target, inlet⟩ := connection
  name ++ s!": connection {source} {outlet} {target} {inlet} (line {line}) " ++
    "refers to a missing object"

/-- Read the records of a patch text. Besides the patch there is a list of
diagnostics: first what could not be read or created, then the connections with
a missing end. -/
def readPatch (name path text : String) (dollarZero : Int32) :
    Except Failure (Patch × List String) :=
  match readRecords text with
  | [] => .error (.invalidPatch path 1 "empty file")
  | header :: records =>
    if !PatchReader.opensCanvas header then
      .error (.invalidPatch path header.line "missing canvas header")
    else
      let fontSize := if header.int 6 = 0 then 10 else header.int 6
      let canvas : Canvas := { name, dollarZero, fontSize }
      let reader := records.foldl (PatchReader.step canvas) {}
      let count := reader.objects.length
      let connections := (reader.pending.filter fun entry => entry.2.fits count).map Prod.snd
      let missing := (reader.pending.filter fun entry => !entry.2.fits count).map fun entry =>
        missingObject name entry.1 entry.2
      .ok
        ({ name, path, dollarZero, fontSize, connections
           x := header.int 2
           y := header.int 3
           width := header.int 4
           height := header.int 5
           objects := reader.objects
           wiring := connections.foldl Wiring.add (Wiring.blank count) },
          reader.diagnostics ++ missing)

end Patchbay
