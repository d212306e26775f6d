import Patchbay.Numbered.Message

/-!
# Objects of numbers

Objects as a process has them: the names they have taken from their text are numbers. An
object that is sent elsewhere numbers the name it is given, and an object that prints reads
names; everything else an object does is done with numbers alone.
-/

namespace Patchbay.Numbered

/-- One thing an object does in answer to a message. -/
inductive Emission where
  | outlet (index : Nat) (message : Message)
  | send (tie : Tie) (message : Message)
  | post (level : ConsoleLevel) (text : String)
  | midi (event : MidiEvent)
  | done
  deriving DecidableEq, Inhabited

/-! ## Message boxes -/

/-- An atom of a message box. -/
inductive PieceAtom where
  | literal (atom : Atom)
  | argument (index : Nat)
  deriving DecidableEq, Inhabited

namespace PieceAtom

/-- The part of a message box an atom makes: symbols such as `$1` are slots. -/
def ofAtom (tables : Tables) : Atom → PieceAtom
  | .symbol name =>
    match argumentIndex? (name.name tables) with
    | some index => argument index
    | none => literal (.symbol name)
  | atom => literal atom

/-- The atom that is emitted; a missing argument is zero. -/
def fill (arguments : Payload) : PieceAtom → Atom
  | literal atom => atom
  | argument index => arguments.getD index (.float 0)

end PieceAtom

/-- One piece of a message box. -/
structure Piece where
  target : Option Tie := none
  atoms : List PieceAtom := []
  deriving DecidableEq, Inhabited

/-- What a piece emits for incoming arguments. -/
def Piece.emit (arguments : Payload) (piece : Piece) : Emission :=
  let message := Message.ofAtoms (piece.atoms.map (PieceAtom.fill arguments))
  match piece.target with
  | some tie => .send tie message
  | none => .outlet 0 message

/-- A message box under construction; finished pieces are newest first. -/
structure PieceReader where
  pieces : List Piece := []
  current : Piece := {}
  awaitsTarget : Bool := false
  deriving DecidableEq

namespace PieceReader

/-- Read one token of a message box. -/
def step (dollarZero : Int32) (reader : PieceReader) : Token → Numbering PieceReader
  | .word word =>
    if reader.awaitsTarget then do
      let tie ← Numbering.tie (expandName word dollarZero)
      return { reader with
        current := { reader.current with target := some tie }
        awaitsTarget := false }
    else do
      let atom ← expandWord word dollarZero
      let part ← Numbering.ask fun tables => PieceAtom.ofAtom tables atom
      return { reader with
        current := { reader.current with atoms := reader.current.atoms ++ [part] } }
  | .comma => pure
    { reader with
      pieces := reader.current :: reader.pieces
      current := { target := reader.current.target } }
  | .semicolon => pure
    { pieces := reader.current :: reader.pieces, current := {}, awaitsTarget := true }

/-- The pieces read, in order, without the empty ones. -/
def finish (reader : PieceReader) : List Piece :=
  (reader.current :: reader.pieces).reverse.filter fun piece => !piece.atoms.isEmpty

end PieceReader

/-- The pieces of a message box with the given text. -/
def readPieces (tokens : List Token) (dollarZero : Int32) : Numbering (List Piece) := do
  let reader ← tokens.foldlM (PieceReader.step dollarZero) {}
  return reader.finish

/-- Answer a message: `set` replaces the content by one piece for the outlet, and
every other message makes each piece emit. -/
def answerMessageBox (pieces : List Piece) (message : Message) : List Piece × List Emission :=
  match message with
  | .anything selector arguments =>
    if selector = .set then ([{ atoms := arguments.map .literal }], [])
    else (pieces, pieces.map (Piece.emit arguments))
  | other => (pieces, pieces.map (Piece.emit other.arguments))

/-! ## GUI objects -/

/-- A GUI object: its names as numbers, and the rest of it. -/
structure Gui where
  /-- The object without its names. -/
  body : Patchbay.Gui
  label : Symbol := .empty
  send : Tie := .empty
  receive : Tie := .empty
  deriving DecidableEq, Inhabited

/-- An atom without its name. -/
def Atom.nameless : Atom → Patchbay.Atom
  | empty => .empty
  | float value => .float value
  | symbol _ => .symbol .empty
  | pointer address => .pointer address

namespace GuiArguments

/-- The name at a position, numbers counting as their text; no name if the argument is
missing, blank or the placeholder `empty`. -/
def name (tables : Tables) (arguments : List Atom) (index : Nat) : String :=
  let name := match arguments[index]? with
    | some (.symbol value) => value.name tables
    | some (.float value) => Number.text value
    | _ => ""
  if name = "empty" then "" else name

/-- The tie named at a position. -/
def tie (arguments : List Atom) (index : Nat) : Numbering Tie := do
  let name ← Numbering.ask fun tables => name tables arguments index
  if name.isEmpty then return .empty else Numbering.tie name

/-- The tie named at a position, if there is one for it. -/
def tieAt? (arguments : List Atom) : Option Nat → Numbering Tie
  | some index => tie arguments index
  | none => pure .empty

/-- The symbol named at a position. -/
def symbol (arguments : List Atom) (index : Nat) : Numbering Symbol := do
  let name ← Numbering.ask fun tables => name tables arguments index
  if name.isEmpty then return .empty else Numbering.symbol name

end GuiArguments

namespace Gui

/-- Where the names stand among the arguments: the receive name, the label and, if the
object sends, the send name in front of them. -/
def namePositions : GuiKind → Option Nat × Nat × Nat
  | .bang | .horizontalRadio | .verticalRadio => (some 4, 5, 6)
  | .toggle => (some 2, 3, 4)
  | .number | .horizontalSlider | .verticalSlider => (some 6, 7, 8)
  | .vuMeter => (none, 2, 3)
  | .panel => (some 3, 4, 5)

/-- Build a GUI object at `(x, y)` from its creation arguments. -/
def create (kind : GuiKind) (arguments : List Atom) (x y cellWidth : Int32) : Numbering Gui := do
  let body :=
    { Patchbay.Gui.create kind (arguments.map Atom.nameless) x y cellWidth with
      label := .empty, send := .empty, receive := .empty }
  let (sending, receiving, labelling) := namePositions kind
  let send ← GuiArguments.tieAt? arguments sending
  let receive ← GuiArguments.tie arguments receiving
  let label ← GuiArguments.symbol arguments labelling
  return { body, label, send, receive }

/-- What a GUI object sends out: to its send name first, then to its outlet. -/
def output (gui : Gui) : List Emission :=
  let message : Message := if gui.body.kind = .bang then .bang else .float gui.body.value
  (if gui.send.isEmpty then [] else [.send gui.send message]) ++ [.outlet 0 message]

/-- Store a value and send it out. -/
def take (gui : Gui) (value : Float32) : Gui × List Emission :=
  let gui := { gui with body := { gui.body with value := gui.body.clamp value } }
  (gui, gui.output)

/-- Answer a bang: a toggle changes sides first. -/
def bang (gui : Gui) : Gui × List Emission :=
  let gui :=
    if gui.body.kind = .toggle then
      { gui with
        body := { gui.body with value := if gui.body.value != 0 then 0 else gui.body.maximum } }
    else gui
  (gui, gui.output)

/-- Store the first argument of `set` without sending anything. -/
def store (gui : Gui) (arguments : Payload) : Gui :=
  match arguments with
  | .float value :: _ => { gui with body := { gui.body with value := gui.body.clamp value } }
  | _ => gui

/-- Answer a message on the inlet or through the receive name. -/
def answer (gui : Gui) (message : Message) : Gui × List Emission :=
  match gui.body.kind with
  | .panel => (gui, [])
  | .vuMeter =>
    match message.number? with
    | some value => ({ gui with body := { gui.body with value } }, [])
    | none => (gui, [])
  | .bang => (gui, if message.isSet then [] else gui.output)
  | _ =>
    match message with
    | .bang => gui.bang
    | .anything selector arguments =>
      if selector = .set then (gui.store arguments, []) else (gui, [])
    | other =>
      match other.number? with
      | some value => gui.take value
      | none => (gui, [])

end Gui

/-! ## Nodes -/

/-- The class and state of an object. -/
inductive Node where
  | inert
  | receive (tie : Tie)
  | send (tie : Tie)
  | print (label : String)
  | loadbang
  | tick
  | messageBox (pieces : List Piece)
  | number (value : Float32)
  | midiIn (kind : MidiKind)
  | midiOut (kind : MidiKind) (second third : Int32)
  | adc (channels : List Nat)
  | dac (channels : List Nat)
  | arithmetic (operation : Arithmetic) (right : Option Float32)
  | constant (value : Float32)
  | gui (state : Gui)
  deriving DecidableEq, Inhabited

/-- The tie named by the first creation argument. -/
def tieArgument (arguments : List Atom) : Numbering Tie :=
  match arguments with
  | .symbol name :: _ => do
    let name ← Numbering.ask name.name
    Numbering.tie name
  | .float value :: _ => Numbering.tie (Number.text value)
  | _ => pure .empty

/-- The label of a `print` object. -/
def labelArgument (tables : Tables) (arguments : List Atom) : String :=
  match arguments with
  | .symbol name :: _ => name.name tables
  | .float value :: _ => Number.text value
  | _ => "print"

namespace Node

/-- The node of a class whose arguments are numbers, not names. -/
def ofNameless : Patchbay.Node → Node
  | .loadbang => loadbang
  | .tick => tick
  | .number value => number value
  | .midiIn kind => midiIn kind
  | .midiOut kind second third => midiOut kind second third
  | .adc channels => adc channels
  | .dac channels => dac channels
  | .arithmetic operation right => arithmetic operation right
  | .constant value => constant value
  | _ => inert

/-- The node of a class that is not a GUI, `none` if the class is unknown. -/
def create (className : String) (arguments : List Atom) : Numbering (Option Node) :=
  match className with
  | "r" | "receive" => do
    let tie ← tieArgument arguments
    return some (receive tie)
  | "s" | "send" => do
    let tie ← tieArgument arguments
    return some (send tie)
  | "print" => do
    let label ← Numbering.ask fun tables => labelArgument tables arguments
    return some (print label)
  | _ =>
    return (Patchbay.Node.create className (arguments.map Atom.nameless)).map ofNameless

/-- The tie an object listens at, if it listens anywhere. -/
def listensAt (node : Node) : Option Tie :=
  match node with
  | receive tie => if tie.isEmpty then none else some tie
  | gui stored => if stored.receive.isEmpty then none else some stored.receive
  | _ => none

/-- Whether an object listens to incoming MIDI. -/
def isMidiIn : Node → Bool
  | midiIn _ => true
  | _ => false

/-- Whether an object fires when its patch has been loaded. -/
def isLoadbang : Node → Bool
  | loadbang => true
  | _ => false

/-- The integer part of the list element at a position, or the value waiting there if the
list is too short. -/
def listInt (atoms : Payload) (index : Nat) (waiting : Int32) : Int32 :=
  match atoms[index]? with
  | some atom => Number.truncate atom.asFloat
  | none => waiting

/-- Answer a message on an inlet of a MIDI output. -/
def answerMidiOut (kind : MidiKind) (second third : Int32) (inlet : Nat) (message : Message) :
    Node × List Emission :=
  match inlet, message with
  | 0, .list atoms =>
    let second := listInt atoms 1 second
    let third := if kind.inlets = 3 then listInt atoms 2 third else third
    (midiOut kind second third,
      match atoms with
      | [] => []
      | atom :: _ =>
        [.midi (Patchbay.Node.outgoingMidi kind (Number.truncate atom.asFloat) second third)])
  | 0, message =>
    (midiOut kind second third,
      match message.number? with
      | some value =>
        [.midi (Patchbay.Node.outgoingMidi kind (Number.truncate value) second third)]
      | none => [])
  | inlet, message =>
    match message.number? with
    | some value =>
      if inlet = 1 then (midiOut kind (Number.truncate value) third, [])
      else if inlet = 2 then (midiOut kind second (Number.truncate value), [])
      else (midiOut kind second third, [])
    | none => (midiOut kind second third, [])

/-- Answer a message on a number box that has no range. -/
def answerNumber (stored : Float32) (message : Message) : Node × List Emission :=
  match message with
  | .bang => (number stored, [.outlet 0 (.float stored)])
  | .anything selector arguments =>
    if selector = .set then
      match arguments with
      | atom :: _ => (number atom.asFloat, [])
      | [] => (number stored, [])
    else (number stored, [])
  | other =>
    match other.number? with
    | some value => (number value, [.outlet 0 (.float value)])
    | none => (number stored, [])

/-- Answer a message on an inlet of a `send`: the right inlet takes a new name. -/
def answerSend (tie : Tie) (inlet : Nat) (message : Message) : Numbering (Node × List Emission) :=
  if inlet = 1 then
    match message with
    | .symbol name => do
      let name ← Numbering.ask name.name
      let tie ← Numbering.tie name
      return (send tie, [])
    | _ => return (send tie, [])
  else return (send tie, if tie.isEmpty then [] else [.send tie message])

/-- Answer a control message on an inlet. -/
def answer (node : Node) (inlet : Nat) (message : Message) : Numbering (Node × List Emission) :=
  match node with
  | inert | loadbang | tick | midiIn _ | adc _ | dac _ => return (node, [])
  | receive tie => return (receive tie, [.outlet 0 message])
  | send tie => answerSend tie inlet message
  | print label => do
    let text ← Numbering.ask message.text
    return (print label, [.post .normal (label ++ ": " ++ text)])
  | messageBox pieces =>
    let (pieces, emissions) := answerMessageBox pieces message
    return (messageBox pieces, emissions)
  | number stored => return answerNumber stored message
  | midiOut kind second third => return answerMidiOut kind second third inlet message
  | arithmetic operation (some right) =>
    match inlet, message.number? with
    | 1, some value => return (arithmetic operation (some value), [])
    | _, _ => return (arithmetic operation (some right), [])
  | arithmetic operation none => return (arithmetic operation none, [])
  | constant stored =>
    match message.number? with
    | some value => return (constant value, [])
    | none => return (constant stored, [])
  | gui stored =>
    let (stored, emissions) := stored.answer message
    return (gui stored, emissions)

/-- What an object does about a MIDI event. -/
def answerMidi (node : Node) (event : MidiEvent) : List Emission :=
  match node with
  | midiIn kind =>
    if kind = event.kind then
      ((Patchbay.Node.incomingValues event).zipIdx.map fun (value, outlet) =>
        Emission.outlet outlet (.float (Number.ofInt value.toInt))).reverse
    else []
  | _ => []

end Node

end Patchbay.Numbered
