import Patchbay.Object.Gui
import Patchbay.Object.MessageBox

/-!
# Objects and what they do

Each object of a patch has a node: its class together with the state it keeps.
Answering a message is a function of the state, the inlet and the message; it
gives the new state and the emissions, in order.
-/

namespace Patchbay

/-- The two-operand signal operations. -/
inductive Arithmetic where
  | add
  | subtract
  | multiply
  deriving DecidableEq, Repr

/-- Combine two samples. -/
def Arithmetic.apply : Arithmetic → Float32 → Float32 → Float32
  | add, a, b => a + b
  | subtract, a, b => a - b
  | multiply, a, b => a * b

/-- The class and state of an object. -/
inductive Node where
  /-- A comment, a nested canvas or an object that could not be created. -/
  | inert
  | receive (tie : Tie)
  | send (tie : Tie)
  | print (label : String)
  | loadbang
  /-- Fires once after every block. -/
  | tick
  | messageBox (pieces : List Piece)
  | number (value : Float32)
  | midiIn (kind : MidiKind)
  /-- A MIDI output with the values waiting on its two further inlets. -/
  | midiOut (kind : MidiKind) (second third : Int32)
  /-- Host input channels, counted from zero, one outlet each. -/
  | adc (channels : List Nat)
  /-- Host output channels, counted from zero, one inlet each. -/
  | dac (channels : List Nat)
  /-- A signal operation; a number replaces the right inlet. -/
  | arithmetic (operation : Arithmetic) (right : Option Float32)
  | constant (value : Float32)
  | gui (state : Gui)
  deriving DecidableEq, Inhabited

/-! ## Creation -/

/-- The host channels named by creation arguments, which count from one; the
first two if none is named. -/
def channelArguments (arguments : List Atom) : List Nat :=
  let channels := arguments.filterMap fun atom =>
    match atom with
    | .float value => if 1 ≤ value then some (Number.truncateSize value - 1) else none
    | _ => none
  if channels.isEmpty then [0, 1] else channels

/-- The tie named by the first creation argument. -/
def tieArgument (arguments : List Atom) : Tie :=
  match arguments with
  | .symbol name :: _ => ⟨name.name⟩
  | .float value :: _ => ⟨Number.text value⟩
  | _ => .empty

/-- The label of a `print` object. -/
def labelArgument (arguments : List Atom) : String :=
  match arguments with
  | .symbol name :: _ => name.name
  | .float value :: _ => Number.text value
  | _ => "print"

/-- The integer creation argument at a position. -/
def intArgument (arguments : List Atom) (index : Nat) : Int32 :=
  Number.truncate (arguments.getD index .empty).asFloat

namespace MidiKind

/-- The families with the classes of their input and output objects. -/
def classes : List (MidiKind × String × String) :=
  [(.note, "notein", "noteout"), (.control, "ctlin", "ctlout"), (.program, "pgmin", "pgmout"),
    (.bend, "bendin", "bendout"), (.touch, "touchin", "touchout"),
    (.polyTouch, "polytouchin", "polytouchout"), (.byte, "midiin", "midiout")]

/-- The family whose input objects have a class. -/
def ofInputClass? (className : String) : Option MidiKind :=
  (classes.find? fun entry => entry.2.1 == className).map Prod.fst

/-- The family whose output objects have a class. -/
def ofOutputClass? (className : String) : Option MidiKind :=
  (classes.find? fun entry => entry.2.2 == className).map Prod.fst

/-- How many inlets an output object has. -/
def inlets : MidiKind → Nat
  | note | control | polyTouch => 3
  | program | bend | touch | byte => 2

end MidiKind

namespace Node

/-- A MIDI output. Where the channel is the last of three inlets, one argument
alone sets it; elsewhere the arguments fill the further inlets in order. -/
def midiOutput (kind : MidiKind) (arguments : List Atom) : Node :=
  match kind with
  | .note | .polyTouch => midiOut kind 0 (intArgument arguments 0)
  | _ => midiOut kind (intArgument arguments 0) (intArgument arguments 1)

/-- The number on the right of a signal operation. -/
def rightArgument : List Atom → Option Float32
  | .float value :: _ => some value
  | _ => none

/-- The node of a class that is not a GUI, `none` if the class is unknown. -/
def create (className : String) (arguments : List Atom) : Option Node :=
  match className with
  | "r" | "receive" => some (receive (tieArgument arguments))
  | "s" | "send" => some (send (tieArgument arguments))
  | "print" => some (print (labelArgument arguments))
  | "loadbang" => some loadbang
  | "bang~" => some tick
  | "adc~" => some (adc (channelArguments arguments))
  | "dac~" => some (dac (channelArguments arguments))
  | "+~" => some (arithmetic .add (rightArgument arguments))
  | "-~" => some (arithmetic .subtract (rightArgument arguments))
  | "*~" => some (arithmetic .multiply (rightArgument arguments))
  | "sig~" => some (constant (arguments.headD .empty).asFloat)
  | _ =>
    match MidiKind.ofInputClass? className with
    | some kind => some (midiIn kind)
    | none => (MidiKind.ofOutputClass? className).map fun kind => midiOutput kind arguments

/-! ## Ports and names -/

/-- The numbers of signal inlets and signal outlets. -/
def signalPorts : Node → Nat × Nat
  | adc channels => (0, channels.length)
  | dac channels => (channels.length, 0)
  | arithmetic _ (some _) => (1, 1)
  | arithmetic _ none => (2, 1)
  | constant _ => (0, 1)
  | _ => (0, 0)

/-- Whether an object takes part in the signal graph. -/
def isSignal (node : Node) : Bool := node.signalPorts != (0, 0)

/-- The tie an object listens at, if it listens anywhere. -/
def listensAt (node : Node) : Option Tie :=
  match node with
  | receive tie => if tie.isEmpty then none else some tie
  | gui stored => if stored.receive.isEmpty then none else some stored.receive
  | _ => none

/-- Whether an object listens to incoming MIDI. -/
def isMidiIn : Node → Bool
  | midiIn _ => true
  | _ => false

/-- Whether an object fires when its patch has been loaded. -/
def isLoadbang : Node → Bool
  | loadbang => true
  | _ => false

/-- Whether an object fires after every block. -/
def isTick : Node → Bool
  | tick => true
  | _ => false

/-! ## Messages -/

/-- The event a MIDI output sends when its first inlet receives `first`. -/
def outgoingMidi (kind : MidiKind) (first second third : Int32) : MidiEvent :=
  match kind with
  | .note => .noteOn third first second
  | .control => .controlChange third second first
  | .program => .programChange second first
  | .bend => .pitchBend second first
  | .touch => .afterTouch second first
  | .polyTouch => .polyAfterTouch third second first
  | .byte => .byte second first

/-- The integer part of the list element at a position, or the value waiting
there if the list is too short. -/
def listInt (atoms : Payload) (index : Nat) (waiting : Int32) : Int32 :=
  match atoms[index]? with
  | some atom => Number.truncate atom.asFloat
  | none => waiting

/-- Answer a message on an inlet of a MIDI output. The first inlet sends; a list
there is spread over the inlets, from the right. -/
def answerMidiOut (kind : MidiKind) (second third : Int32) (inlet : Nat) (message : Message) :
    Node × List Emission :=
  match inlet, message with
  | 0, .list atoms =>
    let second := listInt atoms 1 second
    let third := if kind.inlets = 3 then listInt atoms 2 third else third
    (midiOut kind second third,
      match atoms with
      | [] => []
      | atom :: _ => [.midi (outgoingMidi kind (Number.truncate atom.asFloat) second third)])
  | 0, message =>
    (midiOut kind second third,
      match message.number? with
      | some value => [.midi (outgoingMidi kind (Number.truncate value) second third)]
      | none => [])
  | inlet, message =>
    match message.number? with
    | some value =>
      if inlet = 1 then (midiOut kind (Number.truncate value) third, [])
      else if inlet = 2 then (midiOut kind second (Number.truncate value), [])
      else (midiOut kind second third, [])
    | none => (midiOut kind second third, [])

/-- Answer a message on a number box that has no range. -/
def answerNumber (stored : Float32) (message : Message) : Node × List Emission :=
  match message with
  | .bang => (number stored, [.outlet 0 (.float stored)])
  | .anything selector arguments =>
    if selector = .set then
      match arguments with
      | atom :: _ => (number atom.asFloat, [])
      | [] => (number stored, [])
    else (number stored, [])
  | other =>
    match other.number? with
    | some value => (number value, [.outlet 0 (.float value)])
    | none => (number stored, [])

/-- Answer a message on an inlet of a `send`: the right inlet takes a new name. -/
def answerSend (tie : Tie) (inlet : Nat) (message : Message) : Node × List Emission :=
  if inlet = 1 then
    match message with
    | .symbol name => (send ⟨name.name⟩, [])
    | _ => (send tie, [])
  else (send tie, if tie.isEmpty then [] else [.send tie message])

/-- Answer a control message on an inlet. -/
def answer (node : Node) (inlet : Nat) (message : Message) : Node × List Emission :=
  match node with
  | inert | loadbang | tick | midiIn _ | adc _ | dac _ => (node, [])
  | receive tie => (receive tie, [.outlet 0 message])
  | send tie => answerSend tie inlet message
  | print label => (print label, [.post .normal (label ++ ": " ++ message.text)])
  | messageBox pieces =>
    let (pieces, emissions) := answerMessageBox pieces message
    (messageBox pieces, emissions)
  | number stored => answerNumber stored message
  | midiOut kind second third => answerMidiOut kind second third inlet message
  | arithmetic operation (some right) =>
    match inlet, message.number? with
    | 1, some value => (arithmetic operation (some value), [])
    | _, _ => (arithmetic operation (some right), [])
  | arithmetic operation none => (arithmetic operation none, [])
  | constant stored =>
    match message.number? with
    | some value => (constant value, [])
    | none => (constant stored, [])
  | gui stored =>
    let (stored, emissions) := stored.answer message
    (gui stored, emissions)

/-! ## Incoming MIDI -/

/-- The values an event brings to the outlets of an input of its family, from
the first outlet on. -/
def incomingValues : MidiEvent → List Int32
  | .noteOn channel pitch velocity => [pitch, velocity, channel]
  | .controlChange channel controller value => [value, controller, channel]
  | .programChange channel value => [value, channel]
  | .pitchBend channel value => [value, channel]
  | .afterTouch channel value => [value, channel]
  | .polyAfterTouch channel pitch value => [value, pitch, channel]
  | .byte port value => [value, port]

/-- What an object does about a MIDI event: an input of its family sends the
values out, from the last outlet to the first. -/
def answerMidi (node : Node) (event : MidiEvent) : List Emission :=
  match node with
  | midiIn kind =>
    if kind = event.kind then
      ((incomingValues event).zipIdx.map fun (value, outlet) =>
        Emission.outlet outlet (.float (Number.ofInt value.toInt))).reverse
    else []
  | _ => []

end Node

end Patchbay
