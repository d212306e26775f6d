import Patchbay.Object.Emission
import Patchbay.Object.Geometry

/-!
# GUI objects

Nine classes of boxes store their names, label, range and state in their
creation arguments. Missing trailing arguments take the defaults of the class,
and the name `empty` stands for no name.
-/

namespace Patchbay

/-- The classes of GUI objects. -/
inductive GuiKind where
  | bang
  | horizontalSlider
  | verticalSlider
  | toggle
  | number
  | horizontalRadio
  | verticalRadio
  | vuMeter
  | panel
  deriving DecidableEq, Repr, Inhabited

namespace GuiKind

/-- The class name of a GUI kind. -/
def className : GuiKind → String
  | bang => "bng"
  | horizontalSlider => "hsl"
  | verticalSlider => "vsl"
  | toggle => "tgl"
  | number => "nbx"
  | horizontalRadio => "hradio"
  | verticalRadio => "vradio"
  | vuMeter => "vu"
  | panel => "cnv"

/-- The GUI kinds in the order of their numbers. -/
def all : List GuiKind :=
  [bang, horizontalSlider, verticalSlider, toggle, number, horizontalRadio, verticalRadio,
    vuMeter, panel]

/-- The GUI kind of a class. -/
def ofClass? (className : String) : Option GuiKind :=
  all.find? fun kind => kind.className == className

/-- The number of a GUI kind. -/
def index (kind : GuiKind) : Nat := all.idxOf kind

end GuiKind

/-- A GUI object with its live value. -/
structure Gui where
  kind : GuiKind
  label : Symbol := .empty
  send : Tie := .empty
  receive : Tie := .empty
  minimum : Float32 := 0
  maximum : Float32 := 0
  /-- How many distinct positions there are, zero if positions do not apply. -/
  steps : Nat := 0
  value : Float32 := 0
  labelX : Int32 := 0
  labelY : Int32 := 0
  width : Int32 := 15
  height : Int32 := 15
  logScale : Bool := false
  deriving DecidableEq, Inhabited

/-! ## Creation arguments -/

namespace GuiArguments

/-- The number at a position, or a default. -/
def float (arguments : List Atom) (index : Nat) (default : Float32) : Float32 :=
  match arguments[index]? with
  | some (.float value) => value
  | _ => default

/-- The integer part of the number at a position, or a default. -/
def int (arguments : List Atom) (index : Nat) (default : Int32) : Int32 :=
  match arguments[index]? with
  | some (.float value) => Number.truncate value
  | _ => default

/-- The name at a position, numbers counting as their text; no name if the
argument is missing, blank or the placeholder `empty`. -/
def name (arguments : List Atom) (index : Nat) : String :=
  let name := match arguments[index]? with
    | some (.symbol value) => value.name
    | some (.float value) => Number.text value
    | _ => ""
  if name = "empty" then "" else name

/-- The tie named at a position. -/
def tie (arguments : List Atom) (index : Nat) : Tie := ⟨name arguments index⟩

/-- The symbol named at a position. -/
def symbol (arguments : List Atom) (index : Nat) : Symbol := ⟨name arguments index⟩

end GuiArguments

namespace Gui

/-- The two ends of the range in ascending order. -/
def range (gui : Gui) : Float32 × Float32 :=
  if gui.minimum ≤ gui.maximum then (gui.minimum, gui.maximum) else (gui.maximum, gui.minimum)

/-- A value as the GUI stores it: sliders, radios and number boxes keep to their
range. -/
def clamp (gui : Gui) (value : Float32) : Float32 :=
  match gui.kind with
  | .horizontalSlider | .verticalSlider | .horizontalRadio | .verticalRadio | .number =>
    Number.clamp gui.range.1 gui.range.2 value
  | _ => value

/-- The value of a slider of `length` pixels at a stored position, counted in
hundredths of a pixel. -/
def sliderValue (gui : Gui) (position : Float32) (length : Int32) : Float32 :=
  let span := 100 * Number.ofInt (max (saturatingAdd length (-1)) 1).toInt
  let k := Number.clamp 0 1 (position / span)
  if gui.logScale && 0 < gui.minimum && 0 < gui.maximum then
    gui.minimum * (gui.maximum / gui.minimum).pow k
  else gui.minimum + (gui.maximum - gui.minimum) * k

/-- Read the send and receive names, the label and its offset from `(x, y)`,
which stand in a row from position `start`. -/
def withNames (gui : Gui) (arguments : List Atom) (x y : Int32) (start : Nat) : Gui :=
  { gui with
    send := GuiArguments.tie arguments start
    receive := GuiArguments.tie arguments (start + 1)
    label := GuiArguments.symbol arguments (start + 2)
    labelX := saturatingAdd x (GuiArguments.int arguments (start + 3) 0)
    labelY := saturatingAdd y (GuiArguments.int arguments (start + 4) (-8)) }

/-- A slider drawn along its width or its height. -/
def slider (horizontal : Bool) (arguments : List Atom) : Gui :=
  let width := GuiArguments.int arguments 0 (if horizontal then 128 else 15)
  let height := GuiArguments.int arguments 1 (if horizontal then 15 else 128)
  let length := if horizontal then width else height
  let gui : Gui :=
    { kind := if horizontal then .horizontalSlider else .verticalSlider
      width, height
      minimum := GuiArguments.float arguments 2 0
      maximum := GuiArguments.float arguments 3 127
      logScale := GuiArguments.int arguments 4 0 != 0
      steps := (max length 2).toNatClampNeg }
  { gui with value := gui.sliderValue (GuiArguments.float arguments 16 0) length }

/-- A row or column of radio buttons. -/
def radio (horizontal : Bool) (arguments : List Atom) : Gui :=
  let size := GuiArguments.int arguments 0 15
  let count := max (GuiArguments.int arguments 3 8) 1
  let extent := saturatingMul size count
  { kind := if horizontal then .horizontalRadio else .verticalRadio
    width := if horizontal then extent else size
    height := if horizontal then size else extent
    maximum := Number.ofInt (count.toInt - 1)
    steps := count.toNatClampNeg
    value := GuiArguments.float arguments 14 0 }

/-- The magnitude of `10 ^ 37`, the default ends of the range of a number box. -/
def numberLimit : Nat := 0x7cf0bdc2

/-- A number box. -/
def numberBox (arguments : List Atom) (cellWidth : Int32) : Gui :=
  let height := GuiArguments.int arguments 1 14
  { kind := .number
    height
    width := saturatingAdd
      (saturatingAdd (saturatingMul (GuiArguments.int arguments 0 5) cellWidth) (height / 2)) 4
    minimum := GuiArguments.float arguments 2 (Number.ofMagnitude true numberLimit)
    maximum := GuiArguments.float arguments 3 (Number.ofMagnitude false numberLimit)
    logScale := GuiArguments.int arguments 4 0 != 0
    value := GuiArguments.float arguments 16 0 }

/-- Build a GUI object at `(x, y)` from its creation arguments. -/
def create (kind : GuiKind) (arguments : List Atom) (x y cellWidth : Int32) : Gui :=
  let int := GuiArguments.int arguments
  let float := GuiArguments.float arguments
  match kind with
  | .bang =>
    let gui : Gui := { kind, width := int 0 15, height := int 0 15 }
    gui.withNames arguments x y 4
  | .toggle =>
    let gui : Gui :=
      { kind, width := int 0 15, height := int 0 15
        maximum := float 13 1, value := float 12 0, steps := 2 }
    gui.withNames arguments x y 2
  | .number => (numberBox arguments cellWidth).withNames arguments x y 6
  | .horizontalSlider => (slider true arguments).withNames arguments x y 6
  | .verticalSlider => (slider false arguments).withNames arguments x y 6
  | .horizontalRadio => (radio true arguments).withNames arguments x y 4
  | .verticalRadio => (radio false arguments).withNames arguments x y 4
  | .vuMeter =>
    { kind, width := int 0 15, height := int 1 120
      minimum := -100, maximum := 12, value := -100
      receive := GuiArguments.tie arguments 2
      label := GuiArguments.symbol arguments 3
      labelX := saturatingAdd x (int 4 (-1))
      labelY := saturatingAdd y (int 5 (-8)) }
  | .panel =>
    let gui : Gui := { kind, width := int 1 100, height := int 2 60 }
    gui.withNames arguments x y 3

/-! ## Messages -/

/-- What a GUI object sends out: to its send name first, then to its outlet. -/
def output (gui : Gui) : List Emission :=
  let message : Message := if gui.kind = .bang then .bang else .float gui.value
  (if gui.send.isEmpty then [] else [.send gui.send message]) ++ [.outlet 0 message]

/-- Store a value and send it out. -/
def take (gui : Gui) (value : Float32) : Gui × List Emission :=
  let gui := { gui with value := gui.clamp value }
  (gui, gui.output)

/-- Answer a bang: a toggle changes sides first. -/
def bang (gui : Gui) : Gui × List Emission :=
  let gui :=
    if gui.kind = .toggle then
      { gui with value := if gui.value != 0 then 0 else gui.maximum }
    else gui
  (gui, gui.output)

/-- Store the first argument of `set` without sending anything. -/
def store (gui : Gui) (arguments : Payload) : Gui :=
  match arguments with
  | .float value :: _ => { gui with value := gui.clamp value }
  | _ => gui

/-- Answer a message on the inlet or through the receive name. -/
def answer (gui : Gui) (message : Message) : Gui × List Emission :=
  match gui.kind with
  | .panel => (gui, [])
  | .vuMeter =>
    match message.number? with
    | some value => ({ gui with value }, [])
    | none => (gui, [])
  | .bang => (gui, if message.isSet then [] else gui.output)
  | _ =>
    match message with
    | .bang => gui.bang
    | .anything selector arguments =>
      if selector = .set then (gui.store arguments, []) else (gui, [])
    | other =>
      match other.number? with
      | some value => gui.take value
      | none => (gui, [])

end Gui

end Patchbay
