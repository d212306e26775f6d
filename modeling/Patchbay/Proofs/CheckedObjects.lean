import Patchbay.Proofs.Checked
import Patchbay.Proofs.Ranges
import Patchbay.Proofs.Saturation

/-!
# Objects without fault

Making an object and answering with it takes differences, products of a size with a count,
entries of short tables and clamps. A difference of sizes must not fall below zero, an integer
has to stay within its bits, an index must stand for an entry, and a clamp needs two numbers
in order. Here all of this is checked, and the first fault ends the work. No creation argument
and no message makes one, as long as the ends of a range are numbers.

## Implementation notes

Sums and products that stick at the ends of their range have no fault to check. Neither have
conversions between numbers, which saturate, nor arithmetic on singles.
-/

namespace Patchbay.Checked

/-! ## Arithmetic -/

/-- The sum of two sizes. -/
def add (a b : Nat) : Option Nat := if a + b < sizeBound then some (a + b) else none

/-- The difference of two sizes. -/
def sub (a b : Nat) : Option Nat := if b ≤ a then some (a - b) else none

/-- An exact result as an integer of 32 bits. -/
def int32 (n : Int) : Option Int32 :=
  if Int32.minValue.toInt ≤ n ∧ n ≤ Int32.maxValue.toInt then some (Int32.ofInt n) else none

/-- The quotient of two integers of 32 bits. -/
def div (a b : Int32) : Option Int32 :=
  if b = 0 ∨ a = Int32.minValue ∧ b = -1 then none else some (a / b)

/-- A number brought between two ends. -/
def clamp (low high x : Float32) : Option Float32 :=
  if Number.IsNumber low ∧ Number.IsNumber high ∧ low ≤ high then
    some (Number.clamp low high x)
  else none

/-- A table with another entry at an index. -/
def set {α : Type} (table : List α) (index : Nat) (entry : α) : Option (List α) :=
  if index < table.length then some (table.set index entry) else none

/-- A list without its first elements. -/
def skip {α : Type} (count : Nat) (items : List α) : Option (List α) :=
  if count ≤ items.length then some (items.drop count) else none

theorem add_eq_some {a b : Nat} (h : a + b < sizeBound) : add a b = some (a + b) := if_pos h

theorem sub_eq_some {a b : Nat} (h : b ≤ a) : sub a b = some (a - b) := if_pos h

theorem clamp_eq_some {low high : Float32} (hlow : Number.IsNumber low)
    (hhigh : Number.IsNumber high) (horder : low ≤ high) (x : Float32) :
    clamp low high x = some (Number.clamp low high x) := if_pos ⟨hlow, hhigh, horder⟩

/-! ## GUI objects -/

/-- The value of a slider at a stored position. -/
def sliderValue (gui : Gui) (position : Float32) (length : Int32) : Option Float32 := do
  let span := 100 * Number.ofInt (max (saturatingAdd length (-1)) 1).toInt
  let k ← clamp 0 1 (position / span)
  some (if gui.logScale && 0 < gui.minimum && 0 < gui.maximum then
    gui.minimum * (gui.maximum / gui.minimum).pow k
  else gui.minimum + (gui.maximum - gui.minimum) * k)

/-- A slider drawn along its width or its height. -/
def slider (horizontal : Bool) (arguments : List Atom) : Option Gui := do
  let width := GuiArguments.int arguments 0 (if horizontal then 128 else 15)
  let height := GuiArguments.int arguments 1 (if horizontal then 15 else 128)
  let length := if horizontal then width else height
  let gui : Gui :=
    { kind := if horizontal then .horizontalSlider else .verticalSlider
      width, height
      minimum := GuiArguments.float arguments 2 0
      maximum := GuiArguments.float arguments 3 127
      logScale := GuiArguments.int arguments 4 0 != 0
      steps := (max length 2).toNatClampNeg }
  let value ← sliderValue gui (GuiArguments.float arguments 16 0) length
  some { gui with value }

/-- A row or column of radio buttons. -/
def radio (horizontal : Bool) (arguments : List Atom) : Option Gui := do
  let size := GuiArguments.int arguments 0 15
  let count := max (GuiArguments.int arguments 3 8) 1
  let extent := saturatingMul size count
  let last ← int32 (count.toInt - 1)
  some
    { kind := if horizontal then .horizontalRadio else .verticalRadio
      width := if horizontal then extent else size
      height := if horizontal then size else extent
      maximum := Number.ofInt last.toInt
      steps := count.toNatClampNeg
      value := GuiArguments.float arguments 14 0 }

/-- A number box. -/
def numberBox (arguments : List Atom) (cellWidth : Int32) : Option Gui := do
  let height := GuiArguments.int arguments 1 14
  let half ← div height 2
  some
    { kind := .number
      height
      width := saturatingAdd
        (saturatingAdd (saturatingMul (GuiArguments.int arguments 0 5) cellWidth) half) 4
      minimum := GuiArguments.float arguments 2 (Number.ofMagnitude true Gui.numberLimit)
      maximum := GuiArguments.float arguments 3 (Number.ofMagnitude false Gui.numberLimit)
      logScale := GuiArguments.int arguments 4 0 != 0
      value := GuiArguments.float arguments 16 0 }

/-- Read the names of a GUI object and the offset of its label, which stand in a row. -/
def withNames (gui : Gui) (arguments : List Atom) (x y : Int32) (start : Nat) : Option Gui := do
  let receiveAt ← add start 1
  let labelAt ← add start 2
  let labelXAt ← add start 3
  let labelYAt ← add start 4
  some { gui with
    send := GuiArguments.tie arguments start
    receive := GuiArguments.tie arguments receiveAt
    label := GuiArguments.symbol arguments labelAt
    labelX := saturatingAdd x (GuiArguments.int arguments labelXAt 0)
    labelY := saturatingAdd y (GuiArguments.int arguments labelYAt (-8)) }

/-- Build a GUI object from its creation arguments. -/
def createGui (kind : GuiKind) (arguments : List Atom) (x y cellWidth : Int32) : Option Gui := do
  let int := GuiArguments.int arguments
  let float := GuiArguments.float arguments
  match kind with
  | .bang => withNames { kind, width := int 0 15, height := int 0 15 } arguments x y 4
  | .toggle =>
    let gui : Gui :=
      { kind, width := int 0 15, height := int 0 15
        maximum := float 13 1, value := float 12 0, steps := 2 }
    withNames gui arguments x y 2
  | .number => withNames (← numberBox arguments cellWidth) arguments x y 6
  | .horizontalSlider => withNames (← slider true arguments) arguments x y 6
  | .verticalSlider => withNames (← slider false arguments) arguments x y 6
  | .horizontalRadio => withNames (← radio true arguments) arguments x y 4
  | .verticalRadio => withNames (← radio false arguments) arguments x y 4
  | .vuMeter => some (Gui.create .vuMeter arguments x y cellWidth)
  | .panel => withNames { kind, width := int 1 100, height := int 2 60 } arguments x y 3

/-- A value as a GUI object stores it. -/
def clampGui (gui : Gui) (value : Float32) : Option Float32 :=
  match gui.kind with
  | .horizontalSlider | .verticalSlider | .horizontalRadio | .verticalRadio | .number =>
    clamp gui.range.1 gui.range.2 value
  | _ => some value

/-- Store a value and send it out. -/
def takeGui (gui : Gui) (value : Float32) : Option (Gui × List Emission) := do
  let value ← clampGui gui value
  let gui := { gui with value }
  some (gui, gui.output)

/-- Store the first argument of `set`. -/
def storeGui (gui : Gui) (arguments : Payload) : Option Gui :=
  match arguments with
  | .float value :: _ => do
    let value ← clampGui gui value
    some { gui with value }
  | _ => some gui

/-- Answer a message on the inlet or through the receive name. -/
def answerGui (gui : Gui) (message : Message) : Option (Gui × List Emission) :=
  match gui.kind with
  | .panel => some (gui, [])
  | .vuMeter =>
    match message.number? with
    | some value => some ({ gui with value }, [])
    | none => some (gui, [])
  | .bang => some (gui, if message.isSet then [] else gui.output)
  | _ =>
    match message with
    | .bang => some gui.bang
    | .anything selector arguments =>
      if selector = .set then (storeGui gui arguments).map fun gui => (gui, [])
      else some (gui, [])
    | other =>
      match other.number? with
      | some value => takeGui gui value
      | none => some (gui, [])

/-! ## Other objects -/

/-- The number by which an argument names a channel. -/
def channelNumber? : Atom → Option Float32
  | .float value => if 1 ≤ value then some value else none
  | _ => none

/-- The host channels named by creation arguments, which count from one. -/
def channelArguments (arguments : List Atom) : Option (List Nat) := do
  let numbers := arguments.filterMap channelNumber?
  let channels ← numbers.mapM fun value => sub (Number.truncateSize value) 1
  some (if channels.isEmpty then [0, 1] else channels)

/-- The values that wait on the two further inlets of a new MIDI output. -/
def latches (kind : MidiKind) (arguments : List Atom) : Option (List Int32) :=
  let values := arguments.map fun atom => Number.truncate atom.asFloat
  match kind with
  | .note | .polyTouch =>
    match values with
    | channel :: _ => set [0, 0] 1 channel
    | [] => some [0, 0]
  | _ =>
    match values with
    | second :: third :: _ => some [second, third]
    | [second] => some [second, 0]
    | [] => some [0, 0]

/-- A MIDI output with the values of a table waiting, which sends an event if there is a number
for it. -/
def midiOut (kind : MidiKind) (latched : List Int32) (first : Option Float32) :
    Option (Node × List Emission) := do
  let second ← latched[0]?
  let third ← latched[1]?
  some (.midiOut kind second third,
    match first with
    | some value => [.midi (Node.outgoingMidi kind (Number.truncate value) second third)]
    | none => [])

/-- The node of a class that is not a GUI. -/
def createNode (className : String) (arguments : List Atom) : Option (Option Node) :=
  match className with
  | "adc~" => (channelArguments arguments).map fun channels => some (.adc channels)
  | "dac~" => (channelArguments arguments).map fun channels => some (.dac channels)
  | _ =>
    match MidiKind.ofOutputClass? className with
    | some kind => do
      let latched ← latches kind arguments
      let (node, _) ← midiOut kind latched none
      some (some node)
    | none => some (Node.create className arguments)

/-- Put an element of a list on the further inlet of a MIDI output. -/
def latch (atoms : Payload) (latched : List Int32) (inlet : Nat) : Option (List Int32) := do
  let index ← sub inlet 1
  set latched index (Number.truncate ((atoms[inlet]?.map Atom.asFloat).getD 0))

/-- Answer a message on an inlet of a MIDI output. A number for an inlet that there is not is
left out, and a list on the first inlet is spread from the right. -/
def answerMidiOut (kind : MidiKind) (second third : Int32) (inlet : Nat) (message : Message) :
    Option (Node × List Emission) :=
  if 0 < inlet then do
    let index ← sub inlet 1
    match message.number? with
    | some value => midiOut kind ([second, third].set index (Number.truncate value)) none
    | none => midiOut kind [second, third] none
  else
    match message with
    | .list atoms => do
      let inlets := List.range' 1 (min atoms.length kind.inlets - 1)
      let latched ← inlets.reverse.foldlM (latch atoms) [second, third]
      midiOut kind latched (atoms.head?.map Atom.asFloat)
    | message => midiOut kind [second, third] message.number?

/-- Read a bare sequence of atoms as a message. The arguments of a selector start at the second
atom. -/
def messageOf (atoms : Payload) : Option Message :=
  match atoms with
  | .symbol selector :: _ => (skip 1 atoms).map (Message.classify selector)
  | atoms => some (Message.ofAtoms atoms)

/-- What a piece of a message box emits for incoming arguments. -/
def emitPiece (arguments : Payload) (piece : Piece) : Option Emission := do
  let message ← messageOf (piece.atoms.map (PieceAtom.fill arguments))
  some (match piece.target with
    | some tie => .send tie message
    | none => .outlet 0 message)

/-- Answer a message on the inlet of a message box. -/
def answerPieces (pieces : List Piece) (message : Message) :
    Option (List Piece × List Emission) :=
  if message.isSet then some (answerMessageBox pieces message)
  else (pieces.mapM (emitPiece message.arguments)).map fun emissions => (pieces, emissions)

/-- Answer a control message on an inlet. -/
def answer (node : Node) (inlet : Nat) (message : Message) : Option (Node × List Emission) :=
  match node with
  | .messageBox pieces =>
    (answerPieces pieces message).map fun (pieces, emissions) => (.messageBox pieces, emissions)
  | .midiOut kind second third => answerMidiOut kind second third inlet message
  | .gui gui => (answerGui gui message).map fun (gui, emissions) => (.gui gui, emissions)
  | node => some (node.answer inlet message)

/-- What an object does about a MIDI event, whose values stand in a table of three. -/
def answerMidi (node : Node) (event : MidiEvent) : Option (List Emission) :=
  match node with
  | .midiIn kind =>
    if kind = event.kind then
      let values := Node.incomingValues event
      let table := values ++ List.replicate (3 - values.length) 0
      (List.range values.length).reverse.mapM fun outlet =>
        table[outlet]?.map fun value => .outlet outlet (.float (Number.ofInt value.toInt))
    else some []
  | _ => some []

/-! ## Message boxes -/

/-- The argument position that a word such as `$1` stands for. -/
def argumentIndex (word : String) : Option (Option Nat) :=
  match word.toList with
  | '$' :: digits =>
    match readCountBelow sizeBound digits with
    | .ok index => if 1 ≤ index then (sub index 1).map some else some none
    | .error _ => some none
  | _ => some none

/-- The part of a message box that an atom makes. -/
def pieceAtom (atom : Atom) : Option PieceAtom :=
  match atom with
  | .symbol name => (argumentIndex name.name).map fun index =>
    match index with
    | some index => .argument index
    | none => .literal (.symbol name)
  | atom => some (.literal atom)

end Patchbay.Checked

namespace Patchbay

/-- Both ends of the range of a GUI object are numbers. -/
structure Gui.Bounded (gui : Gui) : Prop where
  minimum : Number.IsNumber gui.minimum
  maximum : Number.IsNumber gui.maximum

/-- An object has a range between numbers, if it has one at all. -/
def Node.Bounded (node : Node) : Prop := ∀ gui, node = .gui gui → gui.Bounded

/-! ## Ranges between numbers -/

theorem Atom.isNumber_ofWord {word : String} {value : Float32}
    (h : Atom.ofWord word = .float value) : Number.IsNumber value := by
  unfold ofWord at h
  split at h
  · cases h
    exact Number.Literal.isNumber_value _
  · cases h

theorem GuiArguments.isNumber_float {words : List String} {dollarZero : Int32} (index : Nat)
    {default : Float32} (hdefault : Number.IsNumber default) :
    Number.IsNumber (float (words.map fun word => expandWord word dollarZero) index default) := by
  unfold float
  split
  · rename_i value hvalue
    rw [List.getElem?_map] at hvalue
    obtain ⟨word, -, hword⟩ := Option.map_eq_some_iff.mp hvalue
    exact Atom.isNumber_ofWord hword
  · exact hdefault

/-- A GUI object that is made from words has its range between numbers. -/
theorem Gui.bounded_create (kind : GuiKind) (words : List String) (dollarZero : Int32)
    (x y cellWidth : Int32) :
    (Gui.create kind (words.map fun word => expandWord word dollarZero) x y cellWidth).Bounded := by
  have hzero : Number.IsNumber 0 := by decide
  have hlimit (negative : Bool) : Number.IsNumber (Number.ofMagnitude negative numberLimit) := by
    cases negative <;> decide
  have hfloat (index : Nat) {default : Float32} (hdefault : Number.IsNumber default) :
      Number.IsNumber (GuiArguments.float (words.map fun word => expandWord word dollarZero)
        index default) := GuiArguments.isNumber_float index hdefault
  cases kind with
  | bang => exact ⟨hzero, hzero⟩
  | toggle => exact ⟨hzero, hfloat 13 (by decide)⟩
  | number => exact ⟨hfloat 2 (hlimit true), hfloat 3 (hlimit false)⟩
  | horizontalSlider => exact ⟨hfloat 2 hzero, hfloat 3 (by decide)⟩
  | verticalSlider => exact ⟨hfloat 2 hzero, hfloat 3 (by decide)⟩
  | horizontalRadio => exact ⟨hzero, Number.isNumber_ofInt _⟩
  | verticalRadio => exact ⟨hzero, Number.isNumber_ofInt _⟩
  | vuMeter =>
    have hbottom : Number.IsNumber (-100) := by decide
    have htop : Number.IsNumber 12 := by decide
    exact ⟨hbottom, htop⟩
  | panel => exact ⟨hzero, hzero⟩

/-- What an object answers does not change its range. -/
theorem Node.Bounded.answer {node : Node} (h : node.Bounded) (inlet : Nat) (message : Message) :
    (node.answer inlet message).1.Bounded := by
  intro later hlater
  obtain ⟨created, rfl, hanswer⟩ :=
    exists_gui_of_afterAll (show node.afterAll [(inlet, message)] = .gui later from hlater)
  obtain ⟨value, hvalue⟩ := created.exists_answer_eq message
  have hsame : later = { created with value } := hanswer.trans hvalue
  rw [hsame]
  exact ⟨(h created rfl).minimum, (h created rfl).maximum⟩

namespace Checked

theorem sliderValue_eq_some (gui : Gui) (position : Float32) (length : Int32) :
    sliderValue gui position length = some (gui.sliderValue position length) := by
  have hunit (x : Float32) : clamp 0 1 x = some (Number.clamp 0 1 x) :=
    clamp_eq_some (by decide) (by decide) (by decide) x
  simp only [sliderValue, hunit]
  rfl

theorem slider_eq_some (horizontal : Bool) (arguments : List Atom) :
    slider horizontal arguments = some (Gui.slider horizontal arguments) := by
  simp only [slider, sliderValue_eq_some]
  rfl

theorem one_le_max_one (count : Int32) : 1 ≤ (max count 1).toInt := by
  rw [toInt_max]
  exact Int.le_max_right _ _

/-- A radio has a button, so the last one has a number. -/
theorem int32_last (count : Int32) :
    int32 ((max count 1).toInt - 1) = some (Int32.ofInt ((max count 1).toInt - 1)) ∧
      (Int32.ofInt ((max count 1).toInt - 1)).toInt = (max count 1).toInt - 1 := by
  have hlow := one_le_max_one count
  have hhigh : (max count 1).toInt ≤ 2 ^ 31 - 1 := Int32.toInt_le _
  have hmin : Int32.minValue.toInt = -2 ^ 31 := rfl
  have hmax : Int32.maxValue.toInt = 2 ^ 31 - 1 := rfl
  exact ⟨if_pos (by omega), Int32.toInt_ofInt_of_le (by omega) (by omega)⟩

theorem radio_eq_some (horizontal : Bool) (arguments : List Atom) :
    radio horizontal arguments = some (Gui.radio horizontal arguments) := by
  obtain ⟨hlast, hvalue⟩ := int32_last (GuiArguments.int arguments 3 8)
  simp only [radio, hlast, Option.bind_eq_bind, Option.bind_some, hvalue]
  rfl

theorem numberBox_eq_some (arguments : List Atom) (cellWidth : Int32) :
    numberBox arguments cellWidth = some (Gui.numberBox arguments cellWidth) := by
  have hhalf : div (GuiArguments.int arguments 1 14) 2 =
      some (GuiArguments.int arguments 1 14 / 2) := if_neg (by simp)
  simp only [numberBox, hhalf]
  rfl

theorem withNames_eq_some (gui : Gui) (arguments : List Atom) (x y : Int32) {start : Nat}
    (h : start + 4 < sizeBound) :
    withNames gui arguments x y start = some (gui.withNames arguments x y start) := by
  have hnext (offset : Nat) (hoffset : offset ≤ 4) : add start offset = some (start + offset) :=
    add_eq_some (Nat.lt_of_le_of_lt (Nat.add_le_add_left hoffset start) h)
  simp only [withNames, hnext 1 (by decide), hnext 2 (by decide), hnext 3 (by decide),
    hnext 4 (by decide)]
  rfl

/-- No creation argument makes a fault. -/
theorem createGui_eq_some (kind : GuiKind) (arguments : List Atom) (x y cellWidth : Int32) :
    createGui kind arguments x y cellWidth = some (Gui.create kind arguments x y cellWidth) := by
  have hnames (gui : Gui) {start : Nat} (hstart : start ≤ 6) :
      withNames gui arguments x y start = some (gui.withNames arguments x y start) := by
    have hbound : 10 < sizeBound := by decide
    exact withNames_eq_some gui arguments x y (by omega)
  have hmade {made : Option Gui} {gui : Gui} (hgui : made = some gui) {start : Nat}
      (hstart : start ≤ 6) :
      (made.bind fun gui => withNames gui arguments x y start) =
        some (gui.withNames arguments x y start) := by
    rw [hgui]
    exact hnames gui hstart
  have hfour : 4 ≤ 6 := by decide
  have hsix : 6 ≤ 6 := Nat.le_refl 6
  cases kind with
  | bang => exact hnames _ hfour
  | toggle => exact hnames _ (by decide)
  | number => exact hmade (numberBox_eq_some arguments cellWidth) hsix
  | horizontalSlider => exact hmade (slider_eq_some true arguments) hsix
  | verticalSlider => exact hmade (slider_eq_some false arguments) hsix
  | horizontalRadio => exact hmade (radio_eq_some true arguments) hfour
  | verticalRadio => exact hmade (radio_eq_some false arguments) hfour
  | vuMeter => rfl
  | panel => exact hnames _ (by decide)

section
variable {gui : Gui}

theorem clampGui_eq_some (h : gui.Bounded) (value : Float32) :
    clampGui gui value = some (gui.clamp value) := by
  obtain ⟨horder, hrange⟩ := Gui.range_bounds h.minimum h.maximum
  have hlow : Number.IsNumber gui.range.1 := by
    rcases hrange with hrange | hrange <;> rw [hrange]
    · exact h.minimum
    · exact h.maximum
  have hhigh : Number.IsNumber gui.range.2 := by
    rcases hrange with hrange | hrange <;> rw [hrange]
    · exact h.maximum
    · exact h.minimum
  have hclamp := clamp_eq_some hlow hhigh horder value
  unfold clampGui Gui.clamp
  cases gui.kind <;> first | exact hclamp | rfl

theorem takeGui_eq_some (h : gui.Bounded) (value : Float32) :
    takeGui gui value = some (gui.take value) := by
  simp only [takeGui, clampGui_eq_some h]
  rfl

theorem storeGui_eq_some (h : gui.Bounded) (arguments : Payload) :
    storeGui gui arguments = some (gui.store arguments) := by
  rcases arguments with _ | ⟨⟨⟩, rest⟩ <;> simp only [storeGui, clampGui_eq_some h] <;> rfl

/-- No message makes a fault, as long as the ends of the range are numbers. -/
theorem answerGui_eq_some (h : gui.Bounded) (message : Message) :
    answerGui gui message = some (gui.answer message) := by
  unfold answerGui Gui.answer
  cases gui.kind with
  | panel => rfl
  | vuMeter => cases message.number? <;> rfl
  | bang => rfl
  | _ =>
    cases message with
    | bang => rfl
    | anything selector arguments =>
      by_cases hset : selector = .set
      · simp only [if_pos hset, storeGui_eq_some h]
        rfl
      · simp only [if_neg hset]
    | _ =>
      simp only [takeGui_eq_some h]
      cases Message.number? _ <;> rfl

end

/-- What may be done with every entry is done with a list. -/
theorem mapM_eq_some {α β : Type} {checked : α → Option β} {unchecked : α → β} {items : List α}
    (h : ∀ item ∈ items, checked item = some (unchecked item)) :
    items.mapM checked = some (items.map unchecked) := by
  induction items with
  | nil => rfl
  | cons item rest ih =>
    rw [List.mapM_cons, h item List.mem_cons_self,
      ih fun other hother => h other (List.mem_cons_of_mem item hother)]
    rfl

/-- A channel counts from one, so its number can be taken down by one. -/
theorem channelArguments_eq_some (arguments : List Atom) :
    channelArguments arguments = some (Patchbay.channelArguments arguments) := by
  have hchannel : ∀ value ∈ arguments.filterMap channelNumber?,
      sub (Number.truncateSize value) 1 = some (Number.truncateSize value - 1) := by
    intro value hvalue
    obtain ⟨atom, -, hatom⟩ := List.mem_filterMap.mp hvalue
    cases atom with
    | float number =>
      obtain ⟨hone, hnumber⟩ := Option.ite_none_right_eq_some.mp hatom
      cases hnumber
      exact sub_eq_some (Number.one_le_truncateSize hone)
    | _ => cases hatom
  have hnumbers : (arguments.filterMap channelNumber?).map
      (fun value => Number.truncateSize value - 1) =
        arguments.filterMap fun atom =>
          match atom with
          | .float value => if 1 ≤ value then some (Number.truncateSize value - 1) else none
          | _ => none := by
    rw [List.map_filterMap]
    congr 1
    funext atom
    cases atom with
    | float value => by_cases hone : 1 ≤ value <;> simp [channelNumber?, hone]
    | _ => rfl
  simp only [channelArguments, mapM_eq_some hchannel, hnumbers]
  rfl

/-- The values that wait in a new MIDI output. -/
theorem latches_eq_some (kind : MidiKind) (arguments : List Atom) :
    ∃ second third, latches kind arguments = some [second, third] ∧
      Node.midiOutput kind arguments = .midiOut kind second third := by
  have hnone : Number.truncate 0 = 0 := by decide
  have hnil (index : Nat) : intArgument [] index = 0 := hnone
  have hone (first : Atom) : intArgument [first] 1 = 0 := hnone
  have hfirst (first : Atom) (rest : List Atom) :
      intArgument (first :: rest) 0 = Number.truncate first.asFloat := rfl
  have hsecond (first second : Atom) (rest : List Atom) :
      intArgument (first :: second :: rest) 1 = Number.truncate second.asFloat := rfl
  cases kind <;> rcases arguments with _ | ⟨first, _ | ⟨second, rest⟩⟩ <;>
    exact ⟨_, _, rfl, by simp only [Node.midiOutput, hnil, hone, hfirst, hsecond]⟩

theorem create_of_outputClass {className : String} {kind : MidiKind}
    (h : MidiKind.ofOutputClass? className = some kind) (arguments : List Atom) :
    Node.create className arguments = some (Node.midiOutput kind arguments) := by
  obtain ⟨entry, hfind, rfl⟩ := Option.map_eq_some_iff.mp h
  have hclass : entry.2.2 = className := by simpa using List.find?_some hfind
  have hentry := List.mem_of_find?_eq_some hfind
  rw [← hclass]
  simp only [MidiKind.classes, List.mem_cons, List.not_mem_nil, or_false] at hentry
  rcases hentry with rfl | rfl | rfl | rfl | rfl | rfl | rfl <;> rfl

/-- No creation argument makes a fault in any other class either. -/
theorem createNode_eq_some (className : String) (arguments : List Atom) :
    createNode className arguments = some (Node.create className arguments) := by
  unfold createNode
  split
  · rw [channelArguments_eq_some]
    rfl
  · rw [channelArguments_eq_some]
    rfl
  · split
    · rename_i kind hkind
      obtain ⟨second, third, hlatches, houtput⟩ := latches_eq_some kind arguments
      rw [hlatches, create_of_outputClass hkind, houtput]
      rfl
    · rfl

theorem inlets_eq_two_or_three (kind : MidiKind) : kind.inlets = 2 ∨ kind.inlets = 3 := by
  cases kind <;> decide

/-- The values that wait behind a list. -/
theorem foldlM_latch_eq_some {inlets : Nat} (hinlets : inlets = 2 ∨ inlets = 3)
    (second third : Int32) (atoms : Payload) :
    (List.range' 1 (min atoms.length inlets - 1)).reverse.foldlM (latch atoms) [second, third] =
      some [Node.listInt atoms 1 second,
        if inlets = 3 then Node.listInt atoms 2 third else third] := by
  rcases atoms with _ | ⟨first, _ | ⟨next, _ | ⟨last, rest⟩⟩⟩ <;>
    rcases hinlets with rfl | rfl
  all_goals try rfl
  all_goals simp [List.range', latch, sub, set, Node.listInt]

theorem answerMidiOut_eq_some (kind : MidiKind) (second third : Int32) (inlet : Nat)
    (message : Message) :
    answerMidiOut kind second third inlet message =
      some (Node.answerMidiOut kind second third inlet message) := by
  rcases inlet with _ | index
  · cases message with
    | list atoms =>
      unfold answerMidiOut
      rw [if_neg (Nat.lt_irrefl 0)]
      simp only [foldlM_latch_eq_some (inlets_eq_two_or_three kind)]
      cases atoms <;> rfl
    | _ => rfl
  · have hindex : sub (index + 1) 1 = some index := sub_eq_some (Nat.le_add_left 1 index)
    cases hnumber : message.number? with
    | none => simp [answerMidiOut, Node.answerMidiOut, hnumber, hindex, midiOut]
    | some value =>
      rcases index with _ | _ | index <;>
        simp [answerMidiOut, Node.answerMidiOut, hnumber, hindex, midiOut]

theorem messageOf_eq_some (atoms : Payload) : messageOf atoms = some (Message.ofAtoms atoms) := by
  unfold messageOf
  split
  · rename_i selector rest
    have hskip : skip 1 (.symbol selector :: rest : Payload) = some rest :=
      if_pos (Nat.le_add_left 1 rest.length)
    rw [hskip]
    rfl
  · rfl

theorem answerPieces_eq_some (pieces : List Piece) (message : Message) :
    answerPieces pieces message = some (answerMessageBox pieces message) := by
  have hemit : ∀ piece ∈ pieces, emitPiece message.arguments piece =
      some (piece.emit message.arguments) := by
    intro piece _
    rw [emitPiece, messageOf_eq_some]
    rfl
  unfold answerPieces
  split
  · rfl
  · rename_i hset
    rw [mapM_eq_some hemit, Option.map_some]
    cases message with
    | anything selector arguments =>
      have hother : selector ≠ .set := by simpa [Message.isSet] using hset
      exact congrArg some (if_neg hother).symm
    | _ => rfl

theorem answerMidi_eq_some (node : Node) (event : MidiEvent) :
    answerMidi node event = some (node.answerMidi event) := by
  cases node with
  | midiIn kind =>
    simp only [answerMidi, Node.answerMidi]
    split
    · cases event <;> rfl
    · rfl
  | _ => rfl

/-- No message on any inlet makes a fault. -/
theorem answer_eq_some {node : Node} (h : node.Bounded) (inlet : Nat) (message : Message) :
    answer node inlet message = some (node.answer inlet message) := by
  cases node with
  | messageBox pieces =>
    simp only [answer, answerPieces_eq_some]
    rfl
  | midiOut kind second third => exact answerMidiOut_eq_some kind second third inlet message
  | gui gui =>
    simp only [answer, answerGui_eq_some (h gui rfl)]
    rfl
  | _ => rfl

theorem argumentIndex_eq_some (word : String) :
    argumentIndex word = some (argumentIndex? word) := by
  unfold argumentIndex argumentIndex?
  rcases word.toList with _ | ⟨c, digits⟩
  · rfl
  · by_cases hdollar : c = '$'
    · subst hdollar
      cases hcount : readCountBelow sizeBound digits with
      | error problem => simp [hcount]
      | ok index => cases index <;> simp [hcount, sub]
    · simp [hdollar]

theorem pieceAtom_eq_some (atom : Atom) : pieceAtom atom = some (PieceAtom.ofAtom atom) := by
  cases atom with
  | symbol name =>
    rw [pieceAtom, argumentIndex_eq_some, Option.map_some]
    cases hindex : argumentIndex? name.name with
    | none => simp [PieceAtom.ofAtom, hindex]
    | some index => simp [PieceAtom.ofAtom, hindex]
  | _ => rfl

end Checked

end Patchbay
