import Patchbay.Numbered.Rack

/-!
# What numbers stand for

The state of a process and what it does, with names in place of the numbers. How numbers are
read is a parameter; a process reads them by its tables, where a number that has not been given
out stands for the empty name.
-/

namespace Patchbay.Numbered

/-- A way to read numbers as names. -/
structure Reading where
  symbol : Symbol → Patchbay.Symbol
  tie : Tie → Patchbay.Tie

/-- Numbers read by tables. -/
def Tables.reading (tables : Tables) : Reading where
  symbol s := ⟨s.name tables⟩
  tie t := ⟨t.name tables⟩

/-- What has numbers in it can be told by names. -/
class Named (α : Type) (β : outParam Type) where
  named : Reading → α → β

export Named (named)

section
variable {α β γ δ : Type} [Named α β] [Named γ δ]

instance : Named (List α) (List β) := ⟨fun reading => List.map (named reading)⟩

instance : Named (Array α) (Array β) := ⟨fun reading => Array.map (named reading)⟩

instance : Named (Option α) (Option β) := ⟨fun reading => Option.map (named reading)⟩

instance : Named (α × γ) (β × δ) := ⟨fun reading => Prod.map (named reading) (named reading)⟩

end

/-! ## Things without names -/

instance : Named Bool Bool := ⟨fun _ value => value⟩

instance : Named NodeRef NodeRef := ⟨fun _ place => place⟩

instance : Named PatchId PatchId := ⟨fun _ id => id⟩

instance : Named MessageSink MessageSink := ⟨fun _ sink => sink⟩

instance : Named Environment Environment := ⟨fun _ environment => environment⟩

instance : Named Block Block := ⟨fun _ block => block⟩

instance : Named String String := ⟨fun _ text => text⟩

/-! ## Names and messages -/

instance : Named Symbol Patchbay.Symbol := ⟨Reading.symbol⟩

instance : Named Tie Patchbay.Tie := ⟨Reading.tie⟩

/-- An atom by name. -/
def Atom.named (reading : Reading) : Atom → Patchbay.Atom
  | .empty => .empty
  | .float value => .float value
  | .symbol value => .symbol (Numbered.named reading value)
  | .pointer address => .pointer address

instance : Named Atom Patchbay.Atom := ⟨Atom.named⟩

/-- A message by name. -/
def Message.named (reading : Reading) : Message → Patchbay.Message
  | .bang => .bang
  | .float value => .float value
  | .symbol value => .symbol (Numbered.named reading value)
  | .pointer address => .pointer address
  | .list atoms => .list (Numbered.named reading atoms)
  | .anything selector arguments =>
    .anything (Numbered.named reading selector) (Numbered.named reading arguments)

instance : Named Message Patchbay.Message := ⟨Message.named⟩

/-! ## Objects -/

/-- An emission by name. -/
def Emission.named (reading : Reading) : Emission → Patchbay.Emission
  | .outlet index message => .outlet index (Numbered.named reading message)
  | .send tie message => .send (Numbered.named reading tie) (Numbered.named reading message)
  | .post level text => .post level text
  | .midi event => .midi event
  | .done => .done

instance : Named Emission Patchbay.Emission := ⟨Emission.named⟩

/-- An atom of a message box by name. -/
def PieceAtom.named (reading : Reading) : PieceAtom → Patchbay.PieceAtom
  | .literal atom => .literal (Numbered.named reading atom)
  | .argument index => .argument index

instance : Named PieceAtom Patchbay.PieceAtom := ⟨PieceAtom.named⟩

instance : Named Piece Patchbay.Piece where
  named reading piece :=
    { target := named reading piece.target, atoms := named reading piece.atoms }

instance : Named PieceReader Patchbay.PieceReader where
  named reading reader :=
    { pieces := named reading reader.pieces, current := named reading reader.current
      awaitsTarget := reader.awaitsTarget }

instance : Named Gui Patchbay.Gui where
  named reading gui :=
    { gui.body with
      label := named reading gui.label, send := named reading gui.send
      receive := named reading gui.receive }

/-- A node by name. -/
def Node.named (reading : Reading) : Node → Patchbay.Node
  | .inert => .inert
  | .receive tie => .receive (Numbered.named reading tie)
  | .send tie => .send (Numbered.named reading tie)
  | .print label => .print label
  | .loadbang => .loadbang
  | .tick => .tick
  | .messageBox pieces => .messageBox (Numbered.named reading pieces)
  | .number value => .number value
  | .midiIn kind => .midiIn kind
  | .midiOut kind second third => .midiOut kind second third
  | .adc channels => .adc channels
  | .dac channels => .dac channels
  | .arithmetic operation right => .arithmetic operation right
  | .constant value => .constant value
  | .gui state => .gui (Numbered.named reading state)

instance : Named Node Patchbay.Node := ⟨Node.named⟩

/-! ## Patches -/

instance : Named PatchObject Patchbay.PatchObject where
  named reading object :=
    { name := named reading object.name, text := object.text, bounds := object.bounds
      node := named reading object.node }

instance : Named Patch Patchbay.Patch where
  named reading patch :=
    { name := patch.name, path := patch.path, dollarZero := patch.dollarZero, x := patch.x
      y := patch.y, width := patch.width, height := patch.height, fontSize := patch.fontSize
      objects := named reading patch.objects, connections := patch.connections
      wiring := patch.wiring }

instance : Named PatchReader Patchbay.PatchReader where
  named reading reader :=
    { depth := reader.depth, objects := named reading reader.objects, pending := reader.pending
      diagnostics := reader.diagnostics }

instance : Named Slot Patchbay.Slot where
  named reading slot := { generation := slot.generation, patch := named reading slot.patch }

/-! ## Engines -/

instance : Named Listeners Patchbay.Listeners where
  named reading listeners :=
    { atTies := named reading listeners.atTies, toMidi := listeners.toMidi }

/-- An effect by name. -/
def Effect.named (reading : Reading) : Effect → Patchbay.Effect
  | .post level text => .post level text
  | .midi event => .midi event
  | .message tie sent => .message (Numbered.named reading tie) (Numbered.named reading sent)
  | .log level text => .log level text

instance : Named Effect Patchbay.Effect := ⟨Effect.named⟩

instance : Named Dispatch Patchbay.Dispatch where
  named reading dispatch :=
    { slots := named reading dispatch.slots, stack := named reading dispatch.stack
      depth := dispatch.depth, effects := named reading dispatch.effects }

instance : Named Engine Patchbay.Engine where
  named reading engine :=
    { slots := named reading engine.slots, listeners := named reading engine.listeners
      stack := named reading engine.stack, depth := engine.depth, format := engine.format
      chain := engine.chain }

/-! ## Hosts -/

/-- A call by name. -/
def Call.named (reading : Reading) : Call → Patchbay.Call
  | .plain call => call
  | .message label tie sent =>
    .message label (Numbered.named reading tie) (Numbered.named reading sent)
  | .kindMessage label tie sent =>
    .kindMessage label (Numbered.named reading tie) (Numbered.named reading sent)

instance : Named Call Patchbay.Call := ⟨Call.named⟩

instance : Named Hooks Patchbay.Hooks where
  named reading hooks :=
    { console := hooks.console, midi := hooks.midi, bindings := named reading hooks.bindings }

/-- A command by name. -/
def Command.named (reading : Reading) : Command → Patchbay.Command
  | .send tie message => .send (Numbered.named reading tie) (Numbered.named reading message)
  | .midi event => .midi event

instance : Named Command Patchbay.Command := ⟨Command.named⟩

instance : Named CommandQueue Patchbay.CommandQueue where
  named reading queue :=
    { capacity := queue.capacity, pending := named reading queue.pending
      abandoned := queue.abandoned }

instance : Named Instance Patchbay.Instance where
  named reading inst :=
    { id := inst.id, engine := named reading inst.engine, hooks := named reading inst.hooks
      queue := inst.queue, extension := inst.extension, sampleRate := inst.sampleRate }

instance : Named SharedInstance Patchbay.SharedInstance where
  named reading shared := { inst := named reading shared.inst, handles := shared.handles }

instance : Named Rack Patchbay.Rack where
  named reading rack :=
    { environment := rack.environment, instances := named reading rack.instances
      current := rack.current, queues := named reading rack.queues, histories := rack.histories }

instance {State State' Value : Type} [Named State State'] :
    Named (Outcome State Value) (Patchbay.Outcome State' Value) where
  named reading done :=
    { state := named reading done.state, calls := named reading done.calls, result := done.result }

instance {α β : Type} [Named α β] : Named (Except Failure α) (Except Failure β) where
  named reading := Except.map (named reading)

end Patchbay.Numbered
