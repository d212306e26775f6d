import Patchbay.Engine.Engine
import Patchbay.Numbered.Patch

/-!
# Engines of numbers

The open patches, the tables of listeners and the dispatcher as a process has them. Ties lead
to listeners by their numbers. Signal chains have nothing to do with names: they are built
from the open patches with all names left out.
-/

namespace Patchbay.Numbered

/-! ## Patch slots -/

/-- A place for a patch, with the generation of its latest use. -/
structure Slot where
  generation : UInt32 := 0
  patch : Option Patch := none
  deriving DecidableEq, Inhabited

/-- The patch slots of an engine. -/
abbrev Slots := List Slot

namespace Slots

/-- The patch in a slot, whatever its generation. -/
def patchAt (slots : Slots) (slot : Nat) : Option Patch := slots[slot]?.bind Slot.patch

/-- The patch a handle stands for, `none` once it has been closed. -/
def patch? (slots : Slots) (id : PatchId) : Option Patch :=
  match slots[id.slot]? with
  | some slot => if slot.generation = id.generation then slot.patch else none
  | none => none

/-- The node at a place. -/
def node? (slots : Slots) (place : NodeRef) : Option Node :=
  (slots.patchAt place.slot).bind fun patch => patch.node? place.object

/-- Replace the node at a place. -/
def setNode (slots : Slots) (place : NodeRef) (node : Node) : Slots :=
  slots.modify place.slot fun slot =>
    { slot with patch := slot.patch.map fun patch => patch.setNode place.object node }

/-- The targets of an outlet, in connection order. -/
def targets (slots : Slots) (place : NodeRef) (outlet : Nat) : List (Nat × Nat) :=
  match slots.patchAt place.slot with
  | some patch => patch.wiring.targets place.object outlet
  | none => []

/-- The lowest slot without a patch, the next new slot if all are in use. -/
def freeSlot (slots : Slots) : Nat :=
  (slots.findIdx? fun slot => slot.patch.isNone).getD slots.length

/-- Put a patch into the lowest free slot, under a new generation. -/
def insert (slots : Slots) (patch : Patch) : Slots × PatchId :=
  let index := slots.freeSlot
  let generation := (slots.getD index {}).generation + 1
  let slot : Slot := { generation, patch := some patch }
  (if index < slots.length then slots.set index slot else slots ++ [slot],
    { slot := index, generation })

/-- Take the patch of a handle out of its slot. -/
def remove? (slots : Slots) (id : PatchId) : Option (Patch × Slots) :=
  (slots.patch? id).map fun patch =>
    (patch, slots.modify id.slot fun slot => { slot with patch := none })

/-- The open patches with their handles, in slot order. -/
def patches (slots : Slots) : List (PatchId × Patch) :=
  slots.zipIdx.filterMap fun (slot, index) =>
    slot.patch.map fun patch => ({ slot := index, generation := slot.generation }, patch)

/-- All objects of the open patches, in slot and object order. -/
def nodes (slots : Slots) : List (NodeRef × Node) :=
  slots.patches.flatMap fun (id, patch) =>
    patch.objects.zipIdx.map fun (object, index) =>
      ({ slot := id.slot, object := index }, object.node)

end Slots

/-! ## The part without names -/

/-- An object of the kinds that have no names; the others do nothing. -/
def Node.nameless : Node → Patchbay.Node
  | .loadbang => .loadbang
  | .tick => .tick
  | .number value => .number value
  | .midiIn kind => .midiIn kind
  | .midiOut kind second third => .midiOut kind second third
  | .adc channels => .adc channels
  | .dac channels => .dac channels
  | .arithmetic operation right => .arithmetic operation right
  | .constant value => .constant value
  | _ => .inert

/-- A box without its name. -/
def PatchObject.nameless (object : PatchObject) : Patchbay.PatchObject :=
  { name := .empty, text := object.text, bounds := object.bounds, node := object.node.nameless }

/-- A patch with the names of its objects left out. -/
def Patch.nameless (patch : Patch) : Patchbay.Patch :=
  { name := patch.name, path := patch.path, dollarZero := patch.dollarZero, x := patch.x
    y := patch.y, width := patch.width, height := patch.height, fontSize := patch.fontSize
    objects := patch.objects.map PatchObject.nameless
    connections := patch.connections, wiring := patch.wiring }

/-- The patch slots with the names of objects left out. -/
def Slots.nameless (slots : Slots) : Patchbay.Slots :=
  slots.map fun slot =>
    { generation := slot.generation, patch := slot.patch.map Patch.nameless }

/-! ## Who listens to what -/

/-- The listening objects of the open patches, in slot and object order. -/
structure Listeners where
  atTies : List (Tie × NodeRef) := []
  toMidi : List NodeRef := []
  deriving DecidableEq, Repr

namespace Listeners

/-- The listening objects of the given patches. -/
def ofSlots (slots : Slots) : Listeners where
  atTies := slots.nodes.filterMap fun (place, node) => node.listensAt.map fun tie => (tie, place)
  toMidi := (slots.nodes.filter fun entry => entry.2.isMidiIn).map Prod.fst

/-- The objects that listen at a tie. -/
def listening (listeners : Listeners) (tie : Tie) : List NodeRef :=
  (listeners.atTies.filter fun entry => entry.1 == tie).map Prod.snd

end Listeners

/-! ## Effects -/

/-- Something an engine does to the world outside it. -/
inductive Effect where
  | post (level : ConsoleLevel) (text : String)
  | midi (event : MidiEvent)
  | message (tie : Tie) (message : Message)
  | log (level : LogLevel) (text : String)
  deriving DecidableEq

/-! ## Dispatch -/

/-- A dispatch under way. -/
structure Dispatch where
  slots : Slots
  stack : Array Emission := #[]
  depth : Nat := 0
  effects : Array Effect := #[]

/-- A way to hand a message to an inlet of an object. -/
abbrev Delivery := Dispatch → NodeRef → Nat → Message → Numbering Dispatch

namespace Dispatch

/-- Do something to the outside. -/
def perform (dispatch : Dispatch) (effect : Effect) : Dispatch :=
  { dispatch with effects := dispatch.effects.push effect }

/-- Put emissions on the stack. -/
def push (dispatch : Dispatch) (emissions : List Emission) : Dispatch :=
  { dispatch with stack := dispatch.stack ++ emissions.toArray }

/-- Let an object answer a message; its emissions go on the stack. -/
def answer (dispatch : Dispatch) (target : NodeRef) (inlet : Nat) (message : Message) :
    Numbering Dispatch :=
  match dispatch.slots.node? target with
  | some node => do
    let (node, emissions) ← node.answer inlet message
    return { dispatch with slots := dispatch.slots.setNode target node }.push emissions
  | none => return dispatch

/-- Deliver a message to every target of an outlet, in connection order. -/
def fanOut (deliver : Delivery) (dispatch : Dispatch) (source : NodeRef) (outlet : Nat)
    (message : Message) : Numbering Dispatch :=
  (dispatch.slots.targets source outlet).foldlM
    (fun dispatch (object, inlet) =>
      deliver dispatch { slot := source.slot, object } inlet message) dispatch

/-- Deliver a message to every listener of a tie, then to the host. -/
def sendTo (listeners : Listeners) (deliver : Delivery) (dispatch : Dispatch) (tie : Tie)
    (message : Message) : Numbering Dispatch := do
  let dispatch ← (listeners.listening tie).foldlM
    (fun dispatch target => deliver dispatch target 0 message) dispatch
  return dispatch.perform (.message tie message)

/-- Carry out one emission of `source`. -/
def carryOut (listeners : Listeners) (deliver : Delivery) (source : NodeRef)
    (dispatch : Dispatch) : Emission → Numbering Dispatch
  | .outlet outlet message => fanOut deliver dispatch source outlet message
  | .send tie message => sendTo listeners deliver dispatch tie message
  | .post level text => return dispatch.perform (.post level text)
  | .midi event => return dispatch.perform (.midi event)
  | .done => return dispatch

/-- Carry out `count` stack entries of `source` from a position on. -/
def drain (listeners : Listeners) (deliver : Delivery) (source : NodeRef) :
    (count position : Nat) → Dispatch → Numbering Dispatch
  | 0, _, dispatch => return dispatch
  | count + 1, position, dispatch =>
    match dispatch.stack[position]? with
    | some emission => do
      let dispatch := { dispatch with stack := dispatch.stack.setIfInBounds position .done }
      let dispatch ← carryOut listeners deliver source dispatch emission
      drain listeners deliver source count (position + 1) dispatch
    | none => return dispatch

/-- Carry out the stack entries of `source` above a height, then cut back to it. -/
def flush (listeners : Listeners) (deliver : Delivery) (source : NodeRef) (height : Nat)
    (dispatch : Dispatch) : Numbering Dispatch := do
  let dispatch ← drain listeners deliver source (dispatch.stack.size - height) height dispatch
  return { dispatch with stack := dispatch.stack.take height }

/-- Deliver a message to an inlet and carry out all that follows from it. -/
def deliver (listeners : Listeners) (room : Nat) (dispatch : Dispatch) (target : NodeRef)
    (inlet : Nat) (message : Message) : Numbering Dispatch :=
  if maxDepth ≤ dispatch.depth then return dispatch.perform (.post .error "stack overflow")
  else match room with
    | 0 => return dispatch
    | room + 1 => do
      let height := dispatch.stack.size
      let dispatch ← { dispatch with depth := dispatch.depth + 1 }.answer target inlet message
      let dispatch ← flush listeners (deliver listeners room) target height dispatch
      return { dispatch with depth := dispatch.depth - 1 }

/-- A message from outside to a tie. -/
def send (listeners : Listeners) (dispatch : Dispatch) (tie : Tie) (message : Message) :
    Numbering Dispatch :=
  sendTo listeners (deliver listeners maxDepth) dispatch tie message

/-- Carry out emissions that an object makes of its own accord. -/
def fire (listeners : Listeners) (dispatch : Dispatch) (source : NodeRef)
    (emissions : List Emission) : Numbering Dispatch :=
  flush listeners (deliver listeners maxDepth) source dispatch.stack.size
    (dispatch.push emissions)

/-- A MIDI event from outside, which every MIDI input answers. -/
def midi (listeners : Listeners) (dispatch : Dispatch) (event : MidiEvent) :
    Numbering Dispatch :=
  listeners.toMidi.foldlM (fun dispatch place =>
    match dispatch.slots.node? place with
    | some node => fire listeners dispatch place (node.answerMidi event)
    | none => return dispatch) dispatch

/-- Bang out of the first outlet of each place, in order. -/
def bangAll (listeners : Listeners) (dispatch : Dispatch) (places : List NodeRef) :
    Numbering Dispatch :=
  places.foldlM (fun dispatch place => fire listeners dispatch place [.outlet 0 .bang]) dispatch

end Dispatch

/-! ## The engine -/

/-- The patches, dispatch stack and signal chain of one instance. -/
structure Engine where
  slots : Slots := []
  listeners : Listeners := {}
  stack : Array Emission := #[]
  depth : Nat := 0
  format : Option AudioFormat := none
  chain : Chain := {}

namespace Engine

/-- Let the dispatcher work on the objects of an engine. -/
def dispatch (engine : Engine) (work : Dispatch → Numbering Dispatch) :
    Numbering (Engine × List Effect) := do
  let done ← work { slots := engine.slots, stack := engine.stack, depth := engine.depth }
  return ({ engine with slots := done.slots, stack := done.stack, depth := done.depth },
    done.effects.toList)

/-- A message from outside to a tie. -/
def send (engine : Engine) (tie : Tie) (message : Message) : Numbering (Engine × List Effect) :=
  engine.dispatch fun dispatch => dispatch.send engine.listeners tie message

/-- A MIDI event from outside. -/
def midi (engine : Engine) (event : MidiEvent) : Numbering (Engine × List Effect) :=
  engine.dispatch fun dispatch => dispatch.midi engine.listeners event

/-- The places of the objects that fire when a patch has been loaded. -/
def loadbangs (engine : Engine) (id : PatchId) : List NodeRef :=
  match engine.slots.patch? id with
  | some patch =>
    (patch.objects.zipIdx.filter fun (object, _) => object.node.isLoadbang).map
      fun (_, index) => { slot := id.slot, object := index }
  | none => []

/-- Bang every object of a patch that fires on loading. -/
def loadbang (engine : Engine) (id : PatchId) : Numbering (Engine × List Effect) :=
  engine.dispatch fun dispatch => dispatch.bangAll engine.listeners (engine.loadbangs id)

/-- What is told about a chain that has just been built. -/
def chainEffects (chain : Chain) : List Effect :=
  let left := chain.unscheduled
  let steps := chain.steps.length
  let blockSize := chain.blockSize
  (if 0 < left then
    [.post .error s!"DSP loop detected ({left} objects not scheduled)"]
  else []) ++
    [.log .debug s!"DSP chain rebuilt: {steps} steps, block size {blockSize}"]

/-- Bring the chain up to date with the patches, if the engine is prepared. -/
def rebuildChain (engine : Engine) : Engine × List Effect :=
  match engine.format with
  | some format =>
    let chain := Chain.build engine.slots.nameless format
    ({ engine with chain }, chainEffects chain)
  | none => ({ engine with chain := {} }, [])

/-- Prepare for a format. -/
def prepare (engine : Engine) (format : AudioFormat) : Engine × List Effect :=
  { engine with format := some format }.rebuildChain

/-- Stop being prepared. -/
def release (engine : Engine) : Engine := { engine with format := none, chain := {} }

/-- Run one block, then bang everything that fires after a block. -/
def perform (engine : Engine) (size : Nat) (inputs outputs : List Block) :
    Numbering (Engine × List Block × List Effect) := do
  let (chain, outputs) := engine.chain.perform engine.slots.nameless size inputs outputs
  let (engine, effects) ←
    { engine with chain }.dispatch fun dispatch =>
      dispatch.bangAll engine.listeners engine.chain.ticks
  return (engine, outputs, effects)

/-- Replace the slots and bring the listeners up to date. -/
def withSlots (engine : Engine) (slots : Slots) : Engine :=
  { engine with slots, listeners := Listeners.ofSlots slots }

/-- Open a patch. -/
def insert (engine : Engine) (patch : Patch) : Engine × PatchId :=
  let (slots, id) := engine.slots.insert patch
  (engine.withSlots slots, id)

/-- Close the patch a handle stands for. -/
def remove? (engine : Engine) (id : PatchId) : Option (Patch × Engine) :=
  (engine.slots.remove? id).map fun (patch, slots) => (patch, engine.withSlots slots)

end Engine

end Patchbay.Numbered
