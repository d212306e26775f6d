import Patchbay.Engine.Dispatch
import Patchbay.Signal.Perform

/-!
# The engine

An engine owns the open patches of one instance, the tables of their listeners
and, while it is prepared, a signal chain. Every operation gives the new engine
together with its effects on the outside, in order.
-/

namespace Patchbay

/-- The patches, dispatch stack and signal chain of one instance. -/
structure Engine where
  slots : Slots := []
  listeners : Listeners := {}
  stack : Array Emission := #[]
  depth : Nat := 0
  /-- The format the engine is prepared for, if it is. -/
  format : Option AudioFormat := none
  chain : Chain := {}

namespace Engine

/-! ## Messages -/

/-- Let the dispatcher work on the objects of an engine. -/
def dispatch (engine : Engine) (work : Dispatch → Dispatch) : Engine × List Effect :=
  let done := work { slots := engine.slots, stack := engine.stack, depth := engine.depth }
  ({ engine with slots := done.slots, stack := done.stack, depth := done.depth },
    done.effects.toList)

/-- A message from outside to a tie. -/
def send (engine : Engine) (tie : Tie) (message : Message) : Engine × List Effect :=
  engine.dispatch fun dispatch => dispatch.send engine.listeners tie message

/-- A MIDI event from outside. -/
def midi (engine : Engine) (event : MidiEvent) : Engine × List Effect :=
  engine.dispatch fun dispatch => dispatch.midi engine.listeners event

/-- The places of the objects that fire when a patch has been loaded. -/
def loadbangs (engine : Engine) (id : PatchId) : List NodeRef :=
  match engine.slots.patch? id with
  | some patch =>
    (patch.objects.zipIdx.filter fun (object, _) => object.node.isLoadbang).map
      fun (_, index) => { slot := id.slot, object := index }
  | none => []

/-- Bang every object of a patch that fires on loading. -/
def loadbang (engine : Engine) (id : PatchId) : Engine × List Effect :=
  engine.dispatch fun dispatch => dispatch.bangAll engine.listeners (engine.loadbangs id)

/-! ## The signal chain -/

/-- What is told about a chain that has just been built. -/
def chainEffects (chain : Chain) : List Effect :=
  let left := chain.unscheduled
  let steps := chain.steps.length
  let blockSize := chain.blockSize
  (if 0 < left then
    [.post .error s!"DSP loop detected ({left} objects not scheduled)"]
  else []) ++
    [.log .debug s!"DSP chain rebuilt: {steps} steps, block size {blockSize}"]

/-- Bring the chain up to date with the patches, if the engine is prepared. -/
def rebuildChain (engine : Engine) : Engine × List Effect :=
  match engine.format with
  | some format =>
    let chain := Chain.build engine.slots format
    ({ engine with chain }, chainEffects chain)
  | none => ({ engine with chain := {} }, [])

/-- Prepare for a format. -/
def prepare (engine : Engine) (format : AudioFormat) : Engine × List Effect :=
  { engine with format := some format }.rebuildChain

/-- Stop being prepared. -/
def release (engine : Engine) : Engine := { engine with format := none, chain := {} }

/-- Run one block, then bang everything that fires after a block. -/
def perform (engine : Engine) (size : Nat) (inputs outputs : List Block) :
    Engine × List Block × List Effect :=
  let (chain, outputs) := engine.chain.perform engine.slots size inputs outputs
  let (engine, effects) :=
    { engine with chain }.dispatch fun dispatch =>
      dispatch.bangAll engine.listeners engine.chain.ticks
  (engine, outputs, effects)

/-! ## Patches -/

/-- Replace the slots and bring the listeners up to date. -/
def withSlots (engine : Engine) (slots : Slots) : Engine :=
  { engine with slots, listeners := Listeners.ofSlots slots }

/-- Open a patch. -/
def insert (engine : Engine) (patch : Patch) : Engine × PatchId :=
  let (slots, id) := engine.slots.insert patch
  (engine.withSlots slots, id)

/-- Close the patch a handle stands for. -/
def remove? (engine : Engine) (id : PatchId) : Option (Patch × Engine) :=
  (engine.slots.remove? id).map fun (patch, slots) => (patch, engine.withSlots slots)

end Engine

end Patchbay
