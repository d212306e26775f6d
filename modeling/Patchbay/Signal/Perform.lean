import Patchbay.Signal.Chain

/-!
# Running a block

A block of audio goes through the steps of a chain in order. Before an object
runs, its inlet buffers collect from the outlets that feed them. Host outputs
that no converter writes to are silenced first.
-/

namespace Patchbay

/-- The internal buffers and the host outputs while a block is running. -/
structure BlockState where
  buffers : List Block
  outputs : List Block
  deriving DecidableEq

namespace BlockState

/-- The content of a buffer. -/
def buffer (state : BlockState) (index : Nat) : Block := state.buffers.getD index []

/-- Replace the content of a buffer. -/
def setBuffer (state : BlockState) (index : Nat) (block : Block) : BlockState :=
  { state with buffers := state.buffers.set index block }

/-- Carry out a transfer between buffers. -/
def feed (state : BlockState) (feed : Feed) : BlockState :=
  let block := state.buffer feed.source
  state.setBuffer feed.target <|
    if feed.copy then block else List.zipWith (· + ·) (state.buffer feed.target) block

/-- Fill an outlet of an input converter from the host. -/
def readInput (size : Nat) (inputs : List Block) (state : BlockState) (route : Route)
    (outlet : Nat) : BlockState :=
  match route.channel.bind fun channel => inputs[channel]? with
  | some input => state.setBuffer outlet (input.take size)
  | none => state.setBuffer outlet (Block.silence size)

/-- Pass an inlet of an output converter to the host; samples past the block
stay as they are. -/
def writeOutput (size : Nat) (state : BlockState) (route : Route) (inlet : Nat) : BlockState :=
  match route.channel with
  | some channel =>
    match state.outputs[channel]? with
    | some output =>
      let block := state.buffer inlet
      let block :=
        if route.copy then block else List.zipWith (· + ·) (output.take size) block
      { state with outputs := state.outputs.set channel (block ++ output.drop size) }
    | none => state
  | none => state

/-- Run one object for a block. -/
def runNode (size : Nat) (inputs : List Block) (state : BlockState) (step : ChainStep) :
    Node → BlockState
  | .adc _ =>
    (step.routes.zip step.outlets).foldl
      (fun state (route, outlet) => state.readInput size inputs route outlet) state
  | .dac _ =>
    (step.routes.zip step.inlets).foldl
      (fun state (route, inlet) => state.writeOutput size route inlet) state
  | .arithmetic operation (some right) =>
    match step.inlets, step.outlets with
    | left :: _, outlet :: _ =>
      state.setBuffer outlet ((state.buffer left).map fun sample => operation.apply sample right)
    | _, _ => state
  | .arithmetic operation none =>
    match step.inlets, step.outlets with
    | left :: right :: _, outlet :: _ =>
      state.setBuffer outlet
        (List.zipWith operation.apply (state.buffer left) (state.buffer right))
    | _, _ => state
  | .constant value =>
    match step.outlets with
    | outlet :: _ => state.setBuffer outlet (List.replicate size value)
    | [] => state
  | _ => state

/-- Run one step of a chain: collect, then run the object. -/
def runStep (slots : Slots) (size : Nat) (inputs : List Block) (state : BlockState)
    (step : ChainStep) : BlockState :=
  let state := step.feeds.foldl BlockState.feed state
  match slots.node? step.place with
  | some node => state.runNode size inputs step node
  | none => state

end BlockState

namespace Chain

/-- Silence the first `size` samples of the outputs that nothing writes to. -/
def silenceUnwritten (written : List Bool) (size : Nat) (outputs : List Block) : List Block :=
  outputs.zipIdx.map fun (output, channel) =>
    if written.getD channel false then output else Block.silence size ++ output.drop size

/-- Run a block of `size` samples. The result is the chain with its new buffers,
and the host outputs. -/
def perform (chain : Chain) (slots : Slots) (size : Nat) (inputs outputs : List Block) :
    Chain × List Block :=
  let start : BlockState :=
    { buffers := chain.buffers, outputs := silenceUnwritten chain.written size outputs }
  let final := chain.steps.foldl (BlockState.runStep slots size inputs) start
  ({ chain with buffers := final.buffers }, final.outputs)

end Chain

end Patchbay
