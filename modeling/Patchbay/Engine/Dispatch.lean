import Patchbay.Engine.Listeners
import Patchbay.Host.Hooks

/-!
# Message dispatch

Messages travel depth first. An object puts its emissions on a stack shared by
all deliveries under way, and each delivery carries out exactly the entries above
the height it found, then cuts the stack back to that height. Deliveries nest at
most `maxDepth` deep; one more is dropped with a post, which cuts every feedback
loop.

## Implementation notes

`deliver` takes the remaining nesting as an argument to recur on. It starts at
`maxDepth` with `depth` zero, so the argument never runs out before the check on
`depth` does. The work on one stack frame is a function of the delivery it hands
messages to, which keeps the recursion in one place.
-/

namespace Patchbay

/-- How deep deliveries may nest. -/
def maxDepth : Nat := 512

/-- A dispatch under way. -/
structure Dispatch where
  slots : Slots
  stack : Array Emission := #[]
  /-- How many deliveries are nested. -/
  depth : Nat := 0
  effects : Array Effect := #[]

/-- A way to hand a message to an inlet of an object. -/
abbrev Delivery := Dispatch → NodeRef → Nat → Message → Dispatch

namespace Dispatch

/-- Do something to the outside. -/
def perform (dispatch : Dispatch) (effect : Effect) : Dispatch :=
  { dispatch with effects := dispatch.effects.push effect }

/-- Put emissions on the stack. -/
def push (dispatch : Dispatch) (emissions : List Emission) : Dispatch :=
  { dispatch with stack := dispatch.stack ++ emissions.toArray }

/-- Let an object answer a message; its emissions go on the stack. -/
def answer (dispatch : Dispatch) (target : NodeRef) (inlet : Nat) (message : Message) :
    Dispatch :=
  match dispatch.slots.node? target with
  | some node =>
    let (node, emissions) := node.answer inlet message
    { dispatch with slots := dispatch.slots.setNode target node }.push emissions
  | none => dispatch

/-- Deliver a message to every target of an outlet, in connection order. -/
def fanOut (deliver : Delivery) (dispatch : Dispatch) (source : NodeRef) (outlet : Nat)
    (message : Message) : Dispatch :=
  (dispatch.slots.targets source outlet).foldl
    (fun dispatch (object, inlet) =>
      deliver dispatch { slot := source.slot, object } inlet message) dispatch

/-- Deliver a message to every listener of a tie, then to the host. -/
def sendTo (listeners : Listeners) (deliver : Delivery) (dispatch : Dispatch) (tie : Tie)
    (message : Message) : Dispatch :=
  ((listeners.listening tie).foldl (fun dispatch target => deliver dispatch target 0 message)
    dispatch).perform (.message tie message)

/-- Carry out one emission of `source`. -/
def carryOut (listeners : Listeners) (deliver : Delivery) (source : NodeRef)
    (dispatch : Dispatch) : Emission → Dispatch
  | .outlet outlet message => fanOut deliver dispatch source outlet message
  | .send tie message => sendTo listeners deliver dispatch tie message
  | .post level text => dispatch.perform (.post level text)
  | .midi event => dispatch.perform (.midi event)
  | .done => dispatch

/-- Carry out `count` stack entries of `source` from a position on. -/
def drain (listeners : Listeners) (deliver : Delivery) (source : NodeRef) :
    (count position : Nat) → Dispatch → Dispatch
  | 0, _, dispatch => dispatch
  | count + 1, position, dispatch =>
    match dispatch.stack[position]? with
    | some emission =>
      let dispatch := { dispatch with stack := dispatch.stack.setIfInBounds position .done }
      drain listeners deliver source count (position + 1)
        (carryOut listeners deliver source dispatch emission)
    | none => dispatch

/-- Carry out the stack entries of `source` above a height, then cut back to it. -/
def flush (listeners : Listeners) (deliver : Delivery) (source : NodeRef) (height : Nat)
    (dispatch : Dispatch) : Dispatch :=
  let dispatch :=
    drain listeners deliver source (dispatch.stack.size - height) height dispatch
  { dispatch with stack := dispatch.stack.take height }

/-- Deliver a message to an inlet and carry out all that follows from it. -/
def deliver (listeners : Listeners) (room : Nat) (dispatch : Dispatch) (target : NodeRef)
    (inlet : Nat) (message : Message) : Dispatch :=
  if maxDepth ≤ dispatch.depth then dispatch.perform (.post .error "stack overflow")
  else match room with
    | 0 => dispatch
    | room + 1 =>
      let height := dispatch.stack.size
      let dispatch :=
        { dispatch with depth := dispatch.depth + 1 }.answer target inlet message
      let dispatch := flush listeners (deliver listeners room) target height dispatch
      { dispatch with depth := dispatch.depth - 1 }

/-- A message from outside to a tie. -/
def send (listeners : Listeners) (dispatch : Dispatch) (tie : Tie) (message : Message) :
    Dispatch :=
  sendTo listeners (deliver listeners maxDepth) dispatch tie message

/-- Carry out emissions that an object makes of its own accord. -/
def fire (listeners : Listeners) (dispatch : Dispatch) (source : NodeRef)
    (emissions : List Emission) : Dispatch :=
  flush listeners (deliver listeners maxDepth) source dispatch.stack.size
    (dispatch.push emissions)

/-- A MIDI event from outside, which every MIDI input answers. -/
def midi (listeners : Listeners) (dispatch : Dispatch) (event : MidiEvent) : Dispatch :=
  listeners.toMidi.foldl (fun dispatch place =>
    match dispatch.slots.node? place with
    | some node => fire listeners dispatch place (node.answerMidi event)
    | none => dispatch) dispatch

/-- Bang out of the first outlet of each place, in order. -/
def bangAll (listeners : Listeners) (dispatch : Dispatch) (places : List NodeRef) : Dispatch :=
  places.foldl (fun dispatch place => fire listeners dispatch place [.outlet 0 .bang]) dispatch

end Dispatch

end Patchbay
