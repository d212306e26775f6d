import Patchbay.Signal.Format
import Patchbay.Signal.Schedule

/-!
# Signal chains

A chain is a schedule made ready to run: a buffer for every signal port, for each
object the buffers to collect from before it runs, and the host channels of the
converters. The first connection into an inlet copies and the others add, so a
single connection passes samples on unchanged and several are summed in order.
The converters write to host outputs by the same rule.
-/

namespace Patchbay

/-- One audio sample. -/
abbrev Sample := Float32

/-- A row of samples. -/
abbrev Block := List Sample

/-- A block of zero samples. -/
def Block.silence (size : Nat) : Block := List.replicate size 0

/-- A transfer between buffers that runs before an object does. -/
structure Feed where
  source : Nat
  target : Nat
  copy : Bool
  deriving DecidableEq, Repr, Inhabited

/-- The host channel behind one port of a converter. -/
structure Route where
  /-- The channel, `none` if the format does not have it. -/
  channel : Option Nat
  /-- Whether the samples replace those in the host output. -/
  copy : Bool
  deriving DecidableEq, Repr, Inhabited

/-- One object in a chain. -/
structure ChainStep where
  vertex : Nat
  place : NodeRef
  inlets : List Nat
  outlets : List Nat
  feeds : List Feed := []
  routes : List Route := []
  deriving DecidableEq, Repr, Inhabited

/-- A prepared schedule. -/
structure Chain where
  blockSize : Nat := 0
  buffers : List Block := []
  steps : List ChainStep := []
  /-- For each host output, whether a converter writes to it. -/
  written : List Bool := []
  /-- The objects that fire after every block. -/
  ticks : List NodeRef := []
  /-- How many signal objects are left out. -/
  unscheduled : Nat := 0
  deriving DecidableEq

namespace Chain

/-! ## Buffers -/

/-- Give each scheduled vertex its buffers: inlets first, then outlets. -/
def layOut (graph : SignalGraph) : (next : Nat) → List Nat → List ChainStep
  | _, [] => []
  | next, vertex :: rest =>
    let ⟨place, inlets, outlets⟩ := graph.vertices.getD vertex default
    { vertex, place
      inlets := List.range' next inlets
      outlets := List.range' (next + inlets) outlets } ::
      layOut graph (next + inlets + outlets) rest

/-- How many buffers the objects of a chain have. -/
def bufferCount (steps : List ChainStep) : Nat :=
  steps.foldl (fun count step => count + step.inlets.length + step.outlets.length) 0

/-- The buffer of an outlet of a scheduled vertex. -/
def outletBuffer? (steps : List ChainStep) (vertex outlet : Nat) : Option Nat :=
  (steps.find? fun step => step.vertex == vertex).bind fun step => step.outlets[outlet]?

/-! ## Feeds -/

/-- The transfers into a step along edges that end at its vertex, in order; an
inlet that is not yet among `fed` is copied to. -/
def gather (steps : List ChainStep) (step : ChainStep) : (fed : List Nat) → List Edge → List Feed
  | _, [] => []
  | fed, edge :: rest =>
    match outletBuffer? steps edge.source edge.outlet, step.inlets[edge.inlet]? with
    | some source, some target =>
      { source, target, copy := !fed.contains target } :: gather steps step (target :: fed) rest
    | _, _ => gather steps step fed rest

/-- A step with the transfers into it. -/
def withFeeds (graph : SignalGraph) (steps : List ChainStep) (step : ChainStep) : ChainStep :=
  { step with
    feeds := gather steps step [] (graph.edges.filter fun edge => edge.target == step.vertex) }

/-! ## Routes -/

/-- The routes of an input converter. -/
def inputRoutes (inputs : Nat) (channels : List Nat) : List Route :=
  channels.map fun channel =>
    { channel := if channel < inputs then some channel else none, copy := true }

/-- The routes of an output converter, with the flags of the outputs written to
so far. -/
def outputRoutes : (written : List Bool) → List Nat → List Route × List Bool
  | written, [] => ([], written)
  | written, channel :: rest =>
    if channel < written.length then
      let (routes, final) := outputRoutes (written.set channel true) rest
      ({ channel := some channel, copy := !written.getD channel false } :: routes, final)
    else
      let (routes, final) := outputRoutes written rest
      ({ channel := none, copy := false } :: routes, final)

/-- The steps with their routes, and the flags of the outputs written to. -/
def withRoutes (slots : Slots) (inputs : Nat) :
    (written : List Bool) → List ChainStep → List ChainStep × List Bool
  | written, [] => ([], written)
  | written, step :: rest =>
    match slots.node? step.place with
    | some (.adc channels) =>
      let (steps, final) := withRoutes slots inputs written rest
      ({ step with routes := inputRoutes inputs channels } :: steps, final)
    | some (.dac channels) =>
      let (routes, written) := outputRoutes written channels
      let (steps, final) := withRoutes slots inputs written rest
      ({ step with routes } :: steps, final)
    | _ =>
      let (steps, final) := withRoutes slots inputs written rest
      (step :: steps, final)

/-! ## Building -/

/-- The chain of the open patches in a format. -/
def build (slots : Slots) (format : AudioFormat) : Chain :=
  let graph := SignalGraph.ofSlots slots
  let order := graph.schedule
  let steps := layOut graph 0 order
  let fed := steps.map (withFeeds graph steps)
  let (routed, written) :=
    withRoutes slots format.inputs (List.replicate format.outputs false) fed
  { blockSize := format.blockSize
    buffers := List.replicate (bufferCount steps) (Block.silence format.blockSize)
    steps := routed
    written
    ticks := (slots.nodes.filter fun entry => entry.2.isTick).map Prod.fst
    unscheduled := graph.vertices.length - order.length }

end Chain

end Patchbay
