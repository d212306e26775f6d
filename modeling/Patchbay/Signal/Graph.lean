import Patchbay.Engine.Slots

/-!
# The signal graph

The vertices are the signal objects of the open patches, and the edges are the
connections between signal ports. Vertices are numbered in slot and object order,
edges stand in connection order, and a connection made twice is two edges.
-/

namespace Patchbay

/-- A signal object with its numbers of signal ports. -/
structure Vertex where
  place : NodeRef
  inlets : Nat
  outlets : Nat
  deriving DecidableEq, Repr, Inhabited

/-- A signal connection; source and target are numbers of vertices. -/
structure Edge where
  source : Nat
  outlet : Nat
  target : Nat
  inlet : Nat
  deriving DecidableEq, Repr, Inhabited

/-- A signal graph. -/
structure SignalGraph where
  vertices : List Vertex
  edges : List Edge
  deriving DecidableEq, Repr

namespace SignalGraph

/-- The signal objects of the open patches. -/
def verticesOf (slots : Slots) : List Vertex :=
  slots.nodes.filterMap fun (place, node) =>
    if node.isSignal then
      some { place, inlets := node.signalPorts.1, outlets := node.signalPorts.2 }
    else none

/-- The number and ports of the vertex at a place. -/
def vertexAt? (vertices : List Vertex) (place : NodeRef) : Option (Nat × Vertex) :=
  (vertices.zipIdx.find? fun entry => entry.1.place == place).map fun entry =>
    (entry.2, entry.1)

/-- The edge a connection of the patch in `slot` makes, if it joins signal ports. -/
def edgeOf? (vertices : List Vertex) (slot : Nat) (connection : Connection) : Option Edge :=
  match vertexAt? vertices { slot, object := connection.source },
      vertexAt? vertices { slot, object := connection.target } with
  | some (source, tail), some (target, head) =>
    if connection.outlet < tail.outlets ∧ connection.inlet < head.inlets then
      some { source, outlet := connection.outlet, target, inlet := connection.inlet }
    else none
  | _, _ => none

/-- The signal graph of the open patches. -/
def ofSlots (slots : Slots) : SignalGraph :=
  let vertices := verticesOf slots
  { vertices
    edges := slots.patches.flatMap fun (id, patch) =>
      patch.connections.filterMap (edgeOf? vertices id.slot) }

end SignalGraph

end Patchbay
