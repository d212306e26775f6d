import Patchbay.Signal.Graph

/-!
# Scheduling the signal graph

Vertices are scheduled once all edges into them come from scheduled vertices. A
queue holds the vertices that are ready, so the order is that of the patches as
far as the edges allow. What lies on a cycle or behind one is never ready and is
left out.

## Implementation notes

Each vertex has a count of the edges into it that are still open. A vertex enters
the queue when its count reaches zero, which happens once, so the number of
vertices bounds the number of rounds.
-/

namespace Patchbay

/-- A schedule under construction. -/
structure Scheduler where
  /-- For each vertex, the edges into it whose sources are not scheduled. -/
  waiting : List Nat
  /-- Vertices that can be scheduled, first come first served. -/
  ready : List Nat
  /-- The vertices scheduled so far, in order. -/
  order : List Nat := []
  deriving DecidableEq, Repr

namespace Scheduler

/-- The number of edges into a vertex. -/
def inDegree (graph : SignalGraph) (vertex : Nat) : Nat :=
  graph.edges.countP fun edge => edge.target == vertex

/-- Every vertex without edges into it is ready. -/
def start (graph : SignalGraph) : Scheduler :=
  let vertices := List.range graph.vertices.length
  { waiting := vertices.map (inDegree graph)
    ready := vertices.filter fun vertex => inDegree graph vertex == 0 }

/-- One edge into a vertex is no longer open. -/
def arrive (scheduler : Scheduler) (vertex : Nat) : Scheduler :=
  let count := scheduler.waiting.getD vertex 0 - 1
  { scheduler with
    waiting := scheduler.waiting.set vertex count
    ready := if count = 0 then scheduler.ready ++ [vertex] else scheduler.ready }

/-- Schedule a vertex and follow its edges. -/
def visit (edges : List Edge) (scheduler : Scheduler) (vertex : Nat) : Scheduler :=
  edges.foldl
    (fun scheduler edge => if edge.source = vertex then scheduler.arrive edge.target else scheduler)
    { scheduler with order := scheduler.order ++ [vertex] }

/-- Schedule up to `rounds` vertices from the queue. -/
def run (edges : List Edge) : (rounds : Nat) → Scheduler → Scheduler
  | 0, scheduler => scheduler
  | rounds + 1, scheduler =>
    match scheduler.ready with
    | [] => scheduler
    | vertex :: rest => run edges rounds ({ scheduler with ready := rest }.visit edges vertex)

end Scheduler

/-- The scheduled vertices of a graph, in order. -/
def SignalGraph.schedule (graph : SignalGraph) : List Nat :=
  (Scheduler.run graph.edges graph.vertices.length (Scheduler.start graph)).order

end Patchbay
