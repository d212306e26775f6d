import Mathlib.Data.Fintype.Card
import Mathlib.Data.Set.Finite.Basic
import Mathlib.Logic.Relation
import Mathlib.Order.WellFounded
import Patchbay.Proofs.Layout

/-!
# Schedules are maximal

A signal object is scheduled unless it lies on a cycle of signal connections or behind one.
When the scheduler stops, every vertex that is left has an open edge from another one that is
left. Going back along such edges never ends, and there are finitely many vertices, so a cycle
is met on the way. No edge into a scheduled vertex comes from one that is left, so what is
scheduled has no cycle behind it.

The counts of open edges are whole numbers from which one is taken for every edge. A scheduler
that fails instead of counting below zero gives the same schedule.

## Implementation notes

The graph is read by place here: what connects two objects is a connection of the patch, and a
connection made twice stands twice in the list.
-/

namespace Patchbay

/-! ## Cycles -/

section
variable {α : Type*} {leads : α → α → Prop} {items order : List α}

/-- An item lies on a cycle, or one leads to it. -/
def BehindCycle (leads : α → α → Prop) (item : α) : Prop :=
  ∃ cyclic, Relation.TransGen leads cyclic cyclic ∧ Relation.ReflTransGen leads cyclic item

/-- If everything on a list has a predecessor on the list, everything on it lies behind a
cycle. -/
theorem behindCycle_of_predecessors
    (h : ∀ item ∈ items, ∃ other ∈ items, leads other item) {item : α} (hitem : item ∈ items) :
    BehindCycle leads item := by
  by_contra hfree
  let Ancestor := {other // other ∈ items ∧ Relation.ReflTransGen leads other item}
  have hfinite : Finite Ancestor :=
    Set.Finite.to_subtype ((List.finite_toSet items).subset fun other hother => hother.1)
  let before (first second : Ancestor) : Prop := Relation.TransGen leads first.1 second.1
  have htrans : IsTrans Ancestor before := ⟨fun _ _ _ h h' => h.trans h'⟩
  have hirrefl : Std.Irrefl before := ⟨fun ancestor hcycle =>
    hfree ⟨ancestor.1, hcycle, ancestor.2.2⟩⟩
  have hwell : WellFounded before := Finite.wellFounded_of_trans_of_irrefl before
  -- An earliest ancestor has a predecessor, which is an ancestor too.
  obtain ⟨earliest, -, hearliest⟩ :=
    hwell.has_min Set.univ ⟨⟨item, hitem, .refl⟩, trivial⟩
  obtain ⟨other, hother, hleads⟩ := h earliest.1 earliest.2.1
  exact hearliest ⟨other, hother, .head hleads earliest.2.2⟩ trivial (.single hleads)

/-- Every predecessor of a listed item is listed before it. -/
def ListsSources (leads : α → α → Prop) (order : List α) : Prop :=
  ∀ before item after, order = before ++ item :: after → ∀ other, leads other item →
    other ∈ before

/-- What leads to a listed item is listed at a lower index. -/
theorem ListsSources.idxOf_lt [DecidableEq α] (h : ListsSources leads order) {other item : α}
    (hleads : Relation.TransGen leads other item) (hitem : item ∈ order) :
    other ∈ order ∧ order.idxOf other < order.idxOf item := by
  have hstep {other item : α} (hleads : leads other item) (hitem : item ∈ order) :
      other ∈ order ∧ order.idxOf other < order.idxOf item := by
    obtain ⟨before, after, hsplit, hfirst⟩ := List.eq_append_cons_of_mem hitem
    have hother := h before item after hsplit other hleads
    rw [hsplit, List.idxOf_append_of_mem hother, List.idxOf_append_of_notMem hfirst,
      List.idxOf_cons_self]
    exact ⟨List.mem_append_left _ hother,
      Nat.lt_add_right 0 (List.idxOf_lt_length_of_mem hother)⟩
  induction hleads with
  | single hleads => exact hstep hleads hitem
  | tail _ hleads ih =>
    obtain ⟨hmiddle, hlt⟩ := hstep hleads hitem
    exact ⟨(ih hmiddle).1, Nat.lt_trans (ih hmiddle).2 hlt⟩

/-- A list that has all sources of its items, and whatever has all its sources listed, has
exactly the items that no cycle leads to. -/
theorem ListsSources.mem_iff [DecidableEq α] (h : ListsSources leads order) (hsub : order ⊆ items)
    (hleft : ∀ item ∈ items, item ∉ order → ∃ other ∈ items, other ∉ order ∧ leads other item)
    {item : α} : item ∈ order ↔ item ∈ items ∧ ¬ BehindCycle leads item := by
  constructor
  · rintro hitem
    refine ⟨hsub hitem, ?_⟩
    rintro ⟨cyclic, hcycle, hreaches⟩
    have hcyclic : cyclic ∈ order := by
      rcases Relation.reflTransGen_iff_eq_or_transGen.mp hreaches with rfl | hreaches
      · exact hitem
      · exact (h.idxOf_lt hreaches hitem).1
    exact Nat.lt_irrefl _ (h.idxOf_lt hcycle hcyclic).2
  · rintro ⟨hitem, hfree⟩
    by_contra hunlisted
    apply hfree
    have hremaining : ∀ left ∈ items.filter (· ∉ order),
        ∃ other ∈ items.filter (· ∉ order), leads other left := by
      intro left hremains
      obtain ⟨hmem, hnever⟩ := List.mem_filter.mp hremains
      obtain ⟨other, hother, hnot, hleads⟩ := hleft left hmem (of_decide_eq_true hnever)
      exact ⟨other, List.mem_filter.mpr ⟨hother, decide_eq_true hnot⟩, hleads⟩
    exact behindCycle_of_predecessors hremaining
      (List.mem_filter.mpr ⟨hitem, decide_eq_true hunlisted⟩)

end

/-! ## The scheduler stops by itself -/

namespace Scheduler
variable {edges : List Edge} {size : Nat} {expected : Nat → Nat} {scheduler : Scheduler}

theorem Sound.length_le (h : Sound edges size expected scheduler) :
    scheduler.order.length + scheduler.ready.length ≤ size := by
  have hsub : scheduler.order ++ scheduler.ready ⊆ List.range size :=
    fun vertex hvertex => List.mem_range.mpr (h.lt_size vertex hvertex)
  have hle := (List.subperm_of_subset h.nodup hsub).length_le
  rwa [List.length_append, List.length_range] at hle

theorem Sound.ready_eq_nil (h : Sound edges size expected scheduler)
    (hfull : size ≤ scheduler.order.length) : scheduler.ready = [] := by
  have hle := h.length_le
  exact List.length_eq_zero_iff.mp (by omega : scheduler.ready.length = 0)

/-- With a round for each vertex the queue runs empty. -/
theorem Sound.ready_run (htargets : ∀ edge ∈ edges, edge.target < size) (rounds : Nat)
    (h : Sound edges size (openEdges edges scheduler.order) scheduler)
    (hrounds : size ≤ scheduler.order.length + rounds) :
    (Scheduler.run edges rounds scheduler).ready = [] := by
  induction rounds generalizing scheduler with
  | zero => exact h.ready_eq_nil hrounds
  | succ rounds ih =>
    simp only [Scheduler.run]
    split
    · assumption
    · rename_i hready
      obtain ⟨hvisited, horder⟩ := h.visit htargets hready
      apply ih hvisited
      rw [horder, List.length_append, List.length_singleton]
      omega

/-! ## No count goes below zero -/

/-- One edge into a vertex is no longer open, `none` if none was. -/
def arrive? (scheduler : Scheduler) (vertex : Nat) : Option Scheduler :=
  match scheduler.waiting[vertex]? with
  | some (count + 1) =>
    some { scheduler with
      waiting := scheduler.waiting.set vertex count
      ready := if count = 0 then scheduler.ready ++ [vertex] else scheduler.ready }
  | _ => none

/-- Schedule a vertex and follow its edges, `none` if a count would go below zero. -/
def visit? (edges : List Edge) (scheduler : Scheduler) (vertex : Nat) : Option Scheduler :=
  edges.foldlM
    (fun scheduler edge =>
      if edge.source = vertex then scheduler.arrive? edge.target else some scheduler)
    { scheduler with order := scheduler.order ++ [vertex] }

/-- Schedule vertices until the queue is empty, `none` if a count would go below zero or the
rounds do not suffice. -/
def run? (edges : List Edge) : (rounds : Nat) → Scheduler → Option Scheduler
  | 0, scheduler => if scheduler.ready = [] then some scheduler else none
  | rounds + 1, scheduler =>
    match scheduler.ready with
    | [] => some scheduler
    | vertex :: rest =>
      ({ scheduler with ready := rest }.visit? edges vertex).bind (run? edges rounds)

theorem Sound.arrive?_eq (h : Sound edges size expected scheduler) {target : Nat}
    (htarget : target < size) (hopen : 0 < expected target) :
    scheduler.arrive? target = some (scheduler.arrive target) := by
  have hlt : target < scheduler.waiting.length := h.waiting_length.symm ▸ htarget
  have hcount := h.waiting_eq target htarget
  obtain ⟨count, hexpected⟩ := Nat.exists_eq_add_of_lt hopen
  rw [Nat.zero_add] at hexpected
  have hget : scheduler.waiting[target]? = some (count + 1) := by
    rw [List.getD_eq_getElem?_getD, List.getElem?_eq_getElem hlt, Option.getD_some] at hcount
    rw [List.getElem?_eq_getElem hlt, hcount, hexpected]
  simp only [arrive?, Scheduler.arrive, hget, hcount, hexpected, Nat.add_sub_cancel]

/-- Following the edges from a listed vertex never takes from a count of zero. -/
theorem Sound.follow?_eq {source : Nat} (left : List Edge)
    (htargets : ∀ edge ∈ left, edge.target < size)
    (h : Sound edges size (fun vertex => expected vertex + edgesBetween left source vertex)
      scheduler) :
    left.foldlM
        (fun scheduler edge =>
          if edge.source = source then scheduler.arrive? edge.target else some scheduler)
        scheduler =
      some (left.foldl
        (fun scheduler edge =>
          if edge.source = source then scheduler.arrive edge.target else scheduler) scheduler) := by
  induction left generalizing scheduler with
  | nil => rfl
  | cons edge rest ih =>
    have hrest : ∀ edge ∈ rest, edge.target < size :=
      fun edge hedge => htargets edge (List.mem_cons_of_mem _ hedge)
    rw [List.foldlM_cons, List.foldl_cons]
    by_cases hfrom : edge.source = source
    · subst hfrom
      have htarget : edge.target < size := htargets edge List.mem_cons_self
      have hcount := edgesBetween_cons_self edge rest
      rw [if_pos rfl, if_pos rfl, h.arrive?_eq htarget (by omega)]
      exact ih hrest (h.arrive_edge htarget)
    · rw [if_neg hfrom, if_neg hfrom]
      apply ih hrest
      apply h.congr
      intro vertex _
      simp [edgesBetween, hfrom]

theorem Sound.visit?_eq {vertex : Nat} {rest : List Nat}
    (htargets : ∀ edge ∈ edges, edge.target < size)
    (h : Sound edges size (openEdges edges scheduler.order) scheduler)
    (hready : scheduler.ready = vertex :: rest) :
    { scheduler with ready := rest }.visit? edges vertex =
      some ({ scheduler with ready := rest }.visit edges vertex) :=
  (h.list hready).follow?_eq edges htargets

/-- The scheduler runs to its end without fault. -/
theorem Sound.run?_eq (htargets : ∀ edge ∈ edges, edge.target < size) (rounds : Nat)
    (h : Sound edges size (openEdges edges scheduler.order) scheduler)
    (hrounds : size ≤ scheduler.order.length + rounds) :
    Scheduler.run? edges rounds scheduler = some (Scheduler.run edges rounds scheduler) := by
  induction rounds generalizing scheduler with
  | zero => exact if_pos (h.ready_eq_nil hrounds)
  | succ rounds ih =>
    cases hready : scheduler.ready with
    | nil => simp only [run?, Scheduler.run, hready]
    | cons vertex rest =>
      obtain ⟨hvisited, horder⟩ := h.visit htargets hready
      simp only [run?, Scheduler.run, hready, h.visit?_eq htargets hready, Option.bind_some]
      apply ih hvisited
      rw [horder, List.length_append, List.length_singleton]
      omega

end Scheduler

namespace SignalGraph
variable {graph : SignalGraph}

/-- The schedule is whole: with a round for each vertex the queue runs empty. -/
theorem Joined.ready_run (h : graph.Joined) :
    (Scheduler.run graph.edges graph.vertices.length (Scheduler.start graph)).ready = [] :=
  (Scheduler.sound_start graph).ready_run (fun edge hedge => (h edge hedge).2) _
    (Nat.le_add_left ..)

/-- A vertex that is left out has an open edge, which comes from another one left out. -/
theorem exists_open_edge (h : graph.Joined) {vertex : Nat} (hlt : vertex < graph.vertices.length)
    (hleft : vertex ∉ graph.schedule) :
    ∃ edge ∈ graph.edges, edge.target = vertex ∧ edge.source ∉ graph.schedule := by
  have hqueued := (sound_schedule h).queued_iff vertex hlt
  rw [h.ready_run, List.append_nil] at hqueued
  have hopen := mt hqueued.mpr hleft
  rw [Scheduler.openEdges, List.countP_eq_zero] at hopen
  push Not at hopen
  obtain ⟨edge, hedge, hfound⟩ := hopen
  simp only [Bool.and_eq_true, beq_iff_eq, Bool.not_eq_eq_eq_not, Bool.not_true,
    List.contains_eq_mem, decide_eq_false_iff_not] at hfound
  exact ⟨edge, hedge, hfound⟩

end SignalGraph

/-! ## Signal connections by place -/

namespace Slots

/-- The numbers of signal ports of the object at a place. -/
def signalPorts (slots : Slots) (place : NodeRef) : Nat × Nat :=
  ((slots.node? place).map Node.signalPorts).getD (0, 0)

/-- The connections between signal ports of the open patches, each as often as it was made. -/
def signalWires (slots : Slots) : List (NodeRef × NodeRef) :=
  slots.patches.flatMap fun (id, patch) =>
    patch.connections.filterMap fun connection =>
      let source : NodeRef := { slot := id.slot, object := connection.source }
      let target : NodeRef := { slot := id.slot, object := connection.target }
      if connection.outlet < (slots.signalPorts source).2 ∧
          connection.inlet < (slots.signalPorts target).1 then
        some (source, target)
      else none

/-- A signal connection leads from one object to another. -/
def Flows (slots : Slots) (source target : NodeRef) : Prop := (source, target) ∈ slots.signalWires

end Slots

namespace SignalGraph
variable {slots : Slots}

/-- The place of a vertex. -/
def placeOf (vertices : List Vertex) (index : Nat) : NodeRef := (vertices.getD index default).place

/-- The places that an edge joins. -/
def ends (vertices : List Vertex) (edge : Edge) : NodeRef × NodeRef :=
  (placeOf vertices edge.source, placeOf vertices edge.target)

theorem placeOf_eq {vertices : List Vertex} {index : Nat} {vertex : Vertex}
    (h : vertices[index]? = some vertex) : placeOf vertices index = vertex.place := by
  rw [placeOf, List.getD_eq_getElem?_getD, h, Option.getD_some]

theorem signalPorts_of_mem {vertex : Vertex} (h : vertex ∈ verticesOf slots) :
    slots.signalPorts vertex.place = (vertex.inlets, vertex.outlets) := by
  obtain ⟨node, hnode, -, hports⟩ := node?_of_mem_verticesOf h
  rw [Slots.signalPorts, hnode, Option.map_some, Option.getD_some, hports]

/-- A place with a signal port has a vertex. -/
theorem exists_vertex_of_ports {place : NodeRef} (h : slots.signalPorts place ≠ (0, 0)) :
    ∃ (index : Nat) (vertex : Vertex),
      (verticesOf slots)[index]? = some vertex ∧ vertex.place = place := by
  unfold Slots.signalPorts at h
  cases hnode : slots.node? place with
  | none => simp [hnode] at h
  | some node =>
    have hsignal : node.isSignal = true := by simpa [hnode, Node.isSignal] using h
    obtain ⟨vertex, hvertex, hplace⟩ := exists_vertex hnode hsignal
    obtain ⟨index, hindex⟩ := List.mem_iff_getElem?.mp hvertex
    exact ⟨index, vertex, hindex, hplace⟩

/-- A connection makes an edge exactly if it joins signal ports. -/
theorem map_ends_edgeOf? (slots : Slots) (slot : Nat) (connection : Connection) :
    (edgeOf? (verticesOf slots) slot connection).map (ends (verticesOf slots)) =
      if connection.outlet < (slots.signalPorts ⟨slot, connection.source⟩).2 ∧
          connection.inlet < (slots.signalPorts ⟨slot, connection.target⟩).1 then
        some (⟨slot, connection.source⟩, ⟨slot, connection.target⟩)
      else none := by
  split
  · rename_i hports
    have houtlet : slots.signalPorts ⟨slot, connection.source⟩ ≠ (0, 0) := by
      intro heq
      simp [heq] at hports
    have hinlet : slots.signalPorts ⟨slot, connection.target⟩ ≠ (0, 0) := by
      intro heq
      simp [heq] at hports
    obtain ⟨source, tail, htail, hsource⟩ := exists_vertex_of_ports houtlet
    obtain ⟨target, head, hhead, htarget⟩ := exists_vertex_of_ports hinlet
    rw [← hsource, ← htarget, signalPorts_of_mem (List.mem_of_getElem? htail),
      signalPorts_of_mem (List.mem_of_getElem? hhead)] at hports
    have hedge : edgeOf? (verticesOf slots) slot connection =
        some ⟨source, connection.outlet, target, connection.inlet⟩ :=
      edgeOf?_eq_some_iff.mpr ⟨tail, head, htail, hhead, hsource, htarget, rfl, rfl, hports⟩
    rw [hedge, Option.map_some, ends, placeOf_eq htail, placeOf_eq hhead, hsource, htarget]
  · rename_i hports
    rw [Option.map_eq_none_iff, Option.eq_none_iff_forall_ne_some]
    intro edge hedge
    obtain ⟨tail, head, htail, hhead, hsource, htarget, -, -, hlt⟩ := edgeOf?_eq_some_iff.mp hedge
    apply hports
    rwa [← hsource, ← htarget, signalPorts_of_mem (List.mem_of_getElem? htail),
      signalPorts_of_mem (List.mem_of_getElem? hhead)]

/-- The edges of the graph are the signal connections, in order and as often as they were
made. -/
theorem map_ends_edges (slots : Slots) :
    (ofSlots slots).edges.map (ends (verticesOf slots)) = slots.signalWires := by
  simp only [ofSlots, Slots.signalWires, List.map_flatMap, List.map_filterMap, map_ends_edgeOf?]

/-- No two vertices stand at one place. -/
theorem placeOf_inj {first second : Nat} (hfirst : first < (verticesOf slots).length)
    (hsecond : second < (verticesOf slots).length) :
    placeOf (verticesOf slots) first = placeOf (verticesOf slots) second ↔ first = second := by
  have hplaces := nodup_place_verticesOf slots
  rw [← List.getElem?_inj (by simpa using hfirst) hplaces]
  simp [placeOf, List.getD_eq_getElem?_getD, List.getElem?_eq_getElem hfirst,
    List.getElem?_eq_getElem hsecond]

theorem placeOf_mem {index : Nat} (hindex : index < (verticesOf slots).length) :
    placeOf (verticesOf slots) index ∈ slots.placesOf Node.isSignal := by
  rw [← map_place_verticesOf, placeOf_eq (List.getElem?_eq_getElem hindex)]
  exact List.mem_map_of_mem (List.getElem_mem hindex)

theorem mem_scheduled_iff {index : Nat} (hindex : index < (verticesOf slots).length) :
    placeOf (verticesOf slots) index ∈ slots.scheduled ↔ index ∈ (ofSlots slots).schedule := by
  constructor
  · intro h
    obtain ⟨other, hother, hplace⟩ := List.mem_map.mp h
    have hlt := lt_length_of_mem_schedule (joined_ofSlots slots) hother
    rwa [← (placeOf_inj hlt hindex).mp hplace]
  · exact List.mem_map_of_mem

/-- A signal connection comes from an edge. -/
theorem exists_edge_of_flows {source target : NodeRef} (h : slots.Flows source target) :
    ∃ edge ∈ (ofSlots slots).edges, placeOf (verticesOf slots) edge.source = source ∧
      placeOf (verticesOf slots) edge.target = target := by
  rw [Slots.Flows, ← map_ends_edges] at h
  obtain ⟨edge, hedge, hends⟩ := List.mem_map.mp h
  exact ⟨edge, hedge, congrArg Prod.fst hends, congrArg Prod.snd hends⟩

theorem flows_of_mem_edges {edge : Edge} (h : edge ∈ (ofSlots slots).edges) :
    slots.Flows (placeOf (verticesOf slots) edge.source)
      (placeOf (verticesOf slots) edge.target) := by
  rw [Slots.Flows, ← map_ends_edges]
  exact List.mem_map_of_mem h

end SignalGraph

namespace Slots
open SignalGraph

/-- Whatever flows into a scheduled object is scheduled before it. -/
theorem listsSources_scheduled (slots : Slots) : ListsSources slots.Flows slots.scheduled := by
  intro before place after hsplit source hflows
  obtain ⟨first, rest, hschedule, rfl, hrest⟩ := List.map_eq_append_iff.mp hsplit
  obtain ⟨index, last, rfl, rfl, rfl⟩ := List.map_eq_cons_iff.mp hrest
  obtain ⟨edge, hedge, rfl, htarget⟩ := exists_edge_of_flows hflows
  have hjoined := joined_ofSlots slots
  have hindex : index < (verticesOf slots).length :=
    lt_length_of_mem_schedule hjoined (hschedule ▸ List.mem_append_right _ List.mem_cons_self)
  have hsame : edge.target = index := (placeOf_inj (hjoined edge hedge).2 hindex).mp htarget
  exact List.mem_map_of_mem (schedule_ordered hjoined first index last hschedule edge hedge hsame)

theorem scheduled_subset (slots : Slots) : slots.scheduled ⊆ slots.placesOf Node.isSignal := by
  intro place hplace
  obtain ⟨index, hindex, rfl⟩ := List.mem_map.mp hplace
  exact placeOf_mem (lt_length_of_mem_schedule (joined_ofSlots slots) hindex)

/-- Into a signal object that is left out flows another one that is left out. -/
theorem exists_flows_of_unscheduled {slots : Slots} {place : NodeRef}
    (hplace : place ∈ slots.placesOf Node.isSignal) (hleft : place ∉ slots.scheduled) :
    ∃ source ∈ slots.placesOf Node.isSignal, source ∉ slots.scheduled ∧
      slots.Flows source place := by
  rw [← map_place_verticesOf] at hplace
  obtain ⟨vertex, hvertex, rfl⟩ := List.mem_map.mp hplace
  obtain ⟨index, hget⟩ := List.mem_iff_getElem?.mp hvertex
  have hjoined := joined_ofSlots slots
  have hindex : index < (verticesOf slots).length := (List.getElem?_eq_some_iff.mp hget).1
  rw [← placeOf_eq hget, mem_scheduled_iff hindex] at hleft
  obtain ⟨edge, hedge, rfl, hsource⟩ := exists_open_edge hjoined hindex hleft
  have hlt := (hjoined edge hedge).1
  exact ⟨placeOf (verticesOf slots) edge.source, placeOf_mem hlt,
    mt (mem_scheduled_iff hlt).mp hsource, placeOf_eq hget ▸ flows_of_mem_edges hedge⟩

/-- The scheduled objects are the signal objects that no cycle leads to. -/
theorem mem_scheduled {slots : Slots} {place : NodeRef} :
    place ∈ slots.scheduled ↔
      place ∈ slots.placesOf Node.isSignal ∧ ¬ BehindCycle slots.Flows place :=
  slots.listsSources_scheduled.mem_iff slots.scheduled_subset fun _ => exists_flows_of_unscheduled

end Slots

/-! ## Built chains -/

/-- A chain has the steps of a topological order of the signal graph that is as long as the
cycles allow. -/
structure Chain.Sorts (slots : Slots) (chain : Chain) : Prop where
  /-- The vertices are the signal objects. -/
  vertices_eq : (SignalGraph.ofSlots slots).vertices.map Vertex.place =
    slots.placesOf Node.isSignal
  /-- The edges are the connections between signal ports, each as often as it was made. -/
  edges_eq : (SignalGraph.ofSlots slots).edges.map
    (SignalGraph.ends (SignalGraph.ofSlots slots).vertices) = slots.signalWires
  /-- No object has two steps. -/
  nodup : (chain.steps.map ChainStep.place).Nodup
  /-- The objects left out are those on a cycle or behind one. -/
  mem_iff : ∀ place, place ∈ chain.steps.map ChainStep.place ↔
    place ∈ slots.placesOf Node.isSignal ∧ ¬ BehindCycle slots.Flows place
  /-- Whatever flows into the object of a step has a step before it. -/
  sources : ∀ earlier step later, chain.steps = earlier ++ step :: later →
    ∀ source, slots.Flows source step.place → source ∈ earlier.map ChainStep.place
  /-- The objects left out are counted. -/
  unscheduled_eq : chain.unscheduled = (slots.placesOf Node.isSignal).countP fun place =>
    decide (place ∉ chain.steps.map ChainStep.place)
  /-- The scheduler runs to its end, and no count of open edges goes below zero. -/
  counts : ∃ final, Scheduler.run? (SignalGraph.ofSlots slots).edges
      (SignalGraph.ofSlots slots).vertices.length (Scheduler.start (SignalGraph.ofSlots slots)) =
        some final ∧ chain.steps.map ChainStep.vertex = final.order

namespace Chain

/-- What is listed and what is not are all there is. -/
theorem length_sub_of_subset {α : Type*} [DecidableEq α] {items order : List α}
    (hitems : items.Nodup) (horder : order.Nodup) (hsub : order ⊆ items) :
    items.length - order.length = items.countP fun item => decide (item ∉ order) := by
  have hlisted : (items.filter fun item => decide (item ∈ order)).Perm order := by
    apply (List.perm_ext_iff_of_nodup (hitems.filter _) horder).mpr
    intro item
    simpa using fun h => hsub h
  have hsplit := List.length_eq_length_filter_add (l := items) fun item => decide (item ∈ order)
  have hcount : (items.countP fun item => decide (item ∉ order)) =
      (items.filter fun item => !decide (item ∈ order)).length := by
    rw [List.countP_eq_length_filter]
    simp
  rw [hlisted.length_eq] at hsplit
  omega

/-- Whatever patches are open, the chain sorts their signal objects. -/
theorem build_sorts (slots : Slots) (format : AudioFormat) :
    (build slots format).Sorts slots := by
  have hplaces := map_place_build slots format
  have hjoined := SignalGraph.joined_ofSlots slots
  refine ⟨SignalGraph.map_place_verticesOf slots, SignalGraph.map_ends_edges slots,
    hplaces ▸ nodup_scheduled slots, fun place => hplaces ▸ Slots.mem_scheduled, ?_, ?_, ?_⟩
  · intro earlier step later hsteps source hflows
    have hsplit : slots.scheduled =
        earlier.map ChainStep.place ++ step.place :: later.map ChainStep.place := by
      rw [← hplaces, hsteps, List.map_append, List.map_cons]
    exact slots.listsSources_scheduled _ _ _ hsplit source hflows
  · have hcount := length_sub_of_subset (Slots.placesOf_nodup slots Node.isSignal)
      (nodup_scheduled slots) slots.scheduled_subset
    rw [← SignalGraph.map_place_verticesOf, List.length_map, Slots.scheduled, List.length_map]
      at hcount
    rw [hplaces, ← SignalGraph.map_place_verticesOf]
    exact hcount
  · refine ⟨_, (Scheduler.sound_start (SignalGraph.ofSlots slots)).run?_eq
      (fun edge hedge => (hjoined edge hedge).2) _ (Nat.le_add_left ..),
      map_vertex_build slots format⟩

end Chain

end Patchbay
