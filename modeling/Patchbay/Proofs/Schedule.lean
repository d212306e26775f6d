import Mathlib.Data.List.Basic
import Patchbay.Signal.Schedule

/-!
# Schedules are ordered

A schedule lists no vertex twice, and it lists a vertex only behind the sources of
all edges into it. The invariant of the scheduler is about its counts: the count of
a vertex is the number of edges into it whose sources are not scheduled, and a
vertex has been queued exactly if its count is zero.
-/

namespace Patchbay

/-- Every edge into a listed vertex comes from a vertex listed before it. -/
def Ordered (edges : List Edge) (order : List Nat) : Prop :=
  ∀ before vertex after, order = before ++ vertex :: after →
    ∀ edge ∈ edges, edge.target = vertex → edge.source ∈ before

theorem Ordered.snoc {edges : List Edge} {order : List Nat} (h : Ordered edges order)
    {vertex : Nat} (hvertex : ∀ edge ∈ edges, edge.target = vertex → edge.source ∈ order) :
    Ordered edges (order ++ [vertex]) := by
  intro before middle after heq
  rcases List.eq_nil_or_concat after with rfl | ⟨after, last, rfl⟩
  · obtain ⟨rfl, hlast⟩ := List.append_inj' heq rfl
    cases hlast
    exact hvertex
  · have hsplit : order ++ [vertex] = (before ++ middle :: after) ++ [last] := by simpa using heq
    obtain ⟨horder, -⟩ := List.append_inj' hsplit rfl
    exact h before middle after horder

namespace Scheduler

/-- How many edges lead into a vertex from sources that are not listed. -/
def openEdges (edges : List Edge) (order : List Nat) (vertex : Nat) : Nat :=
  edges.countP fun edge => edge.target == vertex && !order.contains edge.source

/-- How many edges lead from one vertex into another. -/
def edgesBetween (edges : List Edge) (source target : Nat) : Nat :=
  edges.countP fun edge => edge.target == target && edge.source == source

/-- Scheduling a vertex closes the edges from it. -/
theorem openEdges_eq_add (edges : List Edge) {order : List Nat} {source : Nat}
    (hsource : source ∉ order) (vertex : Nat) :
    openEdges edges order vertex =
      openEdges edges (order ++ [source]) vertex + edgesBetween edges source vertex := by
  induction edges with
  | nil => rfl
  | cons edge rest ih =>
    simp only [openEdges, edgesBetween, List.countP_cons] at ih ⊢
    rw [ih]
    by_cases htarget : edge.target = vertex
    · by_cases hfrom : edge.source = source
      · simp [htarget, hfrom, hsource]
        omega
      · by_cases hlisted : edge.source ∈ order <;> simp [htarget, hfrom, hlisted]
        omega
    · simp [htarget]

/-- The counts are as expected, the queue holds the vertices without open edges that are
not listed yet, and the list is ordered. -/
structure Sound (edges : List Edge) (size : Nat) (expected : Nat → Nat)
    (scheduler : Scheduler) : Prop where
  nodup : (scheduler.order ++ scheduler.ready).Nodup
  lt_size : ∀ vertex ∈ scheduler.order ++ scheduler.ready, vertex < size
  waiting_length : scheduler.waiting.length = size
  waiting_eq : ∀ vertex < size, scheduler.waiting.getD vertex 0 = expected vertex
  queued_iff : ∀ vertex < size,
    vertex ∈ scheduler.order ++ scheduler.ready ↔ expected vertex = 0
  ordered : Ordered edges scheduler.order

section
variable {edges : List Edge} {size : Nat} {expected : Nat → Nat} {scheduler : Scheduler}

theorem Sound.congr {expected' : Nat → Nat} (h : Sound edges size expected scheduler)
    (heq : ∀ vertex < size, expected vertex = expected' vertex) :
    Sound edges size expected' scheduler :=
  { h with
    waiting_eq := fun vertex hlt => (h.waiting_eq vertex hlt).trans (heq vertex hlt)
    queued_iff := fun vertex hlt => heq vertex hlt ▸ h.queued_iff vertex hlt }

theorem getD_set_eq_ite {counts : List Nat} {index : Nat} (hindex : index < counts.length)
    (value vertex : Nat) :
    (counts.set index value).getD vertex 0 =
      if vertex = index then value else counts.getD vertex 0 := by
  by_cases heq : vertex = index
  · subst heq
    simp [hindex]
  · simp [List.getD_eq_getElem?_getD, List.getElem?_set_ne (Ne.symm heq), heq]

/-- Closing one edge into a vertex lowers its count, and queues it if that was the last. -/
theorem Sound.arrive (h : Sound edges size expected scheduler) {target : Nat}
    (htarget : target < size) (hopen : 0 < expected target) :
    Sound edges size
      (fun vertex => if vertex = target then expected target - 1 else expected vertex)
      (scheduler.arrive target) := by
  have hunlisted : target ∉ scheduler.order ++ scheduler.ready := by
    rw [h.queued_iff target htarget]
    omega
  have hwaiting (vertex : Nat) (hlt : vertex < size) :
      (scheduler.arrive target).waiting.getD vertex 0 =
        if vertex = target then expected target - 1 else expected vertex := by
    simp only [Scheduler.arrive, h.waiting_eq target htarget]
    rw [getD_set_eq_ite (h.waiting_length.symm ▸ htarget), h.waiting_eq vertex hlt]
  have hlength : (scheduler.arrive target).waiting.length = size := by
    simp [Scheduler.arrive, h.waiting_length]
  by_cases hlast : expected target - 1 = 0
  · have hready : (scheduler.arrive target).ready = scheduler.ready ++ [target] := by
      simp only [Scheduler.arrive, h.waiting_eq target htarget, hlast, ↓reduceIte]
    have hlisted : (scheduler.arrive target).order ++ (scheduler.arrive target).ready =
        (scheduler.order ++ scheduler.ready) ++ [target] := by
      rw [hready, List.append_assoc]
      rfl
    refine ⟨?_, ?_, hlength, hwaiting, ?_, h.ordered⟩
    · rw [hlisted]
      exact List.nodup_append.mpr ⟨h.nodup, by simp, by
        intro vertex hvertex _ hsingle heq
        exact hunlisted (List.mem_singleton.mp hsingle ▸ heq ▸ hvertex)⟩
    · rw [hlisted]
      intro vertex hvertex
      rcases List.mem_append.mp hvertex with hold | hnew
      · exact h.lt_size vertex hold
      · exact List.mem_singleton.mp hnew ▸ htarget
    · intro vertex hlt
      rw [hlisted, List.mem_append, List.mem_singleton]
      by_cases heq : vertex = target
      · simp [heq, hlast]
      · simp only [heq, or_false, ↓reduceIte]
        exact h.queued_iff vertex hlt
  · have hready : (scheduler.arrive target).ready = scheduler.ready := by
      simp only [Scheduler.arrive, h.waiting_eq target htarget, hlast, ↓reduceIte]
    have hlisted : (scheduler.arrive target).order ++ (scheduler.arrive target).ready =
        scheduler.order ++ scheduler.ready := by
      rw [hready]
      rfl
    refine ⟨hlisted ▸ h.nodup, hlisted ▸ h.lt_size, hlength, hwaiting, ?_, h.ordered⟩
    intro vertex hlt
    rw [hlisted, h.queued_iff vertex hlt]
    by_cases heq : vertex = target
    · simp only [heq, ↓reduceIte]
      omega
    · simp only [heq, ↓reduceIte]

theorem edgesBetween_cons_self (edge : Edge) (rest : List Edge) :
    edgesBetween (edge :: rest) edge.source edge.target =
      edgesBetween rest edge.source edge.target + 1 := by
  simp [edgesBetween]

/-- Following an edge closes it. -/
theorem Sound.arrive_edge {edge : Edge} {rest : List Edge} (htarget : edge.target < size)
    (h : Sound edges size
      (fun vertex => expected vertex + edgesBetween (edge :: rest) edge.source vertex)
      scheduler) :
    Sound edges size (fun vertex => expected vertex + edgesBetween rest edge.source vertex)
      (scheduler.arrive edge.target) := by
  have hcount := edgesBetween_cons_self edge rest
  apply (h.arrive htarget (by omega)).congr
  intro vertex _
  by_cases heq : vertex = edge.target
  · subst heq
    simp [hcount]
  · simp [edgesBetween, heq, Ne.symm heq]

/-- Following the edges from a listed vertex closes them. -/
theorem Sound.follow {source : Nat} (left : List Edge)
    (htargets : ∀ edge ∈ left, edge.target < size)
    (h : Sound edges size (fun vertex => expected vertex + edgesBetween left source vertex)
      scheduler) :
    let followed := left.foldl
      (fun scheduler edge =>
        if edge.source = source then scheduler.arrive edge.target else scheduler) scheduler
    Sound edges size expected followed ∧ followed.order = scheduler.order := by
  induction left generalizing scheduler with
  | nil => exact ⟨h, rfl⟩
  | cons edge rest ih =>
    have hrest : ∀ edge ∈ rest, edge.target < size :=
      fun edge hedge => htargets edge (List.mem_cons_of_mem _ hedge)
    rw [List.foldl_cons]
    by_cases hfrom : edge.source = source
    · subst hfrom
      rw [if_pos rfl]
      exact ih hrest (h.arrive_edge (htargets edge List.mem_cons_self))
    · rw [if_neg hfrom]
      apply ih hrest
      apply h.congr
      intro vertex _
      simp [edgesBetween, hfrom]

/-- The head of the queue is listed before the edges from it are closed. -/
theorem Sound.list {vertex : Nat} {rest : List Nat}
    (h : Sound edges size (openEdges edges scheduler.order) scheduler)
    (hready : scheduler.ready = vertex :: rest) :
    Sound edges size
      (fun target => openEdges edges (scheduler.order ++ [vertex]) target +
        edgesBetween edges vertex target)
      { scheduler with ready := rest, order := scheduler.order ++ [vertex] } := by
  have hmem : vertex ∈ scheduler.order ++ scheduler.ready := by simp [hready]
  have hlt : vertex < size := h.lt_size vertex hmem
  have hclosed : openEdges edges scheduler.order vertex = 0 := (h.queued_iff vertex hlt).mp hmem
  have hfresh : vertex ∉ scheduler.order := by
    have hnodup := h.nodup
    rw [hready, List.nodup_append] at hnodup
    intro hlisted
    exact hnodup.2.2 vertex hlisted vertex List.mem_cons_self rfl
  have hsources : ∀ edge ∈ edges, edge.target = vertex → edge.source ∈ scheduler.order := by
    intro edge hedge htarget
    have hnone := List.countP_eq_zero.mp hclosed edge hedge
    simpa [htarget] using hnone
  let listed : Scheduler :=
    { scheduler with ready := rest, order := scheduler.order ++ [vertex] }
  have hsame : listed.order ++ listed.ready = scheduler.order ++ scheduler.ready := by
    simp [listed, hready]
  have hlisted : Sound edges size (openEdges edges scheduler.order) listed :=
    ⟨hsame ▸ h.nodup, hsame ▸ h.lt_size, h.waiting_length, h.waiting_eq,
      fun target hlt => hsame ▸ h.queued_iff target hlt, h.ordered.snoc hsources⟩
  exact hlisted.congr fun target _ => openEdges_eq_add edges hfresh target

/-- Scheduling the head of the queue keeps the counts right. -/
theorem Sound.visit {vertex : Nat} {rest : List Nat}
    (htargets : ∀ edge ∈ edges, edge.target < size)
    (h : Sound edges size (openEdges edges scheduler.order) scheduler)
    (hready : scheduler.ready = vertex :: rest) :
    let visited := { scheduler with ready := rest }.visit edges vertex
    Sound edges size (openEdges edges visited.order) visited ∧
      visited.order = scheduler.order ++ [vertex] := by
  obtain ⟨hsound, horder⟩ := (h.list hready).follow edges htargets
  exact ⟨horder ▸ hsound, horder⟩

/-- At the start the vertices without edges into them are queued. -/
theorem sound_start (graph : SignalGraph) :
    Sound graph.edges graph.vertices.length (openEdges graph.edges []) (start graph) := by
  have hdegree (vertex : Nat) : inDegree graph vertex = openEdges graph.edges [] vertex := by
    simp [inDegree, openEdges]
  refine ⟨?_, ?_, ?_, ?_, ?_, ?_⟩
  · have hready : (start graph).order ++ (start graph).ready =
        (List.range graph.vertices.length).filter fun vertex => inDegree graph vertex == 0 := by
      simp [start]
    rw [hready]
    exact List.nodup_range.filter _
  · intro vertex hvertex
    have hready : vertex ∈ (start graph).ready := by simpa [start] using hvertex
    exact List.mem_range.mp (List.mem_of_mem_filter hready)
  · simp [start]
  · intro vertex hlt
    simp [start, hlt, hdegree]
  · intro vertex hlt
    simp [start, hlt, hdegree]
  · intro before vertex after heq
    simp [start] at heq

theorem Sound.run (htargets : ∀ edge ∈ edges, edge.target < size) (rounds : Nat)
    (h : Sound edges size (openEdges edges scheduler.order) scheduler) :
    let final := Scheduler.run edges rounds scheduler
    Sound edges size (openEdges edges final.order) final := by
  induction rounds generalizing scheduler with
  | zero => exact h
  | succ rounds ih =>
    simp only [Scheduler.run]
    split
    · exact h
    · exact ih (h.visit htargets ‹_›).1

end

end Scheduler

namespace SignalGraph

/-- The edges of a graph join vertices of the graph. -/
def Joined (graph : SignalGraph) : Prop :=
  ∀ edge ∈ graph.edges,
    edge.source < graph.vertices.length ∧ edge.target < graph.vertices.length

variable {graph : SignalGraph}

theorem sound_schedule (h : graph.Joined) :
    let final := Scheduler.run graph.edges graph.vertices.length (Scheduler.start graph)
    Scheduler.Sound graph.edges graph.vertices.length
      (Scheduler.openEdges graph.edges final.order) final :=
  (Scheduler.sound_start graph).run (fun edge hedge => (h edge hedge).2) _

theorem schedule_nodup (h : graph.Joined) : graph.schedule.Nodup :=
  (List.nodup_append.mp (sound_schedule h).nodup).1

theorem lt_length_of_mem_schedule (h : graph.Joined) {vertex : Nat}
    (hvertex : vertex ∈ graph.schedule) : vertex < graph.vertices.length :=
  (sound_schedule h).lt_size vertex (List.mem_append_left _ hvertex)

theorem schedule_ordered (h : graph.Joined) : Ordered graph.edges graph.schedule :=
  (sound_schedule h).ordered

end SignalGraph

end Patchbay
