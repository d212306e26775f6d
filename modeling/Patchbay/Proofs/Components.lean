import Mathlib.Data.List.Forall2
import Mathlib.Logic.Relator
import Patchbay.Proofs.Maximality

/-!
# Components are scheduled on their own

A part of a signal graph that no edge enters or leaves is scheduled as if it were the whole
graph. All vertices go through one queue, so those of other parts stand between the vertices of
this one. But to schedule one of them closes no edge into the part, and to schedule a vertex of
the part closes the edges that it has in the part, in the same order. What the queue has of the
part is therefore the queue of the part by itself at every moment, and so it is when both have
run empty.

## Implementation notes

Vertices are numbered in each graph on its own. A relation says which numbers stand for one
vertex, and lists of the whole graph are compared with lists of the part once everything that
lies outside has been left out.
-/

namespace Patchbay

section
variable {inside : Nat → Bool} {same : Nat → Nat → Prop}

/-- Edges that join vertices which stand for each other. -/
def SameEdge (same : Nat → Nat → Prop) (edge other : Edge) : Prop :=
  same edge.source other.source ∧ same edge.target other.target

namespace SignalGraph

/-- One graph is a part of another that no edge enters or leaves. -/
structure Component (inside : Nat → Bool) (same : Nat → Nat → Prop) (whole part : SignalGraph) :
    Prop where
  /-- Numbers stand for each other one by one. -/
  unique : Relator.BiUnique same
  inside_of_same : ∀ {index number}, same index number → inside index = true
  bounds : ∀ {index number}, same index number →
    index < whole.vertices.length ∧ number < part.vertices.length
  /-- The part has the vertices inside, in order. -/
  vertices : List.Forall₂ same ((List.range whole.vertices.length).filter inside)
    (List.range part.vertices.length)
  /-- The part has the edges from vertices inside, in order. -/
  edges : List.Forall₂ (SameEdge same) (whole.edges.filter fun edge => inside edge.source)
    part.edges
  closed : ∀ edge ∈ whole.edges, inside edge.target = inside edge.source

variable {whole part : SignalGraph}

theorem Component.snoc (hpart : whole.Component inside same part) {listed others : List Nat}
    (h : List.Forall₂ same (listed.filter inside) others) {vertex number : Nat}
    (hsame : same vertex number) :
    List.Forall₂ same ((listed ++ [vertex]).filter inside) (others ++ [number]) := by
  rw [List.filter_append, List.filter_cons_of_pos (hpart.inside_of_same hsame), List.filter_nil]
  exact List.rel_append h (.cons hsame .nil)

theorem filter_snoc_of_outside (listed : List Nat) {vertex : Nat} (h : inside vertex = false) :
    (listed ++ [vertex]).filter inside = listed.filter inside := by
  rw [List.filter_append, List.filter_cons_of_neg (by simp [h]), List.filter_nil,
    List.append_nil]

/-- As many edges lead into a vertex of the part as into the one it stands for. -/
theorem Component.inDegree_eq (hpart : whole.Component inside same part) {vertex number : Nat}
    (hsame : same vertex number) :
    Scheduler.inDegree whole vertex = Scheduler.inDegree part number := by
  have hinside : Scheduler.inDegree whole vertex =
      (whole.edges.filter fun edge => inside edge.source).countP fun edge =>
        edge.target == vertex := by
    rw [Scheduler.inDegree, List.countP_filter]
    apply List.countP_congr
    intro edge hedge
    have hclosed := hpart.closed edge hedge
    have hvertex := hpart.inside_of_same hsame
    by_cases htarget : edge.target = vertex
    · simp [htarget, ← hclosed, hvertex]
    · simp [htarget]
  rw [hinside, Scheduler.inDegree, List.countP_eq_length_filter, List.countP_eq_length_filter]
  refine (List.rel_filter ?_ hpart.edges).length_eq
  intro edge other hedge
  simpa using Relator.rel_eq hpart.unique hedge.2 hsame

end SignalGraph

open SignalGraph

/-! ## Two schedules under construction -/

namespace Scheduler
variable {whole part : SignalGraph} {scheduler alone : Scheduler}

/-- Follow an edge if it comes from a vertex. -/
def follow (vertex : Nat) (scheduler : Scheduler) (edge : Edge) : Scheduler :=
  if edge.source = vertex then scheduler.arrive edge.target else scheduler

/-- Of what is inside, a schedule under construction shows what another one shows of all. -/
structure Restricts (inside : Nat → Bool) (same : Nat → Nat → Prop)
    (scheduler alone : Scheduler) : Prop where
  bounds : ∀ {index number}, same index number →
    index < scheduler.waiting.length ∧ number < alone.waiting.length
  waiting : ∀ {index number}, same index number →
    scheduler.waiting.getD index 0 = alone.waiting.getD number 0
  ready : List.Forall₂ same (scheduler.ready.filter inside) alone.ready
  order : List.Forall₂ same (scheduler.order.filter inside) alone.order

theorem restricts_start (hpart : whole.Component inside same part) :
    Restricts inside same (start whole) (start part) := by
  refine ⟨fun hsame => by simpa [start] using hpart.bounds hsame, fun hsame => ?_, ?_, .nil⟩
  · obtain ⟨hindex, hnumber⟩ := hpart.bounds hsame
    simpa [start, hindex, hnumber] using hpart.inDegree_eq hsame
  · simp only [start]
    rw [List.filter_comm]
    refine List.rel_filter ?_ hpart.vertices
    intro index number hsame
    simp [hpart.inDegree_eq hsame]

/-- An edge inside is closed in both. -/
theorem Restricts.arrive (hpart : whole.Component inside same part)
    (h : Restricts inside same scheduler alone) {vertex number : Nat}
    (hsame : same vertex number) :
    Restricts inside same (scheduler.arrive vertex) (alone.arrive number) := by
  obtain ⟨hvertex, hnumber⟩ := h.bounds hsame
  have hcount := h.waiting hsame
  refine ⟨fun hother => ?_, fun {index other} hother => ?_, ?_, h.order⟩
  · simpa [Scheduler.arrive] using h.bounds hother
  · have hiff : index = vertex ↔ other = number := Relator.rel_eq hpart.unique hother hsame
    simp only [Scheduler.arrive]
    rw [getD_set_eq_ite hvertex, getD_set_eq_ite hnumber, hcount, h.waiting hother]
    simp only [hiff]
  · simp only [Scheduler.arrive, hcount]
    split
    · exact hpart.snoc h.ready hsame
    · exact h.ready

/-- To close an edge outside changes nothing inside. -/
theorem Restricts.arrive_outside (hpart : whole.Component inside same part)
    (h : Restricts inside same scheduler alone) {vertex : Nat} (houtside : inside vertex = false) :
    Restricts inside same (scheduler.arrive vertex) alone := by
  refine ⟨fun hother => ?_, fun {index other} hother => ?_, ?_, h.order⟩
  · simpa [Scheduler.arrive] using h.bounds hother
  · have hne : vertex ≠ index := by
      rintro rfl
      simp [hpart.inside_of_same hother] at houtside
    rw [← h.waiting hother]
    simp [Scheduler.arrive, List.getD_eq_getElem?_getD, List.getElem?_set_ne hne]
  · simp only [Scheduler.arrive]
    split
    · rw [filter_snoc_of_outside _ houtside]
      exact h.ready
    · exact h.ready

/-- The edges from a vertex inside are followed in the same order. -/
theorem Restricts.follow (hpart : whole.Component inside same part)
    (h : Restricts inside same scheduler alone) {vertex number : Nat}
    (hsame : same vertex number) :
    Restricts inside same (whole.edges.foldl (follow vertex) scheduler)
      (part.edges.foldl (follow number) alone) := by
  -- An edge from outside does not come from the vertex.
  have hfollowed : whole.edges.foldl (Scheduler.follow vertex) scheduler =
      (whole.edges.filter fun edge => inside edge.source).foldl (Scheduler.follow vertex)
        scheduler := by
    rw [List.foldl_filter]
    congr 1
    funext scheduler edge
    by_cases hsource : edge.source = vertex
    · simp [hsource, hpart.inside_of_same hsame]
    · simp [Scheduler.follow, hsource]
  rw [hfollowed]
  refine List.rel_foldl ?_ h hpart.edges
  intro scheduler alone h edge other ⟨hsource, htarget⟩
  have hiff : edge.source = vertex ↔ other.source = number :=
    Relator.rel_eq hpart.unique hsource hsame
  simp only [Scheduler.follow, hiff]
  split
  · exact h.arrive hpart htarget
  · exact h

/-- The edges from a vertex outside lead outside. -/
theorem Restricts.follow_outside (hpart : whole.Component inside same part)
    (h : Restricts inside same scheduler alone) {vertex : Nat} (houtside : inside vertex = false)
    {edges : List Edge} (hclosed : ∀ edge ∈ edges, inside edge.target = inside edge.source) :
    Restricts inside same (edges.foldl (Scheduler.follow vertex) scheduler) alone := by
  induction edges generalizing scheduler with
  | nil => exact h
  | cons edge rest ih =>
    obtain ⟨htarget, hrest⟩ := List.forall_mem_cons.mp hclosed
    refine ih ?_ hrest
    unfold Scheduler.follow
    split
    · rename_i hsource
      exact h.arrive_outside hpart (by rw [htarget, hsource, houtside])
    · exact h

/-- Whatever is at the head of the queue, the part has come to what it comes to with a round more
or without one. -/
theorem Restricts.visit (hpart : whole.Component inside same part)
    (h : Restricts inside same scheduler alone) {vertex : Nat} {rest : List Nat}
    (hready : scheduler.ready = vertex :: rest) :
    let visited := { scheduler with ready := rest }.visit whole.edges vertex
    Restricts inside same visited alone ∨
      ∃ number others, alone.ready = number :: others ∧
        Restricts inside same visited
          ({ alone with ready := others }.visit part.edges number) := by
  have hqueue := h.ready
  by_cases hinside : inside vertex = true
  · right
    rw [hready, List.filter_cons_of_pos hinside, List.forall₂_cons_left_iff] at hqueue
    obtain ⟨number, others, hsame, hrest, halone⟩ := hqueue
    have hlisted : Restricts inside same
        { scheduler with ready := rest, order := scheduler.order ++ [vertex] }
        { alone with ready := others, order := alone.order ++ [number] } :=
      ⟨h.bounds, h.waiting, hrest, hpart.snoc h.order hsame⟩
    exact ⟨number, others, halone, hlisted.follow hpart hsame⟩
  · left
    have houtside : inside vertex = false := by simpa using hinside
    rw [hready, List.filter_cons_of_neg hinside] at hqueue
    have hlisted : Restricts inside same
        { scheduler with ready := rest, order := scheduler.order ++ [vertex] } alone :=
      ⟨h.bounds, h.waiting, hqueue, (filter_snoc_of_outside _ houtside).symm ▸ h.order⟩
    exact hlisted.follow_outside hpart houtside hpart.closed

/-- A run of the whole graph has come, inside, to what some run of the part has come to. -/
theorem Restricts.run (hpart : whole.Component inside same part)
    (h : Restricts inside same scheduler alone) (rounds : Nat) :
    ∃ others, Restricts inside same (Scheduler.run whole.edges rounds scheduler)
      (Scheduler.run part.edges others alone) := by
  induction rounds generalizing scheduler alone with
  | zero => exact ⟨0, h⟩
  | succ rounds ih =>
    cases hready : scheduler.ready with
    | nil =>
      refine ⟨0, ?_⟩
      simpa only [Scheduler.run, hready] using h
    | cons vertex rest =>
      simp only [Scheduler.run, hready]
      rcases h.visit hpart hready with hvisited | ⟨number, left, halone, hvisited⟩
      · exact ih hvisited
      · obtain ⟨others, hrun⟩ := ih hvisited
        refine ⟨others + 1, ?_⟩
        simpa only [Scheduler.run, halone] using hrun

/-- Two runs that have emptied the queue have come to the same end. -/
theorem run_eq_of_ready_eq_nil {edges : List Edge} {rounds others : Nat}
    (h : (Scheduler.run edges rounds scheduler).ready = [])
    (h' : (Scheduler.run edges others scheduler).ready = []) :
    Scheduler.run edges others scheduler = Scheduler.run edges rounds scheduler := by
  induction rounds generalizing others scheduler with
  | zero =>
    cases others with
    | zero => rfl
    | succ others =>
      simp only [Scheduler.run] at h ⊢
      rw [h]
  | succ rounds ih =>
    cases hready : scheduler.ready with
    | nil => cases others <;> simp only [Scheduler.run, hready]
    | cons vertex rest =>
      cases others with
      | zero => simp [Scheduler.run, hready] at h'
      | succ others =>
        simp only [Scheduler.run, hready] at h h' ⊢
        exact ih h h'

end Scheduler

/-! ## Whole schedules -/

namespace SignalGraph
variable {whole part : SignalGraph}

/-- The schedule of the whole graph lists what is inside in the order in which the part is
scheduled by itself. -/
theorem Component.schedule (hpart : whole.Component inside same part) (h : whole.Joined)
    (h' : part.Joined) : List.Forall₂ same (whole.schedule.filter inside) part.schedule := by
  obtain ⟨others, hfinal⟩ := (Scheduler.restricts_start hpart).run hpart whole.vertices.length
  have hready := hfinal.ready
  rw [h.ready_run, List.filter_nil, List.forall₂_nil_left_iff] at hready
  have hend := Scheduler.run_eq_of_ready_eq_nil h'.ready_run hready
  have horder := hfinal.order
  rwa [hend] at horder

end SignalGraph

end

end Patchbay
