import Patchbay.Proofs.CheckedObjects
import Patchbay.Proofs.Layout
import Patchbay.Proofs.Schedule

/-!
# Signal chains without fault

A chain is built whenever a patch comes or goes. Edges into a vertex are counted down as their
sources are scheduled, each scheduled vertex is looked up for its ports, and flags tell which
inlets are fed and which host outputs are written. Here the counts are checked for falling
below zero, and every index for standing for an entry. No slots make a fault.

## Implementation notes

The counts start at the numbers of edges into the vertices, which all stand in memory, as do the
buffers that are counted.
-/

namespace Patchbay.Checked

/-! ## Schedules -/

/-- One edge into a vertex is no longer open. -/
def arrive (scheduler : Scheduler) (vertex : Nat) : Option Scheduler := do
  let waiting ← scheduler.waiting[vertex]?
  let count ← sub waiting 1
  let counts ← set scheduler.waiting vertex count
  some { scheduler with
    waiting := counts
    ready := if count = 0 then scheduler.ready ++ [vertex] else scheduler.ready }

/-- Follow an edge if it comes from a vertex. -/
def follow (vertex : Nat) (scheduler : Scheduler) (edge : Edge) : Option Scheduler :=
  if edge.source = vertex then arrive scheduler edge.target else some scheduler

/-- Schedule up to `rounds` vertices from the queue. -/
def runSchedule (edges : List Edge) : (rounds : Nat) → Scheduler → Option Scheduler
  | 0, scheduler => some scheduler
  | rounds + 1, scheduler =>
    match scheduler.ready with
    | [] => some scheduler
    | vertex :: rest => do
      let visited ← edges.foldlM (follow vertex)
        { scheduler with ready := rest, order := scheduler.order ++ [vertex] }
      runSchedule edges rounds visited

/-- The scheduled vertices of a graph, in order, and how many are left out. -/
def schedule (graph : SignalGraph) : Option (List Nat × Nat) := do
  let final ← runSchedule graph.edges graph.vertices.length (Scheduler.start graph)
  let left ← sub graph.vertices.length final.order.length
  some (final.order, left)

/-! ## Chains -/

/-- Give each scheduled vertex its buffers: inlets first, then outlets. -/
def layOut (graph : SignalGraph) : (next : Nat) → List Nat → Option (List ChainStep)
  | _, [] => some []
  | next, vertex :: rest => do
    let ⟨place, inlets, outlets⟩ ← graph.vertices[vertex]?
    let steps ← layOut graph (next + inlets + outlets) rest
    some
      ({ vertex, place
         inlets := List.range' next inlets
         outlets := List.range' (next + inlets) outlets } :: steps)

/-- The transfers into a step along edges that end at its vertex, in order, with the flags of
the buffers that are fed. -/
def gather (steps : List ChainStep) (step : ChainStep) :
    (flags : List Bool) → List Edge → Option (List Feed)
  | _, [] => some []
  | flags, edge :: rest =>
    match Chain.outletBuffer? steps edge.source edge.outlet, step.inlets[edge.inlet]? with
    | some source, some target => do
      let fed ← flags[target]?
      let flags ← set flags target true
      let feeds ← gather steps step flags rest
      some ({ source, target, copy := !fed } :: feeds)
    | _, _ => gather steps step flags rest

/-- A step with the transfers into it. -/
def withFeeds (graph : SignalGraph) (steps : List ChainStep) (step : ChainStep) :
    Option ChainStep := do
  let feeds ← gather steps step (List.replicate (Chain.bufferCount steps) false)
    (graph.edges.filter fun edge => edge.target == step.vertex)
  some { step with feeds }

/-- The routes of an output converter, with the flags of the outputs written to. -/
def outputRoutes (outputs : Nat) :
    (written : List Bool) → List Nat → Option (List Route × List Bool)
  | written, [] => some ([], written)
  | written, channel :: rest =>
    if channel < outputs then do
      let flag ← written[channel]?
      let written ← set written channel true
      let (routes, final) ← outputRoutes outputs written rest
      some ({ channel := some channel, copy := !flag } :: routes, final)
    else do
      let (routes, final) ← outputRoutes outputs written rest
      some ({ channel := none, copy := false } :: routes, final)

/-- The steps with their routes, and the flags of the outputs written to. -/
def withRoutes (slots : Slots) (format : AudioFormat) :
    (written : List Bool) → List ChainStep → Option (List ChainStep × List Bool)
  | written, [] => some ([], written)
  | written, step :: rest =>
    match slots.node? step.place with
    | some (.adc channels) => do
      let (steps, final) ← withRoutes slots format written rest
      some ({ step with routes := Chain.inputRoutes format.inputs channels } :: steps, final)
    | some (.dac channels) => do
      let (routes, written) ← outputRoutes format.outputs written channels
      let (steps, final) ← withRoutes slots format written rest
      some ({ step with routes } :: steps, final)
    | _ => do
      let (steps, final) ← withRoutes slots format written rest
      some (step :: steps, final)

/-- The chain of the open patches in a format. -/
def build (slots : Slots) (format : AudioFormat) : Option Chain := do
  let graph := SignalGraph.ofSlots slots
  let (order, unscheduled) ← schedule graph
  let steps ← layOut graph 0 order
  let fed ← steps.mapM (withFeeds graph steps)
  let (routed, written) ← withRoutes slots format (List.replicate format.outputs false) fed
  some
    { blockSize := format.blockSize
      buffers := List.replicate (Chain.bufferCount steps) (Block.silence format.blockSize)
      steps := routed
      written
      ticks := (slots.nodes.filter fun entry => entry.2.isTick).map Prod.fst
      unscheduled }

/-! ## No schedule makes a fault -/

section
variable {edges : List Edge} {size : Nat} {expected : Nat → Nat} {scheduler : Scheduler}

/-- An edge that is followed is still open. -/
theorem arrive_eq_some (h : Scheduler.Sound edges size expected scheduler) {vertex : Nat}
    (hvertex : vertex < size) (hopen : 0 < expected vertex) :
    arrive scheduler vertex = some (scheduler.arrive vertex) := by
  have hlt : vertex < scheduler.waiting.length := h.waiting_length.symm ▸ hvertex
  have hentry : scheduler.waiting.getD vertex 0 = scheduler.waiting[vertex] := by simp [hlt]
  have hwaiting : 1 ≤ scheduler.waiting[vertex] := by
    rw [← hentry, h.waiting_eq vertex hvertex]
    exact hopen
  simp only [arrive, Scheduler.arrive, List.getElem?_eq_getElem hlt, sub_eq_some hwaiting, hentry,
    set, if_pos hlt, Option.bind_eq_bind, Option.bind_some]

/-- All edges from a vertex that is listed are open when they are followed. -/
theorem follow_eq_some {source : Nat} (left : List Edge)
    (htargets : ∀ edge ∈ left, edge.target < size)
    (h : Scheduler.Sound edges size
      (fun vertex => expected vertex + Scheduler.edgesBetween left source vertex) scheduler) :
    left.foldlM (follow source) scheduler =
      some (left.foldl (fun scheduler edge =>
        if edge.source = source then scheduler.arrive edge.target else scheduler) scheduler) := by
  induction left generalizing scheduler with
  | nil => rfl
  | cons edge rest ih =>
    have hrest : ∀ edge ∈ rest, edge.target < size :=
      fun edge hedge => htargets edge (List.mem_cons_of_mem _ hedge)
    have htarget := htargets edge List.mem_cons_self
    rw [List.foldlM_cons, List.foldl_cons]
    by_cases hfrom : edge.source = source
    · subst hfrom
      have hopen : 0 < expected edge.target +
          Scheduler.edgesBetween (edge :: rest) edge.source edge.target := by
        rw [Scheduler.edgesBetween_cons_self]
        exact Nat.succ_pos _
      simp only [follow, if_true, arrive_eq_some h htarget hopen]
      exact ih hrest (h.arrive_edge htarget)
    · simp only [follow, if_neg hfrom]
      refine ih hrest (h.congr fun vertex _ => ?_)
      simp [Scheduler.edgesBetween, hfrom]

theorem runSchedule_eq_some (htargets : ∀ edge ∈ edges, edge.target < size) (rounds : Nat)
    (h : Scheduler.Sound edges size (Scheduler.openEdges edges scheduler.order) scheduler) :
    runSchedule edges rounds scheduler = some (Scheduler.run edges rounds scheduler) := by
  induction rounds generalizing scheduler with
  | zero => rfl
  | succ rounds ih =>
    unfold runSchedule Scheduler.run
    cases hready : scheduler.ready with
    | nil => rfl
    | cons vertex rest =>
      have hvisit := (h.visit htargets hready).1
      simp only [follow_eq_some edges htargets (h.list hready)]
      exact ih hvisit

/-- The vertices that are scheduled are no more than there are. -/
theorem schedule_eq_some {graph : SignalGraph} (h : graph.Joined) :
    schedule graph = some (graph.schedule, graph.vertices.length - graph.schedule.length) := by
  have htargets : ∀ edge ∈ graph.edges, edge.target < graph.vertices.length :=
    fun edge hedge => (h edge hedge).2
  have hrun : runSchedule graph.edges graph.vertices.length (Scheduler.start graph) =
      some (Scheduler.run graph.edges graph.vertices.length (Scheduler.start graph)) :=
    runSchedule_eq_some htargets _ (Scheduler.sound_start graph)
  have hlength : graph.schedule.length ≤ graph.vertices.length := by
    have hsubset : graph.schedule ⊆ List.range graph.vertices.length := fun vertex hvertex =>
      List.mem_range.mpr (SignalGraph.lt_length_of_mem_schedule h hvertex)
    have hle := (List.subperm_of_subset (SignalGraph.schedule_nodup h) hsubset).length_le
    rwa [List.length_range] at hle
  simp only [schedule, hrun, Option.bind_eq_bind, Option.bind_some]
  change (sub graph.vertices.length graph.schedule.length).bind _ = _
  rw [sub_eq_some hlength]
  rfl

end

/-! ## No chain makes a fault -/

/-- What is scheduled is a vertex. -/
theorem layOut_eq_some {graph : SignalGraph} {order : List Nat}
    (h : ∀ vertex ∈ order, vertex < graph.vertices.length) (next : Nat) :
    layOut graph next order = some (Chain.layOut graph next order) := by
  induction order generalizing next with
  | nil => rfl
  | cons vertex rest ih =>
    have hvertex : graph.vertices[vertex]? = some (graph.vertices.getD vertex default) := by
      simp [h vertex List.mem_cons_self]
    have hrest := ih fun other hother => h other (List.mem_cons_of_mem vertex hother)
    simp only [layOut, hvertex, hrest, Option.bind_eq_bind, Option.bind_some]
    rfl

/-- Flags stand for the buffers of a list. -/
structure Flags (count : Nat) (flags : List Bool) (fed : List Nat) : Prop where
  length_eq : flags.length = count
  getElem?_eq : ∀ buffer < count, flags[buffer]? = some (fed.contains buffer)

theorem Flags.raise {count : Nat} {flags : List Bool} {fed : List Nat} (h : Flags count flags fed)
    (target : Nat) : Flags count (flags.set target true) (target :: fed) where
  length_eq := by rw [List.length_set, h.length_eq]
  getElem?_eq := by
    intro buffer hbuffer
    have hlt : buffer < flags.length := h.length_eq.symm ▸ hbuffer
    by_cases hsame : target = buffer
    · subst hsame
      simp [hlt]
    · rw [List.getElem?_set_ne hsame, h.getElem?_eq buffer hbuffer, List.contains_cons,
        beq_false_of_ne (Ne.symm hsame), Bool.false_or]

/-- Inlets have buffers of the chain. -/
theorem gather_eq_some {steps : List ChainStep} {step : ChainStep} {count : Nat}
    (hinlets : ∀ buffer ∈ step.inlets, buffer < count) {flags : List Bool} {fed : List Nat}
    (h : Flags count flags fed) (edges : List Edge) :
    gather steps step flags edges = some (Chain.gather steps step fed edges) := by
  induction edges generalizing flags fed with
  | nil => rfl
  | cons edge rest ih =>
    unfold gather Chain.gather
    cases Chain.outletBuffer? steps edge.source edge.outlet with
    | none => exact ih h
    | some source =>
      cases htarget : step.inlets[edge.inlet]? with
      | none => exact ih h
      | some target =>
        have hlt : target < count := hinlets target (List.mem_of_getElem? htarget)
        have hset : set flags target true = some (flags.set target true) :=
          if_pos (h.length_eq.symm ▸ hlt)
        simp only [h.getElem?_eq target hlt, hset, ih (h.raise target), Option.bind_eq_bind,
          Option.bind_some]

theorem withFeeds_eq_some (graph : SignalGraph) {steps : List ChainStep} {step : ChainStep}
    (h : ∀ buffer ∈ step.inlets, buffer < Chain.bufferCount steps) :
    withFeeds graph steps step = some (Chain.withFeeds graph steps step) := by
  have hflags : Flags (Chain.bufferCount steps)
      (List.replicate (Chain.bufferCount steps) false) [] :=
    { length_eq := List.length_replicate
      getElem?_eq := fun buffer hbuffer => by simp [hbuffer] }
  rw [withFeeds, gather_eq_some h hflags]
  rfl

/-- Only outputs that there are have a flag. -/
theorem outputRoutes_eq_some {outputs : Nat} {written : List Bool}
    (h : written.length = outputs) (channels : List Nat) :
    outputRoutes outputs written channels = some (Chain.outputRoutes written channels) := by
  subst h
  generalize hcount : written.length = outputs
  induction channels generalizing written with
  | nil => rfl
  | cons channel rest ih =>
    unfold outputRoutes Chain.outputRoutes
    rw [hcount]
    split
    · rename_i hlt
      have hflag : written[channel]? = some (written.getD channel false) := by
        simp [hcount, hlt]
      have hset : set written channel true = some (written.set channel true) :=
        if_pos (hcount.symm ▸ hlt)
      have hrest : outputRoutes outputs (written.set channel true) rest =
          some (Chain.outputRoutes (written.set channel true) rest) :=
        ih (List.length_set.trans hcount)
      simp only [hflag, hset, hrest, Option.bind_eq_bind, Option.bind_some]
    · simp only [ih hcount, Option.bind_eq_bind, Option.bind_some]

theorem withRoutes_eq_some (slots : Slots) (format : AudioFormat) {written : List Bool}
    (h : written.length = format.outputs) (steps : List ChainStep) :
    withRoutes slots format written steps =
      some (Chain.withRoutes slots format.inputs written steps) := by
  induction steps generalizing written with
  | nil => rfl
  | cons step rest ih =>
    have hrest : withRoutes slots format written rest =
        some (Chain.withRoutes slots format.inputs written rest) := ih h
    unfold withRoutes Chain.withRoutes
    cases slots.node? step.place with
    | none =>
      rw [hrest]
      rfl
    | some node =>
      cases node with
      | dac channels =>
        have hlength := (Chain.length_outputRoutes written channels).trans h
        simp only [outputRoutes_eq_some h, ih hlength, Option.bind_eq_bind, Option.bind_some]
      | _ =>
        simp only [hrest]
        rfl

/-- No slots make a fault when a chain is built from them. -/
theorem build_eq_some (slots : Slots) (format : AudioFormat) :
    build slots format = some (Chain.build slots format) := by
  have hjoined := SignalGraph.joined_ofSlots slots
  have hlayOut : layOut (SignalGraph.ofSlots slots) 0 (SignalGraph.ofSlots slots).schedule =
      some (Chain.laidOut slots) :=
    layOut_eq_some (fun _ => SignalGraph.lt_length_of_mem_schedule hjoined) 0
  have hfed : (Chain.laidOut slots).mapM
      (withFeeds (SignalGraph.ofSlots slots) (Chain.laidOut slots)) =
        some (Chain.gathered slots) := by
    apply mapM_eq_some
    intro step hstep
    apply withFeeds_eq_some
    intro buffer hbuffer
    have hport : buffer ∈ (Chain.laidOut slots).flatMap ChainStep.ports :=
      List.mem_flatMap.mpr ⟨step, hstep, List.mem_append_left _ hbuffer⟩
    rw [Chain.laidOut, Chain.flatMap_ports_layOut, List.mem_range'_1] at hport
    exact hport.2.trans_eq (Nat.zero_add _)
  have hflags : (List.replicate format.outputs false).length = format.outputs :=
    List.length_replicate
  have hroutes := withRoutes_eq_some slots format hflags (Chain.gathered slots)
  simp only [build, schedule_eq_some hjoined, hlayOut, hfed, hroutes, Option.bind_eq_bind,
    Option.bind_some]
  rfl

end Patchbay.Checked
