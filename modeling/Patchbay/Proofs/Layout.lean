import Mathlib.Data.List.Forall2
import Patchbay.Proofs.Feeders
import Patchbay.Signal.Chain

/-!
# The layout of a chain

A built chain numbers its buffers through: every port of a step has a buffer of its
own, and together they are all there are. What a step collects comes out of steps
before it, from the feeders of its inlets in connection order, and the first
transfer into a buffer copies. A step of an output converter copies to the channels
that no step before it writes to.

## Implementation notes

Feeds and routes are added to steps whose buffers are already laid out. A step
without them is its core, and the cores of a chain are the laid out steps.
-/

namespace Patchbay

/-- The buffers of a step: those of its inlets, then those of its outlets. -/
def ChainStep.ports (step : ChainStep) : List Nat := step.inlets ++ step.outlets

/-- A step without feeds and routes. -/
def ChainStep.core (step : ChainStep) : ChainStep := { step with feeds := [], routes := [] }

/-- The buffers that feed a buffer, in the order of the transfers. -/
def ChainStep.sourcesInto (step : ChainStep) (buffer : Nat) : List Nat :=
  (step.feeds.filter fun feed => feed.target == buffer).map Feed.source

/-- One of the steps has a given outlet at this buffer. -/
def Carries (steps : List ChainStep) (feeder : NodeRef × Nat) (buffer : Nat) : Prop :=
  ∃ step ∈ steps, step.place = feeder.1 ∧ step.outlets[feeder.2]? = some buffer

/-- A transfer copies exactly if its target is neither among `fed` nor that of a transfer
before it. -/
def CopiesFirst : (fed : List Nat) → List Feed → Prop
  | _, [] => True
  | fed, feed :: rest =>
    feed.copy = !fed.contains feed.target ∧ CopiesFirst (feed.target :: fed) rest

theorem exists_of_forall₂ {α β : Type*} {Rel : α → β → Prop} {items : List α} {others : List β}
    (h : List.Forall₂ Rel items others) {item : α} (hitem : item ∈ items) :
    ∃ other ∈ others, Rel item other := by
  induction h with
  | nil => cases hitem
  | cons hfirst _ ih =>
    rcases List.mem_cons.mp hitem with rfl | hrest
    · exact ⟨_, List.mem_cons_self, hfirst⟩
    · obtain ⟨other, hother, hrel⟩ := ih hrest
      exact ⟨other, List.mem_cons_of_mem _ hother, hrel⟩

namespace Chain

/-! ## Buffers -/

section
variable (graph : SignalGraph)

theorem map_vertex_layOut (next : Nat) (order : List Nat) :
    (layOut graph next order).map ChainStep.vertex = order := by
  induction order generalizing next with
  | nil => rfl
  | cons vertex rest ih => simp only [layOut, List.map_cons, ih]

theorem bufferCount_eq (steps : List ChainStep) :
    bufferCount steps = (steps.flatMap ChainStep.ports).length := by
  have hcount (count : Nat) :
      steps.foldl (fun count step => count + step.inlets.length + step.outlets.length) count =
        count + (steps.flatMap ChainStep.ports).length := by
    induction steps generalizing count with
    | nil => rfl
    | cons step rest ih =>
      simp only [List.foldl_cons, ih, List.flatMap_cons, ChainStep.ports, List.length_append]
      omega
  simpa [bufferCount] using hcount 0

/-- The buffers of all ports are numbered through. -/
theorem flatMap_ports_layOut (next : Nat) (order : List Nat) :
    (layOut graph next order).flatMap ChainStep.ports =
      List.range' next (bufferCount (layOut graph next order)) := by
  rw [bufferCount_eq]
  induction order generalizing next with
  | nil => rfl
  | cons vertex rest ih =>
    simp only [layOut, List.flatMap_cons, ChainStep.ports]
    rw [ih]
    simp only [List.length_range', List.range'_append_1, Nat.add_assoc]

/-- A laid out step has the place and the ports of its vertex, and nothing else yet. -/
theorem of_mem_layOut {next : Nat} {order : List Nat} {step : ChainStep}
    (h : step ∈ layOut graph next order) :
    let vertex := graph.vertices.getD step.vertex default
    step.place = vertex.place ∧ step.inlets.length = vertex.inlets ∧
      step.outlets.length = vertex.outlets ∧ step.core = step := by
  induction order generalizing next with
  | nil => cases h
  | cons vertex rest ih =>
    rcases List.mem_cons.mp h with rfl | hrest
    · exact ⟨rfl, List.length_range', List.length_range', rfl⟩
    · exact ih hrest

end

/-! ## Feeds -/

section
variable {steps : List ChainStep} {step : ChainStep} (fed : List Nat) (edges : List Edge)

theorem copiesFirst_gather : CopiesFirst fed (gather steps step fed edges) := by
  induction edges generalizing fed with
  | nil => trivial
  | cons edge rest ih =>
    simp only [gather]
    split
    · exact ⟨rfl, ih _⟩
    · exact ih fed

theorem target_mem_of_mem_gather {feed : Feed} (h : feed ∈ gather steps step fed edges) :
    feed.target ∈ step.inlets := by
  induction edges generalizing fed with
  | nil => cases h
  | cons edge rest ih =>
    simp only [gather] at h
    split at h
    · rcases List.mem_cons.mp h with rfl | hrest
      · exact List.mem_of_getElem? ‹step.inlets[edge.inlet]? = some _›
      · exact ih _ hrest
    · exact ih fed h

/-- An inlet collects along the edges that lead into it, in their order. -/
theorem sources_gather {Rel : Edge → Nat → Prop} (hinlets : step.inlets.Nodup) {inlet buffer : Nat}
    (hbuffer : step.inlets[inlet]? = some buffer)
    (hfound : ∀ edge ∈ edges, edge.inlet < step.inlets.length ∧
      ∃ source, outletBuffer? steps edge.source edge.outlet = some source ∧ Rel edge source) :
    List.Forall₂ Rel (edges.filter fun edge => edge.inlet == inlet)
      (((gather steps step fed edges).filter fun feed => feed.target == buffer).map
        Feed.source) := by
  induction edges generalizing fed with
  | nil => exact .nil
  | cons edge rest ih =>
    obtain ⟨hlt, source, hsource, hrel⟩ := hfound edge List.mem_cons_self
    have hrest := fun fed => ih fed fun other hother =>
      hfound other (List.mem_cons_of_mem edge hother)
    have htarget : ∃ target, step.inlets[edge.inlet]? = some target :=
      ⟨_, List.getElem?_eq_getElem hlt⟩
    obtain ⟨target, htarget⟩ := htarget
    simp only [gather, hsource, htarget]
    by_cases hinto : edge.inlet = inlet
    · have hsame : target = buffer := by
        subst hinto
        simpa [htarget] using hbuffer
      rw [List.filter_cons_of_pos (by simpa using hinto),
        List.filter_cons_of_pos (by simpa using hsame), List.map_cons]
      exact .cons hrel (hrest _)
    · have hother : target ≠ buffer := by
        rintro rfl
        exact hinto ((List.getElem?_inj hlt hinlets).mp (htarget.trans hbuffer.symm))
      rw [List.filter_cons_of_neg (by simpa using hinto),
        List.filter_cons_of_neg (by simpa using hother)]
      exact hrest _

/-- A scheduled vertex has its outlets where its step has them. -/
theorem outletBuffer?_eq_some (hnodup : (steps.map ChainStep.vertex).Nodup) (hstep : step ∈ steps)
    {outlet buffer : Nat} (hbuffer : step.outlets[outlet]? = some buffer) :
    outletBuffer? steps step.vertex outlet = some buffer := by
  rw [outletBuffer?, (find?_key_eq_some_iff hnodup).mpr ⟨hstep, rfl⟩]
  exact hbuffer

end

/-! ## Routes -/

section
variable (slots : Slots) (inputs : Nat)

theorem withRoutes_append (written : List Bool) (first second : List ChainStep) :
    withRoutes slots inputs written (first ++ second) =
      ((withRoutes slots inputs written first).1 ++
          (withRoutes slots inputs (withRoutes slots inputs written first).2 second).1,
        (withRoutes slots inputs (withRoutes slots inputs written first).2 second).2) := by
  induction first generalizing written with
  | nil => rfl
  | cons step rest ih =>
    simp only [List.cons_append, withRoutes]
    split <;> simp only [ih, List.cons_append]

/-- Routes are all that is added. -/
theorem map_withRoutes {α : Type*} (view : ChainStep → α)
    (hview : ∀ step routes, view { step with routes } = view step) (written : List Bool)
    (steps : List ChainStep) :
    (withRoutes slots inputs written steps).1.map view = steps.map view := by
  induction steps generalizing written with
  | nil => rfl
  | cons step rest ih =>
    simp only [withRoutes]
    split <;> simp only [List.map_cons, ih, hview]

end

/-- Whether a step is an output converter with a channel. -/
def converts (slots : Slots) (channel : Nat) (step : ChainStep) : Bool :=
  match slots.node? step.place with
  | some (.dac channels) => channels.contains channel
  | _ => false

theorem converts_eq_false {slots : Slots} {step : ChainStep}
    (hnode : ∀ channels, slots.node? step.place ≠ some (.dac channels)) (channel : Nat) :
    converts slots channel step = false := by
  unfold converts
  split
  · exact absurd ‹_› (hnode _)
  · rfl

/-- The route of one inlet of an output converter, by the flags of the outputs written to so
far. -/
def outputRoute (written : List Bool) (channel : Nat) : Route :=
  if channel < written.length then
    { channel := some channel, copy := !written.getD channel false }
  else { channel := none, copy := false }

/-- An output converter routes its inlets one by one, and each raises the flag of its channel. -/
theorem outputRoutes_cons (written : List Bool) (channel : Nat) (rest : List Nat) :
    outputRoutes written (channel :: rest) =
      let later := outputRoutes (written.set channel true) rest
      (outputRoute written channel :: later.1, later.2) := by
  simp only [outputRoutes, outputRoute]
  split
  · rfl
  · rename_i hchannel
    rw [List.set_eq_of_length_le (Nat.le_of_not_lt hchannel)]

theorem getD_set_true (written : List Bool) (first : Nat) {channel : Nat}
    (hchannel : channel < written.length) :
    (written.set first true).getD channel false =
      (written.getD channel false || channel == first) := by
  by_cases heq : channel = first
  · subst heq
    simp [hchannel]
  · simp [List.getD_eq_getElem?_getD, List.getElem?_set_ne (Ne.symm heq), heq]

theorem length_outputRoutes (written : List Bool) (channels : List Nat) :
    (outputRoutes written channels).2.length = written.length := by
  induction channels generalizing written with
  | nil => rfl
  | cons channel rest ih =>
    rw [outputRoutes_cons]
    exact (ih _).trans List.length_set

/-- A converter raises the flags of its channels. -/
theorem getD_outputRoutes (written : List Bool) (channels : List Nat) {channel : Nat}
    (hchannel : channel < written.length) :
    (outputRoutes written channels).2.getD channel false =
      (written.getD channel false || channels.contains channel) := by
  induction channels generalizing written with
  | nil => simp [outputRoutes]
  | cons first rest ih =>
    have hlength : channel < (written.set first true).length := by
      rwa [List.length_set]
    rw [outputRoutes_cons, ih _ hlength, getD_set_true written first hchannel, Bool.or_assoc,
      List.contains_cons]

section
variable (slots : Slots) (inputs : Nat)

theorem length_withRoutes (written : List Bool) (steps : List ChainStep) :
    (withRoutes slots inputs written steps).2.length = written.length := by
  induction steps generalizing written with
  | nil => rfl
  | cons step rest ih =>
    simp only [withRoutes]
    split
    · exact ih written
    · exact (ih _).trans (length_outputRoutes written _)
    · exact ih written

/-- A flag is raised once a converter has its channel. -/
theorem getD_withRoutes (written : List Bool) (steps : List ChainStep) {channel : Nat}
    (hchannel : channel < written.length) :
    (withRoutes slots inputs written steps).2.getD channel false =
      (written.getD channel false || steps.any (converts slots channel)) := by
  induction steps generalizing written with
  | nil => simp [withRoutes]
  | cons step rest ih =>
    simp only [withRoutes, List.any_cons]
    split
    · rename_i channels hnode
      rw [ih _ hchannel]
      simp [converts, hnode]
    · rename_i channels hnode
      rw [ih _ (by rwa [length_outputRoutes]), getD_outputRoutes written channels hchannel]
      simp only [converts, hnode, Bool.or_assoc]
    · rename_i hadc hdac
      rw [ih _ hchannel, converts_eq_false hdac, Bool.false_or]

theorem any_converts_withRoutes (written : List Bool) (steps : List ChainStep) (channel : Nat) :
    (withRoutes slots inputs written steps).1.any (converts slots channel) =
      steps.any (converts slots channel) := by
  have hviews := map_withRoutes slots inputs (converts slots channel) (fun _ _ => rfl) written steps
  simpa [List.any_map] using congrArg (fun flags => flags.any id) hviews

/-- A step with routes got them behind the flags that the steps before it raised. -/
theorem withRoutes_split {written : List Bool} {steps earlier later : List ChainStep}
    {step : ChainStep}
    (h : (withRoutes slots inputs written steps).1 = earlier ++ step :: later) :
    ∃ before middle after, steps = before ++ middle :: after ∧
      earlier = (withRoutes slots inputs written before).1 ∧
      [step] = (withRoutes slots inputs (withRoutes slots inputs written before).2 [middle]).1 := by
  have hlength (written : List Bool) (steps : List ChainStep) :
      (withRoutes slots inputs written steps).1.length = steps.length := by
    simpa using congrArg List.length
      (map_withRoutes slots inputs (fun _ => ()) (fun _ _ => rfl) written steps)
  have htotal : earlier.length < steps.length := by
    rw [← hlength written steps, h]
    simp
  let before := steps.take earlier.length
  let middle := steps[earlier.length]
  let after := steps.drop (earlier.length + 1)
  have hsteps : steps = before ++ ([middle] ++ after) := by
    simp [before, middle, after]
  rw [hsteps, withRoutes_append, withRoutes_append] at h
  obtain ⟨hearlier, hrest⟩ := List.append_inj h (by
    rw [hlength, List.length_take, Nat.min_eq_left (Nat.le_of_lt htotal)])
  have hhead :
      (withRoutes slots inputs (withRoutes slots inputs written before).2 [middle]).1 ++ _ =
        [step] ++ later := hrest
  obtain ⟨hstep, -⟩ := List.append_inj hhead (hlength _ [middle])
  exact ⟨before, middle, after, hsteps, hearlier.symm, hstep.symm⟩

end

/-! ## Built chains -/

end Chain

/-- What a step is like behind the `earlier` steps of a chain. -/
structure ChainStep.Placed (slots : Slots) (format : AudioFormat) (earlier : List ChainStep)
    (step : ChainStep) : Prop where
  node : ∃ node, slots.node? step.place = some node ∧ node.isSignal = true ∧
    node.signalPorts = (step.inlets.length, step.outlets.length)
  copies : CopiesFirst [] step.feeds
  targets : ∀ feed ∈ step.feeds, feed.target ∈ step.inlets
  carries : ∀ inlet buffer, step.inlets[inlet]? = some buffer →
    List.Forall₂ (Carries earlier) (slots.feeders step.place inlet) (step.sourcesInto buffer)
  adc : ∀ channels, slots.node? step.place = some (.adc channels) →
    step.routes = Chain.inputRoutes format.inputs channels
  dac : ∀ channels, slots.node? step.place = some (.dac channels) →
    ∃ flags : List Bool, flags.length = format.outputs ∧
      (∀ channel < format.outputs,
        flags.getD channel false = earlier.any (Chain.converts slots channel)) ∧
      step.routes = (Chain.outputRoutes flags channels).1

/-- Whatever a step collects comes from a step before it. -/
theorem ChainStep.Placed.exists_carrier {slots : Slots} {format : AudioFormat}
    {earlier : List ChainStep} {step : ChainStep} (h : step.Placed slots format earlier)
    {feed : Feed} (hfeed : feed ∈ step.feeds) : ∃ feeder, Carries earlier feeder feed.source := by
  obtain ⟨inlet, hinlet⟩ := List.mem_iff_getElem?.mp (h.targets feed hfeed)
  have hsource : feed.source ∈ step.sourcesInto feed.target :=
    List.mem_map_of_mem (List.mem_filter.mpr ⟨hfeed, beq_self_eq_true feed.target⟩)
  obtain ⟨feeder, -, hcarries⟩ :=
    exists_of_forall₂ (h.carries inlet feed.target hinlet).flip hsource
  exact ⟨feeder, hcarries⟩

/-- Whatever feeds an inlet of a step is an outlet of a step before it. -/
theorem ChainStep.Placed.exists_carried {slots : Slots} {format : AudioFormat}
    {earlier : List ChainStep} {step : ChainStep} (h : step.Placed slots format earlier)
    {inlet : Nat} (hinlet : inlet < step.inlets.length) {feeder : NodeRef × Nat}
    (hfeeder : feeder ∈ slots.feeders step.place inlet) :
    ∃ buffer, Carries earlier feeder buffer := by
  obtain ⟨buffer, -, hcarries⟩ :=
    exists_of_forall₂ (h.carries inlet _ (List.getElem?_eq_getElem hinlet)) hfeeder
  exact ⟨buffer, hcarries⟩

/-- The places of the scheduled objects, in order. -/
def Slots.scheduled (slots : Slots) : List NodeRef :=
  (SignalGraph.ofSlots slots).schedule.map fun vertex =>
    ((SignalGraph.verticesOf slots).getD vertex default).place

namespace Chain
variable {slots : Slots} {format : AudioFormat}

/-- The steps of a chain before they get feeds and routes. -/
def laidOut (slots : Slots) : List ChainStep :=
  layOut (SignalGraph.ofSlots slots) 0 (SignalGraph.ofSlots slots).schedule

/-- The steps of a chain before they get routes. -/
def gathered (slots : Slots) : List ChainStep :=
  (laidOut slots).map (withFeeds (SignalGraph.ofSlots slots) (laidOut slots))

theorem build_steps (slots : Slots) (format : AudioFormat) :
    (build slots format).steps =
      (withRoutes slots format.inputs (List.replicate format.outputs false) (gathered slots)).1 :=
  rfl

theorem map_core_build (slots : Slots) (format : AudioFormat) :
    (build slots format).steps.map ChainStep.core = laidOut slots := by
  rw [build_steps, map_withRoutes _ _ _ fun _ _ => rfl, gathered, List.map_map]
  conv => rhs; rw [← List.map_id (laidOut slots)]
  apply List.map_congr_left
  intro step hstep
  exact (of_mem_layOut _ hstep).2.2.2

theorem map_vertex_build (slots : Slots) (format : AudioFormat) :
    (build slots format).steps.map ChainStep.vertex = (SignalGraph.ofSlots slots).schedule := by
  have hcores := congrArg (List.map ChainStep.vertex) (map_core_build slots format)
  rw [List.map_map, laidOut, map_vertex_layOut] at hcores
  exact hcores

/-- Every buffer of a chain belongs to one port of one step. -/
theorem flatMap_ports_build (slots : Slots) (format : AudioFormat) :
    (build slots format).steps.flatMap ChainStep.ports =
      List.range (build slots format).buffers.length := by
  have hports : (build slots format).steps.flatMap ChainStep.ports =
      (laidOut slots).flatMap ChainStep.ports := by
    rw [← map_core_build slots format, List.flatMap_map]
    rfl
  have hcount : (build slots format).buffers.length = bufferCount (laidOut slots) :=
    List.length_replicate
  rw [hports, hcount, List.range_eq_range', laidOut, flatMap_ports_layOut]

theorem nodup_ports_build (slots : Slots) (format : AudioFormat) :
    ((build slots format).steps.flatMap ChainStep.ports).Nodup :=
  flatMap_ports_build slots format ▸ List.nodup_range

theorem map_place_build (slots : Slots) (format : AudioFormat) :
    (build slots format).steps.map ChainStep.place = slots.scheduled := by
  rw [Slots.scheduled, ← map_vertex_build slots format, List.map_map]
  apply List.map_congr_left
  intro step hstep
  have hcore : step.core ∈ laidOut slots :=
    map_core_build slots format ▸ List.mem_map_of_mem hstep
  exact (of_mem_layOut _ hcore).1

/-- A step has the place and the ports of its vertex. -/
theorem exists_vertex_of_mem_build {step : ChainStep} (h : step ∈ (build slots format).steps) :
    ∃ vertex, (SignalGraph.verticesOf slots)[step.vertex]? = some vertex ∧
      step.place = vertex.place ∧ step.inlets.length = vertex.inlets ∧
      step.outlets.length = vertex.outlets := by
  have hcore : step.core ∈ laidOut slots :=
    map_core_build slots format ▸ List.mem_map_of_mem h
  have hscheduled : step.vertex ∈ (SignalGraph.ofSlots slots).schedule :=
    map_vertex_build slots format ▸ List.mem_map_of_mem h
  have hlt : step.vertex < (SignalGraph.verticesOf slots).length :=
    SignalGraph.lt_length_of_mem_schedule (SignalGraph.joined_ofSlots slots) hscheduled
  obtain ⟨hplace, hinlets, houtlets, -⟩ := of_mem_layOut _ hcore
  have hget : (SignalGraph.ofSlots slots).vertices.getD step.vertex default =
      (SignalGraph.verticesOf slots)[step.vertex] := by
    rw [List.getD_eq_getElem?_getD, List.getElem?_eq_getElem (by exact hlt)]
    rfl
  exact ⟨_, List.getElem?_eq_getElem hlt, hget ▸ hplace, hget ▸ hinlets, hget ▸ houtlets⟩

theorem node?_of_mem_build {step : ChainStep} (h : step ∈ (build slots format).steps) :
    ∃ node, slots.node? step.place = some node ∧ node.isSignal = true ∧
      node.signalPorts = (step.inlets.length, step.outlets.length) := by
  obtain ⟨vertex, hvertex, hplace, hinlets, houtlets⟩ := exists_vertex_of_mem_build h
  rw [hplace, hinlets, houtlets]
  exact SignalGraph.node?_of_mem_verticesOf (List.mem_of_getElem? hvertex)

theorem nodup_inlets_of_mem_build {step : ChainStep} (h : step ∈ (build slots format).steps) :
    step.inlets.Nodup := by
  have hports : step.ports.Nodup :=
    (List.pairwise_flatMap.mp (nodup_ports_build slots format)).1 step h
  exact (List.nodup_append.mp hports).1

/-- The step behind an edge into a later step, and the buffer the edge comes from. -/
theorem exists_source_of_edge {earlier later : List ChainStep} {step : ChainStep}
    (h : (build slots format).steps = earlier ++ step :: later) {edge : Edge}
    (hedge : edge ∈ (SignalGraph.ofSlots slots).edges) (htarget : edge.target = step.vertex) :
    edge.inlet < step.inlets.length ∧
      ∃ source, outletBuffer? (laidOut slots) edge.source edge.outlet = some source ∧
        Carries earlier (SignalGraph.origin (SignalGraph.verticesOf slots) edge) source := by
  have hmem : step ∈ (build slots format).steps := by simp [h]
  obtain ⟨tail, head, htail, hhead, houtlet, hinlet⟩ :=
    SignalGraph.exists_ends_of_mem_edges hedge
  have horder : (SignalGraph.ofSlots slots).schedule =
      earlier.map ChainStep.vertex ++ step.vertex :: later.map ChainStep.vertex := by
    rw [← map_vertex_build slots format, h, List.map_append, List.map_cons]
  have hbefore := SignalGraph.schedule_ordered (SignalGraph.joined_ofSlots slots)
    _ _ _ horder edge hedge htarget
  obtain ⟨other, hother, hvertex⟩ := List.mem_map.mp hbefore
  have hothermem : other ∈ (build slots format).steps := by simp [h, hother]
  constructor
  · obtain ⟨vertex, hstep, -, hinlets, -⟩ := exists_vertex_of_mem_build hmem
    obtain rfl : head = vertex := by simpa [htarget, hstep] using hhead.symm
    rwa [hinlets]
  · obtain ⟨vertex, hsource, hplace, -, houtlets⟩ := exists_vertex_of_mem_build hothermem
    obtain rfl : tail = vertex := by simpa [← hvertex, hsource] using htail.symm
    have hbuffer : other.outlets[edge.outlet]? = some _ :=
      List.getElem?_eq_getElem (houtlets ▸ houtlet)
    refine ⟨_, ?_, other, hother, ?_, hbuffer⟩
    · have hnodup : ((laidOut slots).map ChainStep.vertex).Nodup := by
        rw [laidOut, map_vertex_layOut]
        exact SignalGraph.schedule_nodup (SignalGraph.joined_ofSlots slots)
      have hcore : other.core ∈ laidOut slots :=
        map_core_build slots format ▸ List.mem_map_of_mem hothermem
      rw [← hvertex]
      exact outletBuffer?_eq_some hnodup hcore hbuffer
    · rw [hplace, SignalGraph.origin, List.getD_eq_getElem?_getD, htail]
      rfl

/-- No object is scheduled twice. -/
theorem nodup_scheduled (slots : Slots) : slots.scheduled.Nodup := by
  have hjoined := SignalGraph.joined_ofSlots slots
  apply List.pairwise_map.mpr
  apply (SignalGraph.schedule_nodup hjoined).imp_of_mem
  intro a b ha hb hne heq
  have hlt {vertex : Nat} (h : vertex ∈ (SignalGraph.ofSlots slots).schedule) :
      vertex < (SignalGraph.verticesOf slots).length :=
    SignalGraph.lt_length_of_mem_schedule hjoined h
  rw [List.getD_eq_getElem?_getD, List.getD_eq_getElem?_getD,
    List.getElem?_eq_getElem (hlt ha), List.getElem?_eq_getElem (hlt hb)] at heq
  have hplaces := SignalGraph.nodup_place_verticesOf slots
  apply hne
  apply (List.getElem?_inj (by simpa using hlt ha) hplaces).mp
  rw [List.getElem?_map, List.getElem?_map, List.getElem?_eq_getElem (hlt ha),
    List.getElem?_eq_getElem (hlt hb)]
  exact congrArg some heq

/-- A step has the transfers that were gathered for a step laid out for the same vertex. -/
theorem exists_laid_of_mem_build {step : ChainStep} (h : step ∈ (build slots format).steps) :
    ∃ laid : ChainStep, step.vertex = laid.vertex ∧ step.inlets = laid.inlets ∧
      step.feeds = gather (laidOut slots) laid []
        ((SignalGraph.ofSlots slots).edges.filter fun edge => edge.target == laid.vertex) := by
  let view (step : ChainStep) := (step.vertex, step.inlets, step.feeds)
  have hviews : (build slots format).steps.map view = (gathered slots).map view := by
    rw [build_steps]
    exact map_withRoutes slots format.inputs view (fun _ _ => rfl) _ _
  obtain ⟨middle, hmiddle, hview⟩ := List.mem_map.mp (hviews ▸ List.mem_map_of_mem h)
  obtain ⟨laid, -, rfl⟩ := List.mem_map.mp hmiddle
  obtain ⟨hvertex, hrest⟩ := Prod.mk.inj hview.symm
  obtain ⟨hinlets, hfeeds⟩ := Prod.mk.inj hrest
  exact ⟨laid, hvertex, hinlets, hfeeds⟩

/-- The transfers into an inlet carry what its feeders send, in order. -/
theorem carries_build {earlier later : List ChainStep} {step : ChainStep}
    (h : (build slots format).steps = earlier ++ step :: later) {inlet buffer : Nat}
    (hbuffer : step.inlets[inlet]? = some buffer) :
    List.Forall₂ (Carries earlier) (slots.feeders step.place inlet) (step.sourcesInto buffer) := by
  have hmem : step ∈ (build slots format).steps := by simp [h]
  obtain ⟨laid, hvertex, hinlets, hfeeds⟩ := exists_laid_of_mem_build hmem
  obtain ⟨vertex, hget, hplace, hcount, -⟩ := exists_vertex_of_mem_build hmem
  have hlt : inlet < vertex.inlets := hcount ▸ (List.getElem?_eq_some_iff.mp hbuffer).1
  rw [hplace, ← SignalGraph.map_origin_edges hget hlt, List.forall₂_map_left_iff]
  have hedges : ((SignalGraph.ofSlots slots).edges.filter fun edge =>
        edge.target == step.vertex && edge.inlet == inlet) =
      ((SignalGraph.ofSlots slots).edges.filter fun edge =>
        edge.target == laid.vertex).filter fun edge => edge.inlet == inlet := by
    rw [List.filter_filter, hvertex]
    congr 1
    funext edge
    exact Bool.and_comm _ _
  rw [hedges, ChainStep.sourcesInto, hfeeds]
  apply sources_gather [] _ (hinlets ▸ nodup_inlets_of_mem_build hmem) (hinlets ▸ hbuffer)
  intro edge hedge
  obtain ⟨hedge, htarget⟩ := List.mem_filter.mp hedge
  rw [← hinlets]
  exact exists_source_of_edge h hedge (hvertex ▸ (beq_iff_eq.mp htarget))

/-- Every step of a built chain stands as it should behind the steps before it. -/
theorem placed_build {earlier later : List ChainStep} {step : ChainStep}
    (h : (build slots format).steps = earlier ++ step :: later) :
    step.Placed slots format earlier := by
  have hmem : step ∈ (build slots format).steps := by simp [h]
  obtain ⟨laid, -, hinlets, hfeeds⟩ := exists_laid_of_mem_build hmem
  obtain ⟨before, middle, after, -, hearlier, hstep⟩ :=
    withRoutes_split slots format.inputs ((build_steps slots format).symm.trans h)
  have hplace : step.place = middle.place := by
    have hplaces := congrArg (List.map ChainStep.place) hstep
    rw [map_withRoutes _ _ ChainStep.place fun _ _ => rfl] at hplaces
    exact List.head_eq_of_cons_eq hplaces
  refine ⟨node?_of_mem_build hmem, ?_, ?_, fun _ _ => carries_build h, ?_, ?_⟩
  · rw [hfeeds]
    exact copiesFirst_gather [] _
  · intro feed hfeed
    rw [hfeeds] at hfeed
    rw [hinlets]
    exact target_mem_of_mem_gather [] _ hfeed
  · intro channels hnode
    rw [hplace] at hnode
    simp only [withRoutes, hnode] at hstep
    exact congrArg ChainStep.routes (List.head_eq_of_cons_eq hstep)
  · intro channels hnode
    rw [hplace] at hnode
    simp only [withRoutes, hnode] at hstep
    refine ⟨_, (length_withRoutes _ _ _ _).trans List.length_replicate, ?_,
      congrArg ChainStep.routes (List.head_eq_of_cons_eq hstep)⟩
    intro channel hchannel
    rw [getD_withRoutes _ _ _ _ (by simpa using hchannel), hearlier, any_converts_withRoutes]
    simp [hchannel]

theorem length_written_build (slots : Slots) (format : AudioFormat) :
    (build slots format).written.length = format.outputs :=
  (length_withRoutes slots format.inputs _ _).trans List.length_replicate

/-- A host output is flagged exactly if a step is a converter with its channel. -/
theorem getD_written_build (slots : Slots) (format : AudioFormat) {channel : Nat}
    (hchannel : channel < format.outputs) :
    (build slots format).written.getD channel false =
      (build slots format).steps.any (converts slots channel) := by
  have hflags : (build slots format).written =
      (withRoutes slots format.inputs (List.replicate format.outputs false) (gathered slots)).2 :=
    rfl
  rw [hflags, getD_withRoutes _ _ _ _ (by simpa using hchannel), build_steps,
    any_converts_withRoutes]
  simp [hchannel]

end Chain

end Patchbay
