import Mathlib.Data.List.Pairwise
import Patchbay.Proofs.Buffers
import Patchbay.Proofs.Settled

/-!
# Chains stay fresh

While an engine is prepared its chain is the one that building would give for the
patches as they are, and only the samples in the buffers have a history. Opening and
closing patches builds anew, messages change nothing that building reads, and blocks
write samples only.

The inlets that nothing feeds are never written to. They are silent in a chain just
built, and they stay so.
-/

namespace Patchbay
namespace Chain

/-! ## What building reads -/

theorem withRoutes_outline (slots : Slots) (inputs : Nat) (written : List Bool)
    (steps : List ChainStep) :
    withRoutes slots.outline inputs written steps = withRoutes slots inputs written steps := by
  induction steps generalizing written with
  | nil => rfl
  | cons step rest ih =>
    simp only [withRoutes, Slots.node?_outline, ih]
    cases slots.node? step.place with
    | none => rfl
    | some node =>
      cases node with
      | arithmetic operation right => cases right <;> rfl
      | _ => rfl

/-- Slots of one outline have the same chain. -/
theorem build_eq_of_outline {slots slots' : Slots} (h : slots'.outline = slots.outline)
    (format : AudioFormat) : build slots' format = build slots format := by
  have hticks : slots'.placesOf Node.isTick = slots.placesOf Node.isTick :=
    Slots.placesOf_eq_of_outline h Node.isTick_outline
  have hroutes (written : List Bool) (steps : List ChainStep) :
      withRoutes slots' format.inputs written steps =
        withRoutes slots format.inputs written steps := by
    rw [← withRoutes_outline slots', h, withRoutes_outline]
  simp only [build, SignalGraph.ofSlots_eq_of_outline h, hroutes]
  rw [show (slots'.nodes.filter fun entry => entry.2.isTick).map Prod.fst = _ from hticks]
  rfl

/-! ## Fresh chains -/

/-- A chain is the one that building gives, but for the samples in its buffers. -/
structure Fresh (slots : Slots) (format : AudioFormat) (chain : Chain) : Prop where
  blockSize_eq : chain.blockSize = (build slots format).blockSize
  steps_eq : chain.steps = (build slots format).steps
  written_eq : chain.written = (build slots format).written
  ticks_eq : chain.ticks = (build slots format).ticks
  unscheduled_eq : chain.unscheduled = (build slots format).unscheduled
  lengths_eq : chain.buffers.map List.length = (build slots format).buffers.map List.length

/-- The inlets that nothing feeds are silent. -/
def Quiet (chain : Chain) : Prop :=
  ∀ step ∈ chain.steps, ∀ buffer ∈ step.inlets, step.sourcesInto buffer = [] →
    chain.buffers.getD buffer [] = Block.silence chain.blockSize

section
variable {slots : Slots} {format : AudioFormat} {chain : Chain}

theorem fresh_build (slots : Slots) (format : AudioFormat) :
    (build slots format).Fresh slots format :=
  ⟨rfl, rfl, rfl, rfl, rfl, rfl⟩

theorem quiet_build (slots : Slots) (format : AudioFormat) : (build slots format).Quiet := by
  intro step hstep buffer hbuffer _
  have hlt := (runnable_build hstep).inlet_lt hbuffer
  have hbuffers : (build slots format).buffers =
      List.replicate (build slots format).buffers.length (Block.silence format.blockSize) := by
    simp [build]
  rw [hbuffers, List.getD_eq_getElem?_getD, List.getElem?_replicate, if_pos hlt]
  rfl

theorem Fresh.of_build {slots' : Slots} (h : chain.Fresh slots format)
    (hbuild : build slots' format = build slots format) : chain.Fresh slots' format :=
  ⟨hbuild ▸ h.blockSize_eq, hbuild ▸ h.steps_eq, hbuild ▸ h.written_eq,
    hbuild ▸ h.ticks_eq, hbuild ▸ h.unscheduled_eq, hbuild ▸ h.lengths_eq⟩

theorem Fresh.of_outline {slots' : Slots} (h : chain.Fresh slots format)
    (houtline : slots'.outline = slots.outline) : chain.Fresh slots' format :=
  h.of_build (build_eq_of_outline houtline format)

theorem Fresh.length_buffers (h : chain.Fresh slots format) :
    chain.buffers.length = (build slots format).buffers.length := by
  simpa using congrArg List.length h.lengths_eq

theorem Fresh.length_block (h : chain.Fresh slots format) :
    ∀ block ∈ chain.buffers, block.length = format.blockSize := by
  intro block hblock
  have hlength : block.length ∈ (build slots format).buffers.map List.length :=
    h.lengths_eq ▸ List.mem_map_of_mem hblock
  obtain ⟨built, hbuilt, heq⟩ := List.mem_map.mp hlength
  rw [← heq, List.eq_of_mem_replicate hbuilt, Block.silence, List.length_replicate]

theorem Fresh.runnable (h : chain.Fresh slots format) {step : ChainStep}
    (hstep : step ∈ chain.steps) : step.Runnable slots chain.buffers.length := by
  rw [h.length_buffers]
  exact runnable_build (h.steps_eq ▸ hstep)

theorem Fresh.placed (h : chain.Fresh slots format) {earlier later : List ChainStep}
    {step : ChainStep} (hsplit : chain.steps = earlier ++ step :: later) :
    step.Placed slots format earlier :=
  placed_build (h.steps_eq ▸ hsplit)

theorem Fresh.nodup_ports (h : chain.Fresh slots format) :
    (chain.steps.flatMap ChainStep.ports).Nodup :=
  h.steps_eq ▸ nodup_ports_build slots format

/-- No buffer belongs to two steps. -/
theorem Fresh.eq_of_mem_ports (h : chain.Fresh slots format) {step other : ChainStep}
    (hstep : step ∈ chain.steps) (hother : other ∈ chain.steps) {buffer : Nat}
    (hbuffer : buffer ∈ step.ports) (hbuffer' : buffer ∈ other.ports) : step = other := by
  have hapart := (List.pairwise_flatMap.mp h.nodup_ports).2
  have hsymm : Std.Symm fun a b : ChainStep => ∀ x ∈ a.ports, ∀ y ∈ b.ports, x ≠ y :=
    ⟨fun a b hab x hx y hy => (hab y hy x hx).symm⟩
  by_contra hne
  exact hapart.forall hstep hother hne buffer hbuffer buffer hbuffer' rfl

end

/-! ## Running a block -/

section
variable {slots : Slots} {format : AudioFormat} {chain : Chain}

/-- What a block starts from. -/
def opening (chain : Chain) (size : Nat) (outputs : List Block) : BlockState :=
  { buffers := chain.buffers, outputs := silenceUnwritten chain.written size outputs }

/-- What a block has come to once it has gone through some steps. -/
def after (chain : Chain) (slots : Slots) (size : Nat) (inputs outputs : List Block)
    (steps : List ChainStep) : BlockState :=
  steps.foldl (BlockState.runStep slots size inputs) (chain.opening size outputs)

theorem perform_eq (chain : Chain) (slots : Slots) (size : Nat) (inputs outputs : List Block) :
    chain.perform slots size inputs outputs =
      ({ chain with buffers := (chain.after slots size inputs outputs chain.steps).buffers },
        (chain.after slots size inputs outputs chain.steps).outputs) := rfl

theorem getElem?_silenceUnwritten (written : List Bool) (size : Nat) (outputs : List Block)
    (channel : Nat) :
    (silenceUnwritten written size outputs)[channel]? =
      outputs[channel]?.map fun output =>
        if written.getD channel false then output
        else Block.silence size ++ output.drop size := by
  simp [silenceUnwritten, Function.comp_def]

variable {inputs outputs : List Block}

theorem opening_sound (h : chain.Fresh slots format)
    (houtputs : ∀ output ∈ outputs, format.blockSize ≤ output.length) :
    (chain.opening format.blockSize outputs).Sound chain.buffers.length format.blockSize where
  count_eq := rfl
  block_length := h.length_block
  outputs_long := by
    intro output houtput
    obtain ⟨channel, hchannel⟩ := List.mem_iff_getElem?.mp houtput
    rw [opening, getElem?_silenceUnwritten, Option.map_eq_some_iff] at hchannel
    obtain ⟨given, hgiven, rfl⟩ := hchannel
    have hlong := houtputs given (List.mem_of_getElem? hgiven)
    split
    · exact hlong
    · simp [Block.silence]

/-- At every point of a block the buffers are as they should be. -/
theorem after_sound (h : chain.Fresh slots format)
    (hinputs : ∀ input ∈ inputs, format.blockSize ≤ input.length)
    (houtputs : ∀ output ∈ outputs, format.blockSize ≤ output.length) {steps : List ChainStep}
    (hsteps : ∀ step ∈ steps, step ∈ chain.steps) :
    (chain.after slots format.blockSize inputs outputs steps).Sound chain.buffers.length
      format.blockSize :=
  BlockState.run_sound (opening_sound h houtputs) hinputs fun step hstep =>
    h.runnable (hsteps step hstep)

theorem perform_fresh (h : chain.Fresh slots format)
    (hinputs : ∀ input ∈ inputs, format.blockSize ≤ input.length)
    (houtputs : ∀ output ∈ outputs, format.blockSize ≤ output.length) :
    (chain.perform slots format.blockSize inputs outputs).1.Fresh slots format := by
  have hsound := after_sound h hinputs houtputs fun _ hstep => hstep
  rw [perform_eq]
  refine ⟨h.blockSize_eq, h.steps_eq, h.written_eq, h.ticks_eq, h.unscheduled_eq, ?_⟩
  rw [← h.lengths_eq]
  have hlengths {buffers : List Block} (hcount : buffers.length = chain.buffers.length)
      (hblocks : ∀ block ∈ buffers, block.length = format.blockSize) :
      buffers.map List.length = List.replicate chain.buffers.length format.blockSize := by
    rw [List.eq_replicate_iff]
    refine ⟨(List.length_map _).trans hcount, ?_⟩
    intro length hlength
    obtain ⟨block, hblock, rfl⟩ := List.mem_map.mp hlength
    exact hblocks block hblock
  rw [hlengths hsound.count_eq hsound.block_length, hlengths rfl h.length_block]

/-- An inlet that nothing feeds has the same samples all through a block. -/
theorem buffer_after_of_unfed (h : chain.Fresh slots format) {steps : List ChainStep}
    (hsteps : ∀ step ∈ steps, step ∈ chain.steps) {step : ChainStep} (hstep : step ∈ chain.steps)
    {buffer : Nat} (hbuffer : buffer ∈ step.inlets) (hunfed : step.sourcesInto buffer = []) :
    (chain.after slots format.blockSize inputs outputs steps).buffer buffer =
      chain.buffers.getD buffer [] := by
  have hport : buffer ∈ step.ports := List.mem_append_left _ hbuffer
  apply BlockState.buffer_run
  · rintro other hother feed hfeed rfl
    have htarget : feed.target ∈ other.inlets :=
      (h.runnable (hsteps other hother)).targets_mem feed hfeed
    obtain rfl : step = other :=
      h.eq_of_mem_ports hstep (hsteps other hother) hport (List.mem_append_left _ htarget)
    have hsource : feed.source ∈ step.sourcesInto feed.target :=
      List.mem_map_of_mem (List.mem_filter.mpr ⟨hfeed, beq_self_eq_true feed.target⟩)
    simp [hunfed] at hsource
  · intro other hother houtlet
    obtain rfl : step = other :=
      h.eq_of_mem_ports hstep (hsteps other hother) hport (List.mem_append_right _ houtlet)
    have hports : step.ports.Nodup := (List.pairwise_flatMap.mp h.nodup_ports).1 step hstep
    exact (List.nodup_append.mp hports).2.2 buffer hbuffer buffer houtlet rfl

theorem perform_quiet (h : chain.Fresh slots format) (hquiet : chain.Quiet) :
    (chain.perform slots format.blockSize inputs outputs).1.Quiet := by
  intro step hstep buffer hbuffer hunfed
  exact (buffer_after_of_unfed h (fun _ hstep => hstep) hstep hbuffer hunfed).trans
    (hquiet step hstep buffer hbuffer hunfed)

end

end Chain

/-! ## Engines -/

namespace Engine
variable {engine : Engine}

/-- The chain of an engine fits its patches: it is empty if the engine is not prepared, and
fresh and quiet if it is. -/
structure InStep (engine : Engine) : Prop where
  unprepared : engine.format = none → engine.chain = {}
  fresh : ∀ format, engine.format = some format → engine.chain.Fresh engine.slots format
  quiet : ∀ format, engine.format = some format → engine.chain.Quiet

/-- Whatever has happened before, a chain just built fits. -/
theorem inStep_rebuildChain (engine : Engine) : engine.rebuildChain.1.InStep := by
  cases hformat : engine.format with
  | none =>
    have hrebuilt : engine.rebuildChain.1 = { engine with chain := {} } := by
      simp only [rebuildChain, hformat]
    rw [hrebuilt]
    refine ⟨fun _ => rfl, ?_, ?_⟩
    · intro format h
      simp [hformat] at h
    · intro format h
      simp [hformat] at h
  | some format =>
    have hrebuilt : engine.rebuildChain.1 =
        { engine with chain := Chain.build engine.slots format } := by
      simp only [rebuildChain, hformat]
    rw [hrebuilt]
    refine ⟨fun h => by simp [hformat] at h, ?_, fun _ _ => Chain.quiet_build _ _⟩
    intro format' h
    obtain rfl : format = format' := by simpa [hformat] using h
    exact Chain.fresh_build engine.slots format

/-- Messages keep the chain fitting. -/
theorem InStep.dispatch (h : engine.InStep) (work : Dispatch → Dispatch)
    (houtline : (engine.dispatch work).1.slots.outline = engine.slots.outline) :
    (engine.dispatch work).1.InStep where
  unprepared := h.unprepared
  fresh := fun format hformat => (h.fresh format hformat).of_outline houtline
  quiet := h.quiet

theorem Reachable.inStep (h : engine.Reachable) : engine.InStep := by
  induction h with
  | fresh => exact ⟨fun _ => rfl, fun _ h => (by cases h), fun _ h => (by cases h)⟩
  | openPatch patch _ _ => exact inStep_rebuildChain _
  | closePatch _ _ _ => exact inStep_rebuildChain _
  | prepare _ _ _ => exact inStep_rebuildChain _
  | release _ _ => exact ⟨fun _ => rfl, fun _ h => (by cases h), fun _ h => (by cases h)⟩
  | send tie message hreachable ih =>
    exact ih.dispatch _ (send_shows {} 0 hreachable.settled tie message).outline_eq
  | midi event hreachable ih =>
    exact ih.dispatch _ (midi_shows {} 0 hreachable.settled event).outline_eq
  | loadbang patch hreachable ih =>
    exact ih.dispatch _ (loadbang_shows {} 0 hreachable.settled patch).outline_eq
  | @perform engine format size inputs outputs hreachable hadmits ih =>
    obtain ⟨hprepared, rfl, hinputs, houtputs⟩ := hadmits
    have hfresh := ih.fresh format hprepared
    have hran : InStep
        { engine with
          chain := (engine.chain.perform engine.slots format.blockSize inputs outputs).1 } := by
      refine ⟨fun h => by simp [hprepared] at h, ?_, ?_⟩
      · intro format' h
        obtain rfl : format = format' := by simpa [hprepared] using h
        exact Chain.perform_fresh hfresh hinputs houtputs
      · intro _ _
        exact Chain.perform_quiet hfresh (ih.quiet format hprepared)
    exact hran.dispatch
      (fun dispatch => dispatch.bangAll engine.listeners engine.chain.ticks)
      (perform_shows {} 0 hreachable.settled format.blockSize inputs outputs).outline_eq

/-- The places that are banged after a block are those of the objects that fire then. -/
theorem InStep.ticks_eq (h : engine.InStep) {format : AudioFormat}
    (hformat : engine.format = some format) :
    engine.chain.ticks = engine.slots.placesOf Node.isTick :=
  (h.fresh format hformat).ticks_eq

end Engine

end Patchbay
