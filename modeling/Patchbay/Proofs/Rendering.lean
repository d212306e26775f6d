import Mathlib.Data.List.Induction
import Patchbay.Proofs.Freshness
import Patchbay.Proofs.Samples

/-!
# Blocks follow the signal flow

Running the steps of a fresh chain leaves samples in the buffers that solve the
equations of the signal flow at every moment of the block, and it leaves in the host
outputs what the flow says. The buffers of a step are written when the step runs and
not again in the same block, so what a step has read is what stands there at the end.
-/

namespace Patchbay

/-- A block on its way through a chain: the chain, the objects as they are, and what the host
brings. -/
structure BlockRun where
  chain : Chain
  slots : Slots
  format : AudioFormat
  inputs : List Block
  outputs : List Block

namespace BlockRun
open Chain BlockState SignalFlow

/-- What the block has come to once it has gone through some steps. -/
def after (run : BlockRun) (steps : List ChainStep) : BlockState :=
  run.chain.after run.slots run.format.blockSize run.inputs run.outputs steps

/-- What the block has come to when all steps have run. -/
def final (run : BlockRun) : BlockState := run.after run.chain.steps

/-- What a step works on: everything has been collected that feeds it. -/
def collected (run : BlockRun) (earlier : List ChainStep) (step : ChainStep) : BlockState :=
  step.feeds.foldl BlockState.feed (run.after earlier)

/-- The samples at the outlets of all objects when all steps have run. -/
def levels (run : BlockRun) (time : Nat) : Levels := fun place outlet =>
  (((run.chain.steps.find? fun step => step.place == place).bind fun step =>
    step.outlets[outlet]?).map (run.final.sample time)).getD 0

/-- A block can be run: the chain is fresh and quiet, and the host buffers are long enough. -/
structure Ready (run : BlockRun) : Prop where
  fresh : run.chain.Fresh run.slots run.format
  quiet : run.chain.Quiet
  inputs_long : ∀ input ∈ run.inputs, run.format.blockSize ≤ input.length
  outputs_long : ∀ output ∈ run.outputs, run.format.blockSize ≤ output.length

variable {run : BlockRun} {earlier later : List ChainStep} {step : ChainStep} {time : Nat}

/-! ## Steps one by one -/

theorem Ready.runnable (h : run.Ready) (hsplit : run.chain.steps = earlier ++ step :: later) :
    step.Runnable run.slots run.chain.buffers.length :=
  h.fresh.runnable (by simp [hsplit])

theorem Ready.placed (h : run.Ready) (hsplit : run.chain.steps = earlier ++ step :: later) :
    step.Placed run.slots run.format earlier :=
  h.fresh.placed hsplit

theorem Ready.nodup_ports (h : run.Ready) (hsplit : run.chain.steps = earlier ++ step :: later) :
    step.ports.Nodup :=
  (List.pairwise_flatMap.mp h.fresh.nodup_ports).1 step (by simp [hsplit])

theorem Ready.sound (h : run.Ready) (hsplit : run.chain.steps = earlier ++ later) :
    (run.after earlier).Sound run.chain.buffers.length run.format.blockSize :=
  after_sound h.fresh h.inputs_long h.outputs_long fun step hstep => by simp [hsplit, hstep]

theorem Ready.collected_sound (h : run.Ready)
    (hsplit : run.chain.steps = earlier ++ step :: later) :
    (run.collected earlier step).Sound run.chain.buffers.length run.format.blockSize := by
  have hrunnable := h.runnable hsplit
  exact feeds_sound (h.sound hsplit) hrunnable.sources_lt fun _ hfeed =>
    hrunnable.target_lt hfeed

/-- One step more: the object runs on what has been collected. -/
theorem after_snoc (run : BlockRun) (earlier : List ChainStep) {step : ChainStep} {node : Node}
    (hnode : run.slots.node? step.place = some node) :
    run.after (earlier ++ [step]) =
      (run.collected earlier step).runNode run.format.blockSize run.inputs step node := by
  simp only [after, Chain.after, List.foldl_append, List.foldl_cons, List.foldl_nil, runStep,
    hnode, collected]

/-! ## Buffers are written once -/

theorem Ready.apart (h : run.Ready) (hsplit : run.chain.steps = earlier ++ later)
    {other : ChainStep} (hstep : step ∈ earlier) (hother : other ∈ later) {buffer buffer' : Nat}
    (hbuffer : buffer ∈ step.ports) (hbuffer' : buffer' ∈ other.ports) : buffer ≠ buffer' := by
  have hnodup := h.fresh.nodup_ports
  rw [hsplit, List.flatMap_append, List.nodup_append] at hnodup
  exact hnodup.2.2 buffer (List.mem_flatMap.mpr ⟨step, hstep, hbuffer⟩) buffer'
    (List.mem_flatMap.mpr ⟨other, hother, hbuffer'⟩)

/-- The buffers of a step that has run stay as they are. -/
theorem Ready.buffer_final (h : run.Ready) (hsplit : run.chain.steps = earlier ++ later)
    (hstep : step ∈ earlier) {buffer : Nat} (hbuffer : buffer ∈ step.ports) :
    run.final.buffer buffer = (run.after earlier).buffer buffer := by
  have hrun : run.final = later.foldl (runStep run.slots run.format.blockSize run.inputs)
      (run.after earlier) := by
    rw [final, after, Chain.after, hsplit, List.foldl_append]
    rfl
  rw [hrun]
  apply buffer_run
  · intro other hother feed hfeed
    have hmem : other ∈ run.chain.steps := by simp [hsplit, hother]
    have htarget := (h.fresh.runnable hmem).targets_mem feed hfeed
    exact h.apart hsplit hstep hother hbuffer (List.mem_append_left _ htarget)
  · intro other hother houtlet
    exact h.apart hsplit hstep hother hbuffer (List.mem_append_right _ houtlet) rfl

theorem Ready.sample_final (h : run.Ready) (hsplit : run.chain.steps = earlier ++ later)
    (hstep : step ∈ earlier) {buffer : Nat} (hbuffer : buffer ∈ step.ports) :
    run.final.sample time buffer = (run.after earlier).sample time buffer :=
  congrArg (fun block => block.getD time 0) (h.buffer_final hsplit hstep hbuffer)

/-- So do the buffers of the step that runs last. -/
theorem Ready.sample_snoc (h : run.Ready) (hsplit : run.chain.steps = earlier ++ step :: later)
    {buffer : Nat} (hbuffer : buffer ∈ step.ports) :
    run.final.sample time buffer = (run.after (earlier ++ [step])).sample time buffer := by
  have hsnoc : run.chain.steps = (earlier ++ [step]) ++ later := by
    rw [hsplit, List.append_assoc, List.singleton_append]
  exact h.sample_final hsnoc (List.mem_append_right _ List.mem_cons_self) hbuffer

/-! ## Inlets -/

/-- An inlet keeps what has been collected in it. -/
theorem Ready.sample_inlet (h : run.Ready) (hsplit : run.chain.steps = earlier ++ step :: later)
    {buffer : Nat} (hbuffer : buffer ∈ step.inlets) :
    run.final.sample time buffer = (run.collected earlier step).sample time buffer := by
  obtain ⟨node, hnode, -⟩ := (h.runnable hsplit).node
  have houtlet : buffer ∉ step.outlets := fun houtlet =>
    (List.nodup_append.mp (h.nodup_ports hsplit)).2.2 buffer hbuffer buffer houtlet rfl
  rw [h.sample_snoc hsplit (List.mem_append_left _ hbuffer), run.after_snoc earlier hnode, sample,
    buffer_runNode _ houtlet]
  rfl

/-- An inlet receives the mix of the buffers that feed it. -/
theorem Ready.sample_inlet_eq_mix (h : run.Ready) (htime : time < run.format.blockSize)
    (hsplit : run.chain.steps = earlier ++ step :: later) {buffer : Nat}
    (hbuffer : buffer ∈ step.inlets) :
    run.final.sample time buffer =
      mix ((step.sourcesInto buffer).map (run.final.sample time)) := by
  have hrunnable := h.runnable hsplit
  have hplaced := h.placed hsplit
  have hearlier : ∀ feed ∈ step.feeds, ∃ other ∈ earlier, feed.source ∈ other.ports := by
    intro feed hfeed
    obtain ⟨feeder, other, hother, -, houtlet⟩ := hplaced.exists_carrier hfeed
    exact ⟨other, hother, List.mem_append_right _ (List.mem_of_getElem? houtlet)⟩
  have happart : ∀ feed ∈ step.feeds, ∀ other ∈ step.feeds, feed.source ≠ other.target := by
    intro feed hfeed other hother
    obtain ⟨source, hsource, hport⟩ := hearlier feed hfeed
    exact h.apart hsplit hsource List.mem_cons_self hport
      (List.mem_append_left _ (hrunnable.targets_mem other hother))
  have hcollected : (run.collected earlier step).sample time buffer =
      (((step.sourcesInto buffer).map ((run.after earlier).sample time)).foldl mixIn none).getD
        ((run.after earlier).sample time buffer) :=
    sample_feeds htime (h.sound hsplit) hplaced.copies
      (fun feed hfeed => ⟨hrunnable.sources_lt feed hfeed, hrunnable.target_lt hfeed⟩) happart
      rfl rfl
  have hsources : (step.sourcesInto buffer).map ((run.after earlier).sample time) =
      (step.sourcesInto buffer).map (run.final.sample time) := by
    apply List.map_congr_left
    intro source hsource
    obtain ⟨feed, hfeed, rfl⟩ := List.mem_map.mp hsource
    obtain ⟨other, hother, hport⟩ := hearlier feed (List.mem_of_mem_filter hfeed)
    exact (h.sample_final hsplit hother hport).symm
  rw [h.sample_inlet hsplit hbuffer, hcollected, hsources]
  apply getD_foldl_mixIn
  -- Nothing feeds the inlet: it has been silent since the chain was built.
  intro hnone
  have hunfed : step.sourcesInto buffer = [] := List.map_eq_nil_iff.mp hnone
  have hmem : step ∈ run.chain.steps := by simp [hsplit]
  have hsame : (run.after earlier).buffer buffer = run.chain.buffers.getD buffer [] :=
    buffer_after_of_unfed h.fresh (fun other hother => by simp [hsplit, hother]) hmem hbuffer
      hunfed
  have hsize : (build run.slots run.format).blockSize = run.format.blockSize := rfl
  rw [sample, hsame, h.quiet step hmem buffer hbuffer hunfed, h.fresh.blockSize_eq,
    Block.silence, hsize, List.getD_eq_getElem?_getD, List.getElem?_replicate, if_pos htime]
  rfl

/-! ## The solution -/

theorem Ready.levels_eq (h : run.Ready) (hstep : step ∈ run.chain.steps) {outlet buffer : Nat}
    (hbuffer : step.outlets[outlet]? = some buffer) :
    run.levels time step.place outlet = run.final.sample time buffer := by
  have hnodup : (run.chain.steps.map ChainStep.place).Nodup := by
    rw [h.fresh.steps_eq, map_place_build]
    exact nodup_scheduled run.slots
  rw [levels, (find?_key_eq_some_iff hnodup).mpr ⟨hstep, rfl⟩, Option.bind_some, hbuffer]
  rfl

/-- An inlet receives what its feeders send. -/
theorem Ready.sample_inlet_eq_arriving (h : run.Ready) (htime : time < run.format.blockSize)
    (hsplit : run.chain.steps = earlier ++ step :: later) {inlet buffer : Nat}
    (hbuffer : step.inlets[inlet]? = some buffer) :
    run.final.sample time buffer = arriving run.slots (run.levels time) step.place inlet := by
  rw [h.sample_inlet_eq_mix htime hsplit (List.mem_of_getElem? hbuffer), arriving]
  congr 1
  have hcarries := (h.placed hsplit).carries inlet buffer hbuffer
  have hsame : List.Forall₂ Eq
      ((run.slots.feeders step.place inlet).map fun feeder => run.levels time feeder.1 feeder.2)
      ((step.sourcesInto buffer).map (run.final.sample time)) := by
    rw [List.forall₂_map_left_iff, List.forall₂_map_right_iff]
    apply hcarries.imp
    rintro ⟨place, outlet⟩ source ⟨other, hother, rfl, houtlet⟩
    exact h.levels_eq (by simp [hsplit, hother]) houtlet
  rw [List.forall₂_eq_eq_eq] at hsame
  exact hsame.symm

/-- An inlet within range has a buffer. -/
theorem getElem?_inlets {inlet : Nat} (h : inlet < step.inlets.length) :
    step.inlets[inlet]? = some (step.inlets.getD inlet 0) := by
  rw [List.getD_eq_getElem?_getD, List.getElem?_eq_getElem h]
  rfl

/-- An outlet holds what its object gives out. -/
theorem Ready.sample_outlet (h : run.Ready) (htime : time < run.format.blockSize)
    (hsplit : run.chain.steps = earlier ++ step :: later) {node : Node}
    (hnode : run.slots.node? step.place = some node) {outlet buffer : Nat}
    (hbuffer : step.outlets[outlet]? = some buffer) :
    run.final.sample time buffer =
      emitted run.format run.inputs time (arriving run.slots (run.levels time) step.place) outlet
        node := by
  have hrunnable := h.runnable hsplit
  have hports := List.nodup_append.mp (h.nodup_ports hsplit)
  obtain ⟨found, hfound, hsignal⟩ := hrunnable.node
  obtain rfl : found = node := Option.some_inj.mp (hfound.symm.trans hnode)
  have hroutes (channels : List Nat) (hadc : found = .adc channels) :
      step.routes = inputRoutes run.format.inputs channels :=
    (h.placed hsplit).adc channels (hadc ▸ hnode)
  rw [h.sample_snoc hsplit (List.mem_append_right _ (List.mem_of_getElem? hbuffer)),
    run.after_snoc earlier hnode,
    sample_runNode htime (h.collected_sound hsplit) h.inputs_long run.format hsignal
      hrunnable.ports_lt hports.2.1 hroutes hbuffer]
  apply emitted_congr
  intro inlet hinlet
  have hget := getElem?_inlets (by simpa [hsignal] using hinlet : inlet < step.inlets.length)
  rw [← h.sample_inlet hsplit (List.mem_of_getElem? hget),
    h.sample_inlet_eq_arriving htime hsplit hget]

/-- The samples at the end of a block solve the equations of the signal flow. -/
theorem Ready.solves_levels (h : run.Ready) (htime : time < run.format.blockSize) :
    Solves run.slots run.format run.inputs time (run.levels time) := by
  intro place hplace node hnode outlet houtlet
  rw [← map_place_build run.slots run.format, ← h.fresh.steps_eq] at hplace
  obtain ⟨step, hstep, rfl⟩ := List.mem_map.mp hplace
  obtain ⟨found, hfound, hsignal⟩ := (h.fresh.runnable hstep).node
  obtain rfl : found = node := Option.some_inj.mp (hfound.symm.trans hnode)
  have hlt : outlet < step.outlets.length := by simpa [hsignal] using houtlet
  obtain ⟨earlier, later, hsplit⟩ := List.append_of_mem hstep
  have hbuffer := List.getElem?_eq_getElem hlt
  rw [h.levels_eq hstep hbuffer]
  exact h.sample_outlet htime hsplit hnode hbuffer

/-! ## Passing on -/

/-- The inlets of a step that go to a host output. -/
def passing (slots : Slots) (channel : Nat) (step : ChainStep) : List Nat :=
  match slots.node? step.place with
  | some (.dac channels) =>
    ((channels.zip step.inlets).filter fun entry => entry.1 == channel).map Prod.snd
  | _ => []

theorem passing_eq_nil {slots : Slots}
    (hnode : ∀ channels, slots.node? step.place ≠ some (.dac channels)) (channel : Nat) :
    passing slots channel step = [] := by
  unfold passing
  split
  · exact absurd ‹_› (hnode _)
  · rfl

theorem length_passing {slots : Slots} {count : Nat} (hrunnable : step.Runnable slots count)
    (channel : Nat) {channels : List Nat} (hnode : slots.node? step.place = some (.dac channels)) :
    (passing slots channel step).length = channels.count channel := by
  obtain ⟨found, hfound, hsignal⟩ := hrunnable.node
  obtain rfl : found = .dac channels := Option.some_inj.mp (hfound.symm.trans hnode)
  have hlength : channels.length = step.inlets.length := congrArg Prod.fst hsignal
  have hchannels : (channels.zip step.inlets).map Prod.fst = channels :=
    List.map_fst_zip (Nat.le_of_eq hlength)
  simp only [passing, hnode]
  conv => rhs; rw [← hchannels]
  rw [List.length_map, ← List.countP_eq_length_filter, List.count, List.countP_map]
  rfl

/-- A step passes something on to a host output exactly if it is a converter with this
channel. -/
theorem isEmpty_passing {slots : Slots} {count : Nat} (hrunnable : step.Runnable slots count)
    (channel : Nat) : (passing slots channel step).isEmpty = !converts slots channel step := by
  by_cases hdac : ∃ channels, slots.node? step.place = some (.dac channels)
  · obtain ⟨channels, hnode⟩ := hdac
    have hempty : passing slots channel step = [] ↔ channel ∉ channels := by
      rw [← List.length_eq_zero_iff, length_passing hrunnable channel hnode, List.count_eq_zero]
    rw [Bool.eq_iff_iff, List.isEmpty_iff, hempty]
    simp [converts, hnode]
  · rw [passing_eq_nil (not_exists.mp hdac), converts_eq_false (not_exists.mp hdac)]
    rfl

theorem isSome_foldl_mixIn (arrived : Option Sample) (samples : List Sample) :
    (samples.foldl mixIn arrived).isSome = (arrived.isSome || !samples.isEmpty) := by
  induction samples generalizing arrived with
  | nil => simp
  | cons sample rest ih =>
    rw [List.foldl_cons, ih]
    cases arrived <;> simp [mixIn]

/-! ## Host outputs -/

theorem outputs_collected (run : BlockRun) (earlier : List ChainStep) (step : ChainStep) :
    (run.collected earlier step).outputs = (run.after earlier).outputs :=
  outputs_feeds _ _

/-- A step that is no output converter leaves the host outputs alone. -/
theorem Ready.outputs_snoc (h : run.Ready) (hsplit : run.chain.steps = earlier ++ step :: later)
    (hnode : ∀ channels, run.slots.node? step.place ≠ some (.dac channels)) :
    (run.after (earlier ++ [step])).outputs = (run.after earlier).outputs := by
  obtain ⟨node, hfound, -⟩ := (h.runnable hsplit).node
  rw [run.after_snoc earlier hfound, outputs_runNode, outputs_collected]
  rintro channels rfl
  exact hnode channels hfound

/-- An output converter passes its inlets on along routes that go by the flags of the steps
before it. -/
theorem Ready.converter_snoc (h : run.Ready) (hsplit : run.chain.steps = earlier ++ step :: later)
    {channels : List Nat} (hnode : run.slots.node? step.place = some (.dac channels)) :
    ∃ flags : List Bool, flags.length = run.format.outputs ∧
      (∀ channel < run.format.outputs,
        flags.getD channel false = earlier.any (converts run.slots channel)) ∧
      run.after (earlier ++ [step]) =
        ((outputRoutes flags channels).1.zip step.inlets).foldl
          (fun state pair => state.writeOutput run.format.blockSize pair.1 pair.2)
          (run.collected earlier step) := by
  obtain ⟨flags, hlength, hraised, hroutes⟩ := (h.placed hsplit).dac channels hnode
  refine ⟨flags, hlength, hraised, ?_⟩
  rw [run.after_snoc earlier hnode]
  simp only [runNode, hroutes]

/-- One step mixes what it passes on into a host output. -/
theorem Ready.heard_snoc (h : run.Ready) (htime : time < run.format.blockSize)
    (hsplit : run.chain.steps = earlier ++ step :: later) {channel : Nat}
    (hchannel : channel < run.format.outputs)
    (houtput : channel < (run.after earlier).outputs.length)
    {arrived : Option Sample} {base : Sample}
    (harrived : earlier.any (converts run.slots channel) = arrived.isSome)
    (hheard : (run.after earlier).heard time channel = arrived.getD base) :
    (run.after (earlier ++ [step])).heard time channel =
      (((passing run.slots channel step).map (run.final.sample time)).foldl mixIn
        arrived).getD base := by
  by_cases hdac : ∃ channels, run.slots.node? step.place = some (.dac channels)
  · obtain ⟨channels, hnode⟩ := hdac
    obtain ⟨flags, hflags, hraised, hran⟩ := h.converter_snoc hsplit hnode
    have hpassing : (passing run.slots channel step).map (run.final.sample time) =
        ((channels.zip step.inlets).filter fun entry => entry.1 == channel).map fun entry =>
          (run.collected earlier step).sample time entry.2 := by
      simp only [passing, hnode, List.map_map]
      apply List.map_congr_left
      intro entry hentry
      exact h.sample_inlet hsplit (List.of_mem_zip (List.mem_of_mem_filter hentry)).2
    rw [hran, hpassing]
    apply heard_writeOutputs htime (h.collected_sound hsplit)
      (fun _ hinlet => (h.runnable hsplit).inlet_lt hinlet)
    · rwa [outputs_collected]
    · rwa [hflags]
    · rw [hraised channel hchannel, harrived]
    · rw [← hheard, heard, outputs_collected]
      rfl
  · rw [passing_eq_nil (not_exists.mp hdac), heard, h.outputs_snoc hsplit (not_exists.mp hdac)]
    exact hheard

/-- All through a block the host outputs keep their number, their lengths and what stands
behind the block. -/
theorem Ready.margins_after (h : run.Ready) (hsplit : run.chain.steps = earlier ++ later) :
    (run.after earlier).outputs.map (margin run.format.blockSize) =
      run.outputs.map (margin run.format.blockSize) := by
  induction earlier using List.reverseRecOn generalizing later with
  | nil =>
    apply List.ext_getElem?
    intro channel
    simp only [after, Chain.after, List.foldl_nil, opening, List.getElem?_map,
      getElem?_silenceUnwritten]
    cases houtput : run.outputs[channel]? with
    | none => rfl
    | some output =>
      have hlong := h.outputs_long output (List.mem_of_getElem? houtput)
      simp only [Option.map_some, Option.some.injEq]
      split
      · rfl
      · exact margin_append _ List.length_replicate hlong
  | append_singleton earlier step ih =>
    have hsplit : run.chain.steps = earlier ++ step :: later := by simpa using hsplit
    rw [after, Chain.after, List.foldl_append, List.foldl_cons, List.foldl_nil, ← Chain.after,
      ← after, margins_runStep (h.sound hsplit) (h.runnable hsplit)]
    exact ih hsplit

theorem Ready.length_outputs_after (h : run.Ready)
    (hsplit : run.chain.steps = earlier ++ later) :
    (run.after earlier).outputs.length = run.outputs.length := by
  simpa using congrArg List.length (h.margins_after hsplit)

/-- What the host output has before the first step. -/
def unheard (run : BlockRun) (time channel : Nat) : Sample :=
  (run.chain.opening run.format.blockSize run.outputs).heard time channel

/-- What has been passed on to a host output so far is mixed there, and whether something
has is known from the converters so far. -/
theorem Ready.heard_after (h : run.Ready) (htime : time < run.format.blockSize) {channel : Nat}
    (hchannel : channel < run.format.outputs) (houtput : channel < run.outputs.length)
    (hsplit : run.chain.steps = earlier ++ later) :
    let passed := ((earlier.flatMap (passing run.slots channel)).map
      (run.final.sample time)).foldl mixIn none
    earlier.any (converts run.slots channel) = passed.isSome ∧
      (run.after earlier).heard time channel = passed.getD (run.unheard time channel) := by
  induction earlier using List.reverseRecOn generalizing later with
  | nil => exact ⟨rfl, rfl⟩
  | append_singleton earlier step ih =>
    have hsplit : run.chain.steps = earlier ++ step :: later := by simpa using hsplit
    obtain ⟨hany, hheard⟩ := ih hsplit
    simp only [List.flatMap_append, List.flatMap_singleton, List.map_append, List.foldl_append]
    constructor
    · rw [isSome_foldl_mixIn, ← hany, List.any_append, List.any_cons, List.any_nil,
        Bool.or_false, List.isEmpty_map, isEmpty_passing (h.runnable hsplit), Bool.not_not]
    · exact h.heard_snoc htime hsplit hchannel
        ((h.length_outputs_after hsplit).symm ▸ houtput) hany hheard

/-- The host outputs that the format does not have are left as they were at the start. -/
theorem Ready.heard_after_of_le (h : run.Ready) (htime : time < run.format.blockSize)
    {channel : Nat} (hchannel : run.format.outputs ≤ channel)
    (houtput : channel < run.outputs.length) (hsplit : run.chain.steps = earlier ++ later) :
    (run.after earlier).heard time channel = run.unheard time channel := by
  induction earlier using List.reverseRecOn generalizing later with
  | nil => rfl
  | append_singleton earlier step ih =>
    have hsplit : run.chain.steps = earlier ++ step :: later := by simpa using hsplit
    rw [← ih hsplit]
    by_cases hdac : ∃ channels, run.slots.node? step.place = some (.dac channels)
    · obtain ⟨channels, hnode⟩ := hdac
      obtain ⟨flags, hflags, -, hran⟩ := h.converter_snoc hsplit hnode
      have hunwritten := outputs_collected run earlier step
      rw [hran, heard_writeOutputs_of_le htime (h.collected_sound hsplit)
        (fun _ hinlet => (h.runnable hsplit).inlet_lt hinlet) _ (hflags.symm ▸ hchannel), heard,
        hunwritten]
      · rfl
      · rw [hunwritten, h.length_outputs_after hsplit]
        exact houtput
    · rw [heard, h.outputs_snoc hsplit (not_exists.mp hdac)]
      rfl

/-! ## The flow at the host outputs -/

theorem zip_eq_map_zipIdx {channels inlets : List Nat} (h : channels.length = inlets.length) :
    channels.zip inlets = channels.zipIdx.map fun entry => (entry.1, inlets.getD entry.2 0) := by
  apply List.ext_getElem
  · simp [h]
  · intro index hzip _
    have hlt : index < inlets.length := by
      rw [List.length_zip] at hzip
      omega
    simp [List.getD_eq_getElem?_getD, hlt]

/-- What a step passes on is what the inlets receive that write to the output. -/
theorem Ready.map_passing (h : run.Ready) (htime : time < run.format.blockSize)
    (hsplit : run.chain.steps = earlier ++ step :: later) (channel : Nat) :
    (passing run.slots channel step).map (run.final.sample time) =
      (writersAt run.slots channel step.place).map fun writer =>
        arriving run.slots (run.levels time) writer.1 writer.2 := by
  by_cases hdac : ∃ channels, run.slots.node? step.place = some (.dac channels)
  · obtain ⟨channels, hnode⟩ := hdac
    obtain ⟨found, hfound, hsignal⟩ := (h.runnable hsplit).node
    obtain rfl : found = .dac channels := Option.some_inj.mp (hfound.symm.trans hnode)
    have hlength : channels.length = step.inlets.length := congrArg Prod.fst hsignal
    simp only [passing, writersAt, hnode, zip_eq_map_zipIdx hlength, List.filter_map, List.map_map]
    apply List.map_congr_left
    rintro ⟨first, inlet⟩ hentry
    have hmem := List.mem_of_mem_filter hentry
    have hlt : inlet < step.inlets.length := by
      rw [← hlength]
      exact (List.getElem?_eq_some_iff.mp (List.mk_mem_zipIdx_iff_getElem?.mp hmem)).1
    exact h.sample_inlet_eq_arriving htime hsplit (getElem?_inlets hlt)
  · rw [passing_eq_nil (not_exists.mp hdac), writersAt_eq_nil (not_exists.mp hdac)]
    rfl

theorem Ready.map_writers (h : run.Ready) (htime : time < run.format.blockSize)
    (channel : Nat) :
    (run.chain.steps.flatMap (passing run.slots channel)).map (run.final.sample time) =
      (writers run.slots channel).map fun writer =>
        arriving run.slots (run.levels time) writer.1 writer.2 := by
  have hplaces : run.slots.scheduled = run.chain.steps.map ChainStep.place := by
    rw [h.fresh.steps_eq, map_place_build]
  rw [writers, hplaces, List.flatMap_map, List.map_flatMap, List.map_flatMap]
  apply List.flatMap_congr
  intro step hstep
  obtain ⟨earlier, later, hsplit⟩ := List.append_of_mem hstep
  exact h.map_passing htime hsplit channel

/-- Where no converter writes, a block starts with silence. -/
theorem unheard_eq_zero (run : BlockRun) (htime : time < run.format.blockSize) {channel : Nat}
    (houtput : channel < run.outputs.length)
    (hwritten : run.chain.written.getD channel false = false) : run.unheard time channel = 0 := by
  have hget : (silenceUnwritten run.chain.written run.format.blockSize run.outputs)[channel]? =
      some (Block.silence run.format.blockSize ++
        run.outputs[channel].drop run.format.blockSize) := by
    rw [getElem?_silenceUnwritten, List.getElem?_eq_getElem houtput, hwritten]
    rfl
  have hopening : (run.chain.opening run.format.blockSize run.outputs).outputs.getD channel [] =
      Block.silence run.format.blockSize ++ run.outputs[channel].drop run.format.blockSize := by
    simp only [opening, List.getD_eq_getElem?_getD, hget, Option.getD_some]
  rw [unheard, heard, hopening]
  simp [Block.silence, List.getD_eq_getElem?_getD, List.getElem?_append_left, htime]

/-- At the end of a block every host output has the sample that the flow says. -/
theorem Ready.heard_final (h : run.Ready) (htime : time < run.format.blockSize) {channel : Nat}
    (houtput : channel < run.outputs.length) :
    run.final.heard time channel =
      hostOutput run.slots run.format (run.levels time) channel := by
  have hwhole : run.chain.steps = run.chain.steps ++ [] := (List.append_nil _).symm
  unfold hostOutput
  split
  · rename_i hchannel
    obtain ⟨hany, hheard⟩ := h.heard_after htime hchannel houtput hwhole
    rw [final, hheard, ← h.map_writers htime channel]
    apply getD_foldl_mixIn
    intro hnone
    apply unheard_eq_zero run htime houtput
    rw [h.fresh.written_eq, getD_written_build run.slots run.format hchannel,
      ← h.fresh.steps_eq, hany, hnone]
    rfl
  · rename_i hchannel
    rw [final, h.heard_after_of_le htime (Nat.le_of_not_lt hchannel) houtput hwhole]
    apply unheard_eq_zero run htime houtput
    have hlength : run.chain.written.length = run.format.outputs := by
      rw [h.fresh.written_eq]
      exact length_written_build run.slots run.format
    rw [List.getD_eq_getElem?_getD, List.getElem?_eq_none (hlength ▸ Nat.le_of_not_lt hchannel)]
    rfl

/-! ## What the host gets back -/

/-- The signal flow governs the blocks that a host gets back for its outputs. -/
structure Governs (slots : Slots) (format : AudioFormat) (inputs outputs blocks : List Block) :
    Prop where
  /-- There are as many as before, of the same lengths, and what stands behind the block is
  as it was. -/
  margins : blocks.map (margin format.blockSize) = outputs.map (margin format.blockSize)
  /-- At each moment of the block the flow has one solution. -/
  solution : ∀ time < format.blockSize, ∃ levels, Solves slots format inputs time levels ∧
    ∀ other, Solves slots format inputs time other →
      ∀ place ∈ slots.scheduled, ∀ outlet < slots.signalOutlets place,
        other place outlet = levels place outlet
  /-- The samples are those that a solution gives the host outputs. -/
  samples : ∀ time < format.blockSize, ∀ levels, Solves slots format inputs time levels →
    ∀ channel block, blocks[channel]? = some block →
      block[time]? = some (hostOutput slots format levels channel)

theorem Ready.governs (h : run.Ready) :
    Governs run.slots run.format run.inputs run.outputs run.final.outputs := by
  have hwhole : run.chain.steps = run.chain.steps ++ [] := (List.append_nil _).symm
  refine ⟨h.margins_after hwhole, ?_, ?_⟩
  · intro time htime
    have hsolves := h.solves_levels htime
    exact ⟨run.levels time, hsolves, fun other hother => hother.unique hsolves⟩
  · intro time htime levels hlevels channel block hblock
    have hchannel : channel < run.outputs.length := by
      rw [← h.length_outputs_after hwhole]
      exact (List.getElem?_eq_some_iff.mp hblock).1
    have hlong : run.format.blockSize ≤ block.length :=
      (h.sound hwhole).outputs_long block (List.mem_of_getElem? hblock)
    have houtput : run.final.outputs.getD channel [] = block := by
      rw [List.getD_eq_getElem?_getD, hblock]
      rfl
    calc block[time]?
        = some (block.getD time 0) := by
          rw [List.getD_eq_getElem?_getD,
            List.getElem?_eq_getElem (Nat.lt_of_lt_of_le htime hlong)]
          rfl
      _ = some (run.final.heard time channel) := by rw [heard, houtput]
      _ = some (hostOutput run.slots run.format (run.levels time) channel) := by
          rw [h.heard_final htime hchannel]
      _ = some (hostOutput run.slots run.format levels channel) := by
          rw [(h.solves_levels htime).hostOutput_eq hlevels]

end BlockRun

end Patchbay
