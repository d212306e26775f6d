import Mathlib.Data.List.Basic
import Patchbay.Proofs.Layout
import Patchbay.Signal.Perform

/-!
# Buffers during a block

While a block is running there are as many buffers as the chain was built with, and
each holds a block of samples. A step that finds its object and whose numbers stand
for buffers keeps it so, and it writes to its own buffers only.
-/

namespace Patchbay

/-- A step finds its object, with the ports it has buffers for, and all its numbers stand
for buffers. -/
structure ChainStep.Runnable (slots : Slots) (count : Nat) (step : ChainStep) : Prop where
  node : ∃ node, slots.node? step.place = some node ∧
    node.signalPorts = (step.inlets.length, step.outlets.length)
  ports_lt : ∀ buffer ∈ step.ports, buffer < count
  sources_lt : ∀ feed ∈ step.feeds, feed.source < count
  targets_mem : ∀ feed ∈ step.feeds, feed.target ∈ step.inlets

section
variable {slots : Slots} {count : Nat} {step : ChainStep}

theorem ChainStep.Runnable.inlet_lt (h : step.Runnable slots count) {buffer : Nat}
    (hbuffer : buffer ∈ step.inlets) : buffer < count :=
  h.ports_lt buffer (List.mem_append_left _ hbuffer)

theorem ChainStep.Runnable.outlet_lt (h : step.Runnable slots count) {buffer : Nat}
    (hbuffer : buffer ∈ step.outlets) : buffer < count :=
  h.ports_lt buffer (List.mem_append_right _ hbuffer)

theorem ChainStep.Runnable.target_lt (h : step.Runnable slots count) {feed : Feed}
    (hfeed : feed ∈ step.feeds) : feed.target < count :=
  h.inlet_lt (h.targets_mem feed hfeed)

end

namespace BlockState

/-- There are `count` buffers of `size` samples, and the host outputs hold a block. -/
structure Sound (count size : Nat) (state : BlockState) : Prop where
  count_eq : state.buffers.length = count
  block_length : ∀ block ∈ state.buffers, block.length = size
  outputs_long : ∀ output ∈ state.outputs, size ≤ output.length

variable {slots : Slots} {count size : Nat} {inputs : List Block} {state : BlockState}

/-! ## Single buffers -/

theorem Sound.getElem?_buffers (h : state.Sound count size) {index : Nat} (hindex : index < count) :
    state.buffers[index]? = some (state.buffer index) := by
  obtain ⟨block, hblock⟩ : ∃ block, state.buffers[index]? = some block :=
    ⟨_, List.getElem?_eq_getElem (h.count_eq.symm ▸ hindex)⟩
  rw [buffer, List.getD_eq_getElem?_getD, hblock]
  rfl

theorem Sound.length_buffer (h : state.Sound count size) {index : Nat} (hindex : index < count) :
    (state.buffer index).length = size :=
  h.block_length _ (List.mem_of_getElem? (h.getElem?_buffers hindex))

theorem Sound.setBuffer (h : state.Sound count size) (index : Nat) {block : Block}
    (hblock : block.length = size) : (state.setBuffer index block).Sound count size where
  count_eq := by rw [BlockState.setBuffer, List.length_set, h.count_eq]
  block_length := by
    intro other hother
    rcases List.mem_or_eq_of_mem_set hother with hmem | rfl
    · exact h.block_length other hmem
    · exact hblock
  outputs_long := h.outputs_long

theorem buffer_setBuffer_self (h : state.Sound count size) {index : Nat} (hindex : index < count)
    (block : Block) : (state.setBuffer index block).buffer index = block := by
  have hlt : index < state.buffers.length := h.count_eq.symm ▸ hindex
  rw [buffer, BlockState.setBuffer, List.getD_eq_getElem?_getD, List.getElem?_set_self hlt]
  rfl

theorem buffer_setBuffer_ne (state : BlockState) {index other : Nat} (hne : other ≠ index)
    (block : Block) : (state.setBuffer index block).buffer other = state.buffer other := by
  rw [buffer, BlockState.setBuffer, List.getD_eq_getElem?_getD,
    List.getElem?_set_ne (Ne.symm hne), ← List.getD_eq_getElem?_getD]
  rfl

/-! ## Transfers -/

/-- What a transfer puts into its target. -/
def fed (state : BlockState) (feed : Feed) : Block :=
  if feed.copy then state.buffer feed.source
  else List.zipWith (· + ·) (state.buffer feed.target) (state.buffer feed.source)

theorem feed_eq (state : BlockState) (feed : Feed) :
    state.feed feed = state.setBuffer feed.target (state.fed feed) := rfl

theorem Sound.length_fed (h : state.Sound count size) {feed : Feed}
    (hsource : feed.source < count) (htarget : feed.target < count) :
    (state.fed feed).length = size := by
  unfold fed
  split
  · exact h.length_buffer hsource
  · simp [h.length_buffer hsource, h.length_buffer htarget]

theorem Sound.feed (h : state.Sound count size) {feed : Feed} (hsource : feed.source < count)
    (htarget : feed.target < count) : (state.feed feed).Sound count size :=
  h.setBuffer _ (h.length_fed hsource htarget)

theorem feeds_sound {feeds : List Feed} (h : state.Sound count size)
    (hsources : ∀ feed ∈ feeds, feed.source < count)
    (htargets : ∀ feed ∈ feeds, feed.target < count) :
    (feeds.foldl BlockState.feed state).Sound count size :=
  List.foldlRecOn (motive := fun state : BlockState => state.Sound count size) feeds _ h
    fun _ h feed hfeed => h.feed (hsources feed hfeed) (htargets feed hfeed)

/-! ## Converters -/

/-- The block of host input behind a route, silence if there is none. -/
def arrived (size : Nat) (inputs : List Block) (route : Route) : Block :=
  match route.channel.bind fun channel => inputs[channel]? with
  | some input => input.take size
  | none => Block.silence size

theorem readInput_eq (size : Nat) (inputs : List Block) (state : BlockState) (route : Route)
    (outlet : Nat) :
    state.readInput size inputs route outlet =
      state.setBuffer outlet (arrived size inputs route) := by
  unfold readInput arrived
  cases route.channel.bind fun channel => inputs[channel]? <;> rfl

theorem length_arrived (hinputs : ∀ input ∈ inputs, size ≤ input.length) (route : Route) :
    (arrived size inputs route).length = size := by
  unfold arrived
  split
  · rename_i input hinput
    obtain ⟨channel, -, hchannel⟩ := Option.bind_eq_some_iff.mp hinput
    simp [hinputs input (List.mem_of_getElem? hchannel)]
  · exact List.length_replicate

theorem Sound.readInput (h : state.Sound count size)
    (hinputs : ∀ input ∈ inputs, size ≤ input.length) (route : Route) (outlet : Nat) :
    (state.readInput size inputs route outlet).Sound count size := by
  rw [readInput_eq]
  exact h.setBuffer outlet (length_arrived hinputs route)

/-- What an inlet of a converter makes of a host output. -/
def mixedInto (size : Nat) (state : BlockState) (route : Route) (inlet : Nat) (output : Block) :
    Block :=
  (if route.copy then state.buffer inlet
    else List.zipWith (· + ·) (output.take size) (state.buffer inlet)) ++ output.drop size

theorem writeOutput_eq (size : Nat) (state : BlockState) (route : Route) (inlet : Nat) :
    state.writeOutput size route inlet =
      match route.channel.bind fun channel => (state.outputs[channel]?).map (channel, ·) with
      | some (channel, output) =>
        { state with
          outputs := state.outputs.set channel (state.mixedInto size route inlet output) }
      | none => state := by
  unfold writeOutput
  cases route.channel with
  | none => rfl
  | some channel =>
    cases h : state.outputs[channel]? with
    | none => simp [h]
    | some output => simp [h, mixedInto]

theorem Sound.length_mixedInto (h : state.Sound count size) {inlet : Nat} (hinlet : inlet < count)
    (route : Route) {output : Block} (houtput : size ≤ output.length) :
    (state.mixedInto size route inlet output).length = output.length := by
  have hbuffer := h.length_buffer hinlet
  unfold mixedInto
  split
  · simp [hbuffer, houtput]
  · simp [hbuffer, houtput]

theorem Sound.writeOutput (h : state.Sound count size) (route : Route) {inlet : Nat}
    (hinlet : inlet < count) : (state.writeOutput size route inlet).Sound count size := by
  rw [writeOutput_eq]
  split
  · rename_i channel output hroute
    obtain ⟨_, -, hchannel⟩ := Option.bind_eq_some_iff.mp hroute
    obtain ⟨_, houtput, heq⟩ := Option.map_eq_some_iff.mp hchannel
    cases heq
    have hlong := h.outputs_long output (List.mem_of_getElem? houtput)
    refine ⟨h.count_eq, h.block_length, ?_⟩
    intro other hother
    rcases List.mem_or_eq_of_mem_set hother with hmem | rfl
    · exact h.outputs_long other hmem
    · rw [h.length_mixedInto hinlet route hlong]
      exact hlong
  · exact h

/-! ## Steps -/

theorem runNode_sound (h : state.Sound count size)
    (hinputs : ∀ input ∈ inputs, size ≤ input.length) {step : ChainStep}
    (hstep : step.Runnable slots count) (node : Node) :
    (state.runNode size inputs step node).Sound count size := by
  cases node with
  | adc channels =>
    refine List.foldlRecOn (motive := fun state : BlockState => state.Sound count size) _ _ h ?_
    rintro state h ⟨route, outlet⟩ -
    exact h.readInput hinputs route outlet
  | dac channels =>
    refine List.foldlRecOn (motive := fun state : BlockState => state.Sound count size) _ _ h ?_
    rintro state h ⟨route, inlet⟩ hpair
    exact h.writeOutput route (hstep.inlet_lt (List.of_mem_zip hpair).2)
  | arithmetic operation right =>
    cases right with
    | none =>
      simp only [runNode]
      split
      · rename_i left right _ outlet _ hinlets houtlets
        apply h.setBuffer
        rw [List.length_zipWith, h.length_buffer (hstep.inlet_lt (by simp [hinlets])),
          h.length_buffer (hstep.inlet_lt (by simp [hinlets])), Nat.min_self]
      · exact h
    | some right =>
      simp only [runNode]
      split
      · rename_i left _ outlet _ hinlets houtlets
        apply h.setBuffer
        rw [List.length_map, h.length_buffer (hstep.inlet_lt (by simp [hinlets]))]
      · exact h
  | constant value =>
    simp only [runNode]
    split
    · exact h.setBuffer _ List.length_replicate
    · exact h
  | _ => exact h

theorem runStep_sound (h : state.Sound count size)
    (hinputs : ∀ input ∈ inputs, size ≤ input.length) {step : ChainStep}
    (hstep : step.Runnable slots count) :
    (state.runStep slots size inputs step).Sound count size := by
  have hfed : (step.feeds.foldl BlockState.feed state).Sound count size :=
    feeds_sound h hstep.sources_lt fun _ hfeed => hstep.target_lt hfeed
  unfold runStep
  split
  · exact runNode_sound hfed hinputs hstep _
  · exact hfed

/-- Running steps keeps the buffers as they should be. -/
theorem run_sound {steps : List ChainStep} (h : state.Sound count size)
    (hinputs : ∀ input ∈ inputs, size ≤ input.length)
    (hsteps : ∀ step ∈ steps, step.Runnable slots count) :
    (steps.foldl (runStep slots size inputs) state).Sound count size :=
  List.foldlRecOn (motive := fun state : BlockState => state.Sound count size) steps _ h
    fun _ h step hstep => runStep_sound h hinputs (hsteps step hstep)

/-! ## What a step leaves alone -/

section
variable {buffer : Nat}

theorem buffer_feeds (state : BlockState) {feeds : List Feed}
    (hfeeds : ∀ feed ∈ feeds, buffer ≠ feed.target) :
    (feeds.foldl feed state).buffer buffer = state.buffer buffer :=
  List.foldlRecOn (motive := fun after : BlockState => after.buffer buffer = state.buffer buffer)
    feeds _ rfl fun after h feed hfeed =>
      (buffer_setBuffer_ne after (hfeeds feed hfeed) _).trans h

theorem buffer_readInputs_ne (state : BlockState) {pairs : List (Route × Nat)}
    (hpairs : ∀ pair ∈ pairs, buffer ≠ pair.2) :
    (pairs.foldl (fun state pair => state.readInput size inputs pair.1 pair.2) state).buffer
      buffer = state.buffer buffer := by
  apply List.foldlRecOn
    (motive := fun after : BlockState => after.buffer buffer = state.buffer buffer) pairs _ rfl
  intro after h pair hpair
  rw [readInput_eq]
  exact (buffer_setBuffer_ne after (hpairs pair hpair) _).trans h

theorem buffers_writeOutput (state : BlockState) (route : Route) (inlet : Nat) :
    (state.writeOutput size route inlet).buffers = state.buffers := by
  rw [writeOutput_eq]
  split <;> rfl

theorem buffers_writeOutputs (state : BlockState) (pairs : List (Route × Nat)) :
    (pairs.foldl (fun state pair => state.writeOutput size pair.1 pair.2) state).buffers =
      state.buffers :=
  List.foldlRecOn (motive := fun after : BlockState => after.buffers = state.buffers) pairs _ rfl
    fun after h pair _ => (buffers_writeOutput after pair.1 pair.2).trans h

theorem buffer_runNode (state : BlockState) {step : ChainStep} (hoverlooked : buffer ∉ step.outlets)
    (node : Node) :
    (state.runNode size inputs step node).buffer buffer = state.buffer buffer := by
  cases node with
  | adc channels =>
    apply buffer_readInputs_ne
    rintro ⟨route, outlet⟩ hpair rfl
    exact hoverlooked (List.of_mem_zip hpair).2
  | dac channels =>
    exact congrArg (fun buffers => buffers.getD buffer [])
      (buffers_writeOutputs state (step.routes.zip step.inlets))
  | arithmetic operation right =>
    cases right with
    | none =>
      simp only [runNode]
      split
      · rename_i houtlets
        exact buffer_setBuffer_ne state (by rintro rfl; simp [houtlets] at hoverlooked) _
      · rfl
    | some right =>
      simp only [runNode]
      split
      · rename_i houtlets
        exact buffer_setBuffer_ne state (by rintro rfl; simp [houtlets] at hoverlooked) _
      · rfl
  | constant value =>
    simp only [runNode]
    split
    · rename_i houtlets
      exact buffer_setBuffer_ne state (by rintro rfl; simp [houtlets] at hoverlooked) _
    · rfl
  | _ => rfl

/-- A buffer that is neither fed nor an outlet keeps its samples. -/
theorem buffer_runStep (state : BlockState) {step : ChainStep}
    (hfeeds : ∀ feed ∈ step.feeds, buffer ≠ feed.target) (hoverlooked : buffer ∉ step.outlets) :
    (state.runStep slots size inputs step).buffer buffer = state.buffer buffer := by
  have hfed := buffer_feeds state hfeeds
  unfold runStep
  split
  · exact (buffer_runNode _ hoverlooked _).trans hfed
  · exact hfed

theorem buffer_run (state : BlockState) {steps : List ChainStep}
    (hfeeds : ∀ step ∈ steps, ∀ feed ∈ step.feeds, buffer ≠ feed.target)
    (hoverlooked : ∀ step ∈ steps, buffer ∉ step.outlets) :
    (steps.foldl (runStep slots size inputs) state).buffer buffer = state.buffer buffer :=
  List.foldlRecOn (motive := fun after : BlockState => after.buffer buffer = state.buffer buffer)
    steps _ rfl fun after h step hstep =>
      (buffer_runStep after (hfeeds step hstep) (hoverlooked step hstep)).trans h

end

/-! ## Host outputs -/

theorem outputs_feeds (state : BlockState) (feeds : List Feed) :
    (feeds.foldl feed state).outputs = state.outputs :=
  List.foldlRecOn (motive := fun after : BlockState => after.outputs = state.outputs)
    feeds _ rfl fun _ h _ _ => h

/-- Only output converters write to the host. -/
theorem outputs_runNode (size : Nat) (inputs : List Block) (state : BlockState) (step : ChainStep)
    {node : Node} (hnode : ∀ channels, node ≠ .dac channels) :
    (state.runNode size inputs step node).outputs = state.outputs := by
  cases node with
  | adc channels =>
    refine List.foldlRecOn (motive := fun after : BlockState => after.outputs = state.outputs)
      _ _ rfl ?_
    rintro after h ⟨route, outlet⟩ -
    simp only [readInput_eq]
    exact h
  | dac channels => exact absurd rfl (hnode channels)
  | arithmetic operation right =>
    cases right with
    | none => simp only [runNode]; split <;> rfl
    | some right => simp only [runNode]; split <;> rfl
  | constant value => simp only [runNode]; split <;> rfl
  | _ => rfl

/-- What a block does not touch of a host output: how long it is, and what stands behind
the block. -/
def margin (size : Nat) (output : Block) : Nat × Block := (output.length, output.drop size)

theorem margin_append (size : Nat) {samples output : Block} (hsamples : samples.length = size)
    (hlong : size ≤ output.length) :
    margin size (samples ++ output.drop size) = margin size output := by
  subst hsamples
  simp only [margin, List.length_append, List.length_drop, List.drop_left, Prod.mk.injEq, and_true]
  omega

theorem margins_writeOutput (h : state.Sound count size) (route : Route) {inlet : Nat}
    (hinlet : inlet < count) :
    (state.writeOutput size route inlet).outputs.map (margin size) =
      state.outputs.map (margin size) := by
  rw [writeOutput_eq]
  split
  · rename_i channel output hroute
    obtain ⟨_, -, hchannel⟩ := Option.bind_eq_some_iff.mp hroute
    obtain ⟨_, houtput, heq⟩ := Option.map_eq_some_iff.mp hchannel
    cases heq
    have hlong := h.outputs_long output (List.mem_of_getElem? houtput)
    have hmargin : margin size (state.mixedInto size route inlet output) = margin size output := by
      apply margin_append size _ hlong
      split <;> simp [h.length_buffer hinlet, hlong]
    have hget : (state.outputs.map (margin size))[channel]? = some (margin size output) := by
      rw [List.getElem?_map, houtput]
      rfl
    obtain ⟨hlt, hget⟩ := List.getElem?_eq_some_iff.mp hget
    rw [List.map_set, hmargin, ← hget, List.set_getElem_self]
  · rfl

theorem margins_runStep (h : state.Sound count size) {step : ChainStep}
    (hstep : step.Runnable slots count) :
    (state.runStep slots size inputs step).outputs.map (margin size) =
      state.outputs.map (margin size) := by
  have hfed : (step.feeds.foldl BlockState.feed state).Sound count size :=
    feeds_sound h hstep.sources_lt fun _ hfeed => hstep.target_lt hfeed
  have houtputs := outputs_feeds state step.feeds
  obtain ⟨node, hnode, -⟩ := hstep.node
  simp only [runStep, hnode]
  rw [← houtputs]
  by_cases hdac : ∃ channels, node = .dac channels
  · obtain ⟨channels, rfl⟩ := hdac
    have hwritten := List.foldlRecOn
      (motive := fun after : BlockState => after.Sound count size ∧
        after.outputs.map (margin size) =
          (step.feeds.foldl BlockState.feed state).outputs.map (margin size))
      (step.routes.zip step.inlets) (fun state pair => state.writeOutput size pair.1 pair.2)
      ⟨hfed, rfl⟩ fun after hafter pair hpair => by
        have hinlet := hstep.inlet_lt (List.of_mem_zip hpair).2
        exact ⟨hafter.1.writeOutput pair.1 hinlet,
          (margins_writeOutput hafter.1 pair.1 hinlet).trans hafter.2⟩
    exact hwritten.2
  · rw [outputs_runNode]
    intro channels heq
    exact hdac ⟨channels, heq⟩

end BlockState

namespace Chain
variable {slots : Slots} {format : AudioFormat}

/-- Every step of a built chain can be run with the buffers of the chain. -/
theorem runnable_build {step : ChainStep} (h : step ∈ (build slots format).steps) :
    step.Runnable slots (build slots format).buffers.length := by
  have hports {other : ChainStep} (hother : other ∈ (build slots format).steps) :
      ∀ buffer ∈ other.ports, buffer < (build slots format).buffers.length := by
    intro buffer hbuffer
    rw [← List.mem_range, ← flatMap_ports_build slots format]
    exact List.mem_flatMap.mpr ⟨other, hother, hbuffer⟩
  obtain ⟨earlier, later, hsplit⟩ := List.append_of_mem h
  have hplaced := placed_build hsplit
  obtain ⟨node, hnode, -, hsignal⟩ := hplaced.node
  refine ⟨⟨node, hnode, hsignal⟩, hports h, ?_, hplaced.targets⟩
  intro feed hfeed
  obtain ⟨feeder, other, hother, -, hsource⟩ := hplaced.exists_carrier hfeed
  apply hports (by simp [hsplit, hother] : other ∈ (build slots format).steps)
  exact List.mem_append_right _ (List.mem_of_getElem? hsource)

end Chain

end Patchbay
