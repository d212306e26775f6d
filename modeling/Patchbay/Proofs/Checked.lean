import Mathlib.Data.List.Basic
import Patchbay.Proofs.Freshness

/-!
# Running a block without fault

Samples are read and written in place: an index must stand for a buffer, a port for
an entry of its step, and a slice for samples that are there. Here all of this is
checked, and the first thing that is missing ends the block. The steps of a fresh
chain miss nothing, so a checked block gives what an unchecked one does.
-/

namespace Patchbay

/-- The first samples of a block, `none` if there are not as many. -/
def Block.slice? (size : Nat) (block : Block) : Option Block :=
  if size ≤ block.length then some (block.take size) else none

/-- A block with other samples at its start, `none` if they do not fit. -/
def Block.overwrite? (block samples : Block) : Option Block :=
  if samples.length ≤ block.length then some (samples ++ block.drop samples.length) else none

namespace Checked

/-- Read a block from a buffer. -/
def read? (size : Nat) (state : BlockState) (index : Nat) : Option Block :=
  state.buffers[index]?.bind (Block.slice? size)

/-- Write samples to the start of a buffer. -/
def write? (state : BlockState) (index : Nat) (samples : Block) : Option BlockState :=
  (state.buffers[index]?.bind fun block => block.overwrite? samples).map fun block =>
    state.setBuffer index block

/-- Carry out a transfer between buffers. -/
def feed (size : Nat) (state : BlockState) (feed : Feed) : Option BlockState := do
  let samples ← read? size state feed.source
  let kept ← read? size state feed.target
  write? state feed.target (if feed.copy then samples else List.zipWith (· + ·) kept samples)

/-- Fill an outlet of an input converter from the host. -/
def readInput (size : Nat) (inputs : List Block) (state : BlockState) (route : Route)
    (outlet : Nat) : Option BlockState :=
  match route.channel.bind fun channel => inputs[channel]? with
  | some input => do
    let samples ← input.slice? size
    write? state outlet samples
  | none => write? state outlet (Block.silence size)

/-- Pass an inlet of an output converter to the host, if the host has the output. -/
def writeOutput (size : Nat) (state : BlockState) (route : Route) (inlet : Nat) :
    Option BlockState :=
  match route.channel.bind fun channel => (state.outputs[channel]?).map (channel, ·) with
  | some (channel, output) => do
    let samples ← read? size state inlet
    let kept ← output.slice? size
    let block ← output.overwrite?
      (if route.copy then samples else List.zipWith (· + ·) kept samples)
    some { state with outputs := state.outputs.set channel block }
  | none => some state

/-- Run one object for a block. -/
def runNode (size : Nat) (inputs : List Block) (state : BlockState) (step : ChainStep) :
    Node → Option BlockState
  | .adc _ =>
    (step.routes.zip step.outlets).foldlM
      (fun state entry => readInput size inputs state entry.1 entry.2) state
  | .dac _ =>
    (step.routes.zip step.inlets).foldlM
      (fun state entry => writeOutput size state entry.1 entry.2) state
  | .arithmetic operation (some right) => do
    let inlet ← step.inlets[0]?
    let outlet ← step.outlets[0]?
    let samples ← read? size state inlet
    write? state outlet (samples.map fun sample => operation.apply sample right)
  | .arithmetic operation none => do
    let inlet ← step.inlets[0]?
    let outlet ← step.outlets[0]?
    let other ← step.inlets[1]?
    let samples ← read? size state inlet
    let operands ← read? size state other
    write? state outlet (List.zipWith operation.apply samples operands)
  | .constant value => do
    let outlet ← step.outlets[0]?
    write? state outlet (List.replicate size value)
  | _ => some state

/-- Run one step of a chain; its object has to be there. -/
def runStep (slots : Slots) (size : Nat) (inputs : List Block) (state : BlockState)
    (step : ChainStep) : Option BlockState := do
  let state ← step.feeds.foldlM (feed size) state
  let node ← slots.node? step.place
  runNode size inputs state step node

/-- Silence the first `size` samples of the outputs that nothing writes to. -/
def silenceUnwritten (written : List Bool) (size : Nat) (outputs : List Block) :
    Option (List Block) :=
  outputs.zipIdx.mapM fun entry =>
    if written.getD entry.2 false then some entry.1
    else entry.1.overwrite? (Block.silence size)

/-- Run a block of `size` samples. -/
def perform (chain : Chain) (slots : Slots) (size : Nat) (inputs outputs : List Block) :
    Option (Chain × List Block) := do
  let silenced ← silenceUnwritten chain.written size outputs
  let final ← chain.steps.foldlM (runStep slots size inputs)
    { buffers := chain.buffers, outputs := silenced }
  some ({ chain with buffers := final.buffers }, final.outputs)

/-! ## Nothing is missing -/

/-- A checked walk over a list gives what the unchecked walk does, if an invariant of the
unchecked walk lets every check pass. -/
theorem foldlM_eq_some {α σ : Type} {checked : σ → α → Option σ} {unchecked : σ → α → σ}
    (Inv : σ → Prop) (items : List α) {state : σ} (h : Inv state)
    (hstep : ∀ state, Inv state → ∀ item ∈ items,
      checked state item = some (unchecked state item) ∧ Inv (unchecked state item)) :
    items.foldlM checked state = some (items.foldl unchecked state) := by
  induction items generalizing state with
  | nil => rfl
  | cons item rest ih =>
    obtain ⟨hitem, hnext⟩ := hstep state h item List.mem_cons_self
    rw [List.foldlM_cons, hitem, List.foldl_cons]
    exact ih hnext fun state h other hother =>
      hstep state h other (List.mem_cons_of_mem item hother)

theorem slice?_eq_some {size : Nat} {block : Block} (h : size ≤ block.length) :
    block.slice? size = some (block.take size) := if_pos h

theorem overwrite?_eq_some {samples block : Block} (h : samples.length ≤ block.length) :
    block.overwrite? samples = some (samples ++ block.drop samples.length) := if_pos h

section
variable {slots : Slots} {count size : Nat} {inputs : List Block} {state : BlockState}

theorem read?_eq_some (h : state.Sound count size) {index : Nat} (hindex : index < count) :
    read? size state index = some (state.buffer index) := by
  have hlength := h.length_buffer hindex
  rw [read?, h.getElem?_buffers hindex, Option.bind_some,
    slice?_eq_some (Nat.le_of_eq hlength.symm), ← hlength,
    List.take_length]

theorem write?_eq_some (h : state.Sound count size) {index : Nat} (hindex : index < count)
    {samples : Block} (hsamples : samples.length = size) :
    write? state index samples = some (state.setBuffer index samples) := by
  have hlength := (h.length_buffer hindex).trans hsamples.symm
  rw [write?, h.getElem?_buffers hindex, Option.bind_some,
    overwrite?_eq_some (Nat.le_of_eq hlength.symm), ← hlength, List.drop_length, List.append_nil]
  rfl

theorem feed_eq_some (h : state.Sound count size) {feed : Feed} (hsource : feed.source < count)
    (htarget : feed.target < count) : Checked.feed size state feed = some (state.feed feed) := by
  simp only [Checked.feed, read?_eq_some h hsource, read?_eq_some h htarget,
    Option.bind_eq_bind, Option.bind_some]
  exact write?_eq_some h htarget (h.length_fed hsource htarget)

theorem readInput_eq_some (h : state.Sound count size)
    (hinputs : ∀ input ∈ inputs, size ≤ input.length) (route : Route) {outlet : Nat}
    (houtlet : outlet < count) :
    readInput size inputs state route outlet =
      some (state.readInput size inputs route outlet) := by
  have hwrite := write?_eq_some h houtlet (BlockState.length_arrived hinputs route)
  rw [BlockState.readInput_eq, ← hwrite]
  unfold readInput BlockState.arrived
  cases hinput : route.channel.bind fun channel => inputs[channel]? with
  | none => rfl
  | some input =>
    obtain ⟨channel, -, hchannel⟩ := Option.bind_eq_some_iff.mp hinput
    have hlong := hinputs input (List.mem_of_getElem? hchannel)
    simp only [slice?_eq_some hlong, Option.bind_eq_bind, Option.bind_some]

theorem writeOutput_eq_some (h : state.Sound count size) (route : Route) {inlet : Nat}
    (hinlet : inlet < count) :
    writeOutput size state route inlet = some (state.writeOutput size route inlet) := by
  rw [BlockState.writeOutput_eq]
  unfold writeOutput
  cases hroute : route.channel.bind fun channel =>
      (state.outputs[channel]?).map (channel, ·) with
  | none => rfl
  | some entry =>
    obtain ⟨channel, output⟩ := entry
    obtain ⟨_, -, hchannel⟩ := Option.bind_eq_some_iff.mp hroute
    obtain ⟨_, houtput, heq⟩ := Option.map_eq_some_iff.mp hchannel
    cases heq
    have hlong := h.outputs_long output (List.mem_of_getElem? houtput)
    have hlength : (if route.copy then state.buffer inlet
        else List.zipWith (· + ·) (output.take size) (state.buffer inlet)).length = size := by
      split <;> simp [h.length_buffer hinlet, hlong]
    simp only [read?_eq_some h hinlet, slice?_eq_some hlong, Option.bind_eq_bind,
      Option.bind_some]
    rw [overwrite?_eq_some (hlength.symm ▸ hlong), hlength]
    rfl

theorem runNode_eq_some (h : state.Sound count size)
    (hinputs : ∀ input ∈ inputs, size ≤ input.length) {step : ChainStep}
    (hstep : step.Runnable slots count) {node : Node}
    (hports : node.signalPorts = (step.inlets.length, step.outlets.length)) :
    runNode size inputs state step node = some (state.runNode size inputs step node) := by
  cases node with
  | adc channels =>
    apply foldlM_eq_some (BlockState.Sound count size) _ h
    rintro state h ⟨route, outlet⟩ hpair
    have houtlet := hstep.outlet_lt (List.of_mem_zip hpair).2
    exact ⟨readInput_eq_some h hinputs route houtlet, h.readInput hinputs route outlet⟩
  | dac channels =>
    apply foldlM_eq_some (BlockState.Sound count size) _ h
    rintro state h ⟨route, inlet⟩ hpair
    have hinlet := hstep.inlet_lt (List.of_mem_zip hpair).2
    exact ⟨writeOutput_eq_some h route hinlet, h.writeOutput route hinlet⟩
  | arithmetic operation right =>
    cases right with
    | none =>
      obtain ⟨hinlets, houtlets⟩ := Prod.mk.inj hports
      obtain ⟨left, other, hinlets⟩ := List.length_eq_two.mp hinlets.symm
      obtain ⟨outlet, houtlets⟩ := List.length_eq_one_iff.mp houtlets.symm
      have hleft : left < count := hstep.inlet_lt (by simp [hinlets])
      have hother : other < count := hstep.inlet_lt (by simp [hinlets])
      have houtlet : outlet < count := hstep.outlet_lt (by simp [houtlets])
      simp only [runNode, BlockState.runNode, hinlets, houtlets, List.getElem?_cons_zero,
        List.getElem?_cons_succ, Option.bind_eq_bind, Option.bind_some,
        read?_eq_some h hleft, read?_eq_some h hother]
      apply write?_eq_some h houtlet
      rw [List.length_zipWith, h.length_buffer hleft, h.length_buffer hother, Nat.min_self]
    | some right =>
      obtain ⟨hinlets, houtlets⟩ := Prod.mk.inj hports
      obtain ⟨left, hinlets⟩ := List.length_eq_one_iff.mp hinlets.symm
      obtain ⟨outlet, houtlets⟩ := List.length_eq_one_iff.mp houtlets.symm
      have hleft : left < count := hstep.inlet_lt (by simp [hinlets])
      have houtlet : outlet < count := hstep.outlet_lt (by simp [houtlets])
      simp only [runNode, BlockState.runNode, hinlets, houtlets, List.getElem?_cons_zero,
        Option.bind_eq_bind, Option.bind_some, read?_eq_some h hleft]
      apply write?_eq_some h houtlet
      rw [List.length_map, h.length_buffer hleft]
  | constant value =>
    obtain ⟨-, houtlets⟩ := Prod.mk.inj hports
    obtain ⟨outlet, houtlets⟩ := List.length_eq_one_iff.mp houtlets.symm
    have houtlet : outlet < count := hstep.outlet_lt (by simp [houtlets])
    simp only [runNode, BlockState.runNode, houtlets, List.getElem?_cons_zero,
      Option.bind_eq_bind, Option.bind_some]
    exact write?_eq_some h houtlet List.length_replicate
  | _ => rfl

theorem runStep_eq_some (h : state.Sound count size)
    (hinputs : ∀ input ∈ inputs, size ≤ input.length) {step : ChainStep}
    (hstep : step.Runnable slots count) :
    runStep slots size inputs state step = some (state.runStep slots size inputs step) := by
  obtain ⟨node, hnode, hports⟩ := hstep.node
  have hfeeds : step.feeds.foldlM (Checked.feed size) state =
      some (step.feeds.foldl BlockState.feed state) := by
    apply foldlM_eq_some (BlockState.Sound count size) _ h
    intro state h feed hfeed
    have hsource := hstep.sources_lt feed hfeed
    have htarget := hstep.target_lt hfeed
    exact ⟨feed_eq_some h hsource htarget, h.feed hsource htarget⟩
  have hfed : (step.feeds.foldl BlockState.feed state).Sound count size :=
    BlockState.feeds_sound h hstep.sources_lt fun _ hfeed => hstep.target_lt hfeed
  simp only [runStep, BlockState.runStep, hfeeds, hnode, Option.bind_eq_bind, Option.bind_some]
  exact runNode_eq_some hfed hinputs hstep hports

theorem silenceUnwritten_eq_some (written : List Bool) {outputs : List Block}
    (houtputs : ∀ output ∈ outputs, size ≤ output.length) :
    silenceUnwritten written size outputs = some (Chain.silenceUnwritten written size outputs) := by
  have hmap (entries : List (Block × Nat)) (h : ∀ entry ∈ entries, size ≤ entry.1.length) :
      (entries.mapM fun entry =>
          if written.getD entry.2 false then some entry.1
          else entry.1.overwrite? (Block.silence size)) =
        some (entries.map fun entry =>
          if written.getD entry.2 false then entry.1
          else Block.silence size ++ entry.1.drop size) := by
    induction entries with
    | nil => rfl
    | cons entry rest ih =>
      have hfits : (Block.silence size).length ≤ entry.1.length := by
        rw [Block.silence, List.length_replicate]
        exact h entry List.mem_cons_self
      have hentry : (if written.getD entry.2 false then some entry.1
          else entry.1.overwrite? (Block.silence size)) =
          some (if written.getD entry.2 false then entry.1
            else Block.silence size ++ entry.1.drop size) := by
        rw [overwrite?_eq_some hfits, Block.silence, List.length_replicate]
        split <;> rfl
      rw [List.mapM_cons, hentry,
        ih fun other hother => h other (List.mem_cons_of_mem entry hother)]
      rfl
  apply hmap
  intro entry hentry
  exact houtputs entry.1 (List.fst_mem_of_mem_zipIdx hentry)

/-- A block of a fresh chain runs without fault, and gives what `Chain.perform` says. -/
theorem perform_eq_some {format : AudioFormat} {chain : Chain} {outputs : List Block}
    (h : chain.Fresh slots format)
    (hinputs : ∀ input ∈ inputs, format.blockSize ≤ input.length)
    (houtputs : ∀ output ∈ outputs, format.blockSize ≤ output.length) :
    perform chain slots format.blockSize inputs outputs =
      some (chain.perform slots format.blockSize inputs outputs) := by
  have hrun : chain.steps.foldlM (runStep slots format.blockSize inputs)
      (chain.opening format.blockSize outputs) =
      some (chain.after slots format.blockSize inputs outputs chain.steps) := by
    apply foldlM_eq_some (BlockState.Sound chain.buffers.length format.blockSize) _
      (Chain.opening_sound h houtputs)
    intro state hstate step hstep
    have hrunnable := h.runnable hstep
    exact ⟨runStep_eq_some hstate hinputs hrunnable,
      BlockState.runStep_sound hstate hinputs hrunnable⟩
  rw [Chain.opening] at hrun
  rw [Chain.perform_eq]
  simp only [perform, silenceUnwritten_eq_some _ houtputs, hrun, Option.bind_eq_bind,
    Option.bind_some]

end

end Checked

end Patchbay
