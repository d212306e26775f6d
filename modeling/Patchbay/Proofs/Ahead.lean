import Mathlib.Data.List.Sort
import Patchbay.Proofs.Rendering
import Patchbay.Proofs.Shelf

/-!
# One use ahead

A slot that has been used and freed again differs from what it was in its generation only.
Whatever patches are open, nothing but the generations in handles depends on it: not what
messages do, not who listens, not the signal chain. Two engines whose slots differ in this way
go on alike, and the samples of their blocks are the same, although a chain that was built anew
has other samples in its buffers than one that has been running.
-/

namespace Patchbay

/-- The handle that stands, where a slot has been used once more, for what `id` stands for. -/
def PatchId.shift (slot : Nat) (id : PatchId) : PatchId :=
  if id.slot = slot then { id with generation := id.generation + 1 } else id

@[simp] theorem PatchId.slot_shift (slot : Nat) (id : PatchId) :
    (id.shift slot).slot = id.slot := by
  unfold shift
  split <;> rfl

theorem PatchId.shift_surjective (slot : Nat) : Function.Surjective (PatchId.shift slot) := by
  rintro ⟨index, generation⟩
  by_cases hslot : index = slot
  · exact ⟨⟨index, generation - 1⟩, by simp [shift, hslot]⟩
  · exact ⟨⟨index, generation⟩, by simp [shift, hslot]⟩

/-! ## Slots -/

namespace Slots
variable {slot : Nat} {slots later : Slots}

/-- The same patches are open in the same slots, and one slot has been used once more. -/
structure Ahead (slot : Nat) (slots later : Slots) : Prop where
  patchAt_eq : ∀ index, later.patchAt index = slots.patchAt index
  generationAt_eq : ∀ index, later.generationAt index =
    if index = slot then slots.generationAt index + 1 else slots.generationAt index

/-! ### What is the same -/

theorem Ahead.node?_eq (h : slots.Ahead slot later) (place : NodeRef) :
    later.node? place = slots.node? place := by
  rw [node?, node?, h.patchAt_eq]

theorem Ahead.targets_eq (h : slots.Ahead slot later) (place : NodeRef) (outlet : Nat) :
    later.targets place outlet = slots.targets place outlet := by
  rw [targets, targets, h.patchAt_eq]

/-- A handle finds what its shifted one finds. -/
theorem Ahead.patch?_eq (h : slots.Ahead slot later) (id : PatchId) :
    later.patch? (id.shift slot) = slots.patch? id := by
  rw [Slots.patch?_eq, Slots.patch?_eq, PatchId.slot_shift, h.generationAt_eq, h.patchAt_eq]
  unfold PatchId.shift
  split <;> simp

theorem patchAt_ne_none_of_lt_freeSlot {index : Nat} (h : index < slots.freeSlot) :
    slots.patchAt index ≠ none := by
  unfold freeSlot at h
  cases hfound : slots.findIdx? fun slot => slot.patch.isNone with
  | none =>
    rw [hfound, Option.getD_none] at h
    have hused := List.findIdx?_eq_none_iff.mp hfound slots[index] (List.getElem_mem h)
    simpa [patchAt, h, Option.isSome_iff_ne_none] using hused
  | some first =>
    rw [hfound, Option.getD_some] at h
    obtain ⟨hlt, -, hbefore⟩ := List.findIdx?_eq_some_iff_getElem.mp hfound
    simpa [patchAt, Nat.lt_trans h hlt] using hbefore index h

theorem Ahead.freeSlot_eq (h : slots.Ahead slot later) : later.freeSlot = slots.freeSlot := by
  apply Nat.le_antisymm
  · by_contra hlt
    apply patchAt_ne_none_of_lt_freeSlot (Nat.lt_of_not_le hlt)
    rw [h.patchAt_eq, patchAt_freeSlot]
  · by_contra hlt
    apply patchAt_ne_none_of_lt_freeSlot (Nat.lt_of_not_le hlt)
    rw [← h.patchAt_eq, patchAt_freeSlot]

/-- The same patches are open, under shifted handles. -/
theorem Ahead.patches_eq (h : slots.Ahead slot later) :
    later.patches = slots.patches.map fun entry => (entry.1.shift slot, entry.2) := by
  have hirrefl : Std.Irrefl fun a b : PatchId × Patch => a.1.slot < b.1.slot :=
    ⟨fun entry => Nat.lt_irrefl entry.1.slot⟩
  have hasymm : Std.Antisymm fun a b : PatchId × Patch => a.1.slot < b.1.slot :=
    ⟨fun a b hab hba => absurd hab (Nat.lt_asymm hba)⟩
  have hsorted : (slots.patches.map fun entry => (entry.1.shift slot, entry.2)).Pairwise
      fun a b => a.1.slot < b.1.slot :=
    List.pairwise_map.mpr (slots.patches_pairwise.imp fun hlt => by simpa using hlt)
  apply later.patches_pairwise.eq_of_mem_iff hsorted
  rintro ⟨id, patch⟩
  simp only [mem_patches_iff_patch?, List.mem_map, Prod.exists, Prod.mk.injEq]
  constructor
  · intro hfound
    obtain ⟨before, rfl⟩ := PatchId.shift_surjective slot id
    exact ⟨before, patch, by rwa [← h.patch?_eq], rfl, rfl⟩
  · rintro ⟨before, found, hfound, rfl, rfl⟩
    rwa [h.patch?_eq]

theorem Ahead.nodes_eq (h : slots.Ahead slot later) : later.nodes = slots.nodes := by
  simp [nodes, h.patches_eq, List.flatMap_map]

theorem Ahead.patchCount_eq (h : slots.Ahead slot later) :
    later.patchCount = slots.patchCount := by
  rw [Slots.patchCount_eq, Slots.patchCount_eq, h.patches_eq, List.length_map]

theorem Ahead.listeners_eq (h : slots.Ahead slot later) :
    Listeners.ofSlots later = Listeners.ofSlots slots := by
  rw [Listeners.ofSlots, Listeners.ofSlots, h.nodes_eq]

theorem Ahead.graph_eq (h : slots.Ahead slot later) :
    SignalGraph.ofSlots later = SignalGraph.ofSlots slots := by
  simp [SignalGraph.ofSlots, SignalGraph.verticesOf, h.nodes_eq, h.patches_eq, List.flatMap_map]

theorem withRoutes_congr (h : ∀ place, later.node? place = slots.node? place) (inputs : Nat)
    (written : List Bool) (steps : List ChainStep) :
    Chain.withRoutes later inputs written steps = Chain.withRoutes slots inputs written steps := by
  induction steps generalizing written with
  | nil => rfl
  | cons step rest ih => simp only [Chain.withRoutes, h, ih]

theorem Ahead.build_eq (h : slots.Ahead slot later) (format : AudioFormat) :
    Chain.build later format = Chain.build slots format := by
  simp only [Chain.build, h.graph_eq, h.nodes_eq, withRoutes_congr h.node?_eq]

/-! ### What keeps it the same -/

theorem patchAt_setNode (slots : Slots) (place : NodeRef) (node : Node) (index : Nat) :
    (slots.setNode place node).patchAt index =
      if index = place.slot then
        (slots.patchAt index).map fun patch => patch.setNode place.object node
      else slots.patchAt index := by
  simp only [patchAt, setNode, List.getElem?_modify]
  by_cases heq : place.slot = index
  · subst heq
    cases slots[place.slot]? <;> simp
  · cases slots[index]? <;> simp [heq, Ne.symm heq]

theorem generationAt_setNode (slots : Slots) (place : NodeRef) (node : Node) (index : Nat) :
    (slots.setNode place node).generationAt index = slots.generationAt index := by
  simp only [generationAt, setNode, List.getD_eq_getElem?_getD, List.getElem?_modify]
  cases slots[index]? with
  | none => rfl
  | some stored => by_cases heq : place.slot = index <;> simp [heq]

theorem Ahead.setNode (h : slots.Ahead slot later) (place : NodeRef) (node : Node) :
    (slots.setNode place node).Ahead slot (later.setNode place node) where
  patchAt_eq := fun index => by rw [patchAt_setNode, patchAt_setNode, h.patchAt_eq]
  generationAt_eq := fun index => by
    rw [generationAt_setNode, generationAt_setNode, h.generationAt_eq]

theorem Ahead.insert (h : slots.Ahead slot later) (patch : Patch) :
    (slots.insert patch).1.Ahead slot (later.insert patch).1 where
  patchAt_eq := fun index => by
    rw [patchAt_insert, patchAt_insert, h.freeSlot_eq, h.patchAt_eq]
  generationAt_eq := fun index => by
    rw [generationAt_insert, generationAt_insert, h.freeSlot_eq, h.generationAt_eq,
      h.generationAt_eq]
    by_cases hfree : index = slots.freeSlot
    · subst hfree
      by_cases hslot : slots.freeSlot = slot <;> simp [hslot]
    · simp [hfree]

theorem Ahead.insert_snd (h : slots.Ahead slot later) (patch : Patch) :
    (later.insert patch).2 = (slots.insert patch).2.shift slot := by
  rw [Slots.insert_snd, Slots.insert_snd, h.freeSlot_eq, h.generationAt_eq, PatchId.shift]
  split <;> rfl

/-- Corresponding handles take out the same patch, or both are stale. -/
theorem Ahead.remove? (h : slots.Ahead slot later) {id id' : PatchId} (hslot : id'.slot = id.slot)
    (hfound : later.patch? id' = slots.patch? id) :
    slots.remove? id = none ∧ later.remove? id' = none ∨
      ∃ patch rest rest', slots.remove? id = some (patch, rest) ∧
        later.remove? id' = some (patch, rest') ∧ rest.Ahead slot rest' := by
  cases hpatch : slots.patch? id with
  | none =>
    left
    simp [Slots.remove?, hfound, hpatch]
  | some patch =>
    right
    have hremoved := remove?_eq_some_iff.mpr ⟨hpatch, rfl⟩
    have hremoved' := remove?_eq_some_iff.mpr ⟨hfound.trans hpatch, rfl⟩
    refine ⟨patch, _, _, hremoved, hremoved', ?_, ?_⟩
    · intro index
      rw [patchAt_remove hremoved, patchAt_remove hremoved', h.patchAt_eq, hslot]
    · intro index
      rw [generationAt_remove hremoved, generationAt_remove hremoved', h.generationAt_eq]

/-- Putting a patch in and taking it out again leaves nothing but another use of the slot. -/
theorem ahead_of_remove {patch removed : Patch} {rest : Slots}
    (h : (slots.insert patch).1.remove? (slots.insert patch).2 = some (removed, rest)) :
    slots.Ahead slots.freeSlot rest where
  patchAt_eq := fun index => by
    rw [patchAt_remove h, Slots.insert_snd, patchAt_insert]
    by_cases hfree : index = slots.freeSlot
    · rw [hfree, if_pos rfl, patchAt_freeSlot]
    · rw [if_neg hfree, if_neg hfree]
  generationAt_eq := fun index => by
    rw [generationAt_remove h, generationAt_insert]
    by_cases hfree : index = slots.freeSlot
    · rw [hfree]
    · rw [if_neg hfree, if_neg hfree]

end Slots

/-! ## Messages -/

namespace Dispatch
variable {slot : Nat} {dispatch later : Dispatch}

/-- Two dispatches have come equally far, and a slot has been used once more in the second. -/
structure Ahead (slot : Nat) (dispatch later : Dispatch) : Prop where
  slots : dispatch.slots.Ahead slot later.slots
  stack_eq : later.stack = dispatch.stack
  depth_eq : later.depth = dispatch.depth
  effects_eq : later.effects = dispatch.effects

/-- Work that leaves dispatches alike that were alike. -/
def Parallel (slot : Nat) (work : Dispatch → Dispatch) : Prop :=
  ∀ dispatch later : Dispatch, dispatch.Ahead slot later → (work dispatch).Ahead slot (work later)

theorem Ahead.perform (h : dispatch.Ahead slot later) (effect : Effect) :
    (dispatch.perform effect).Ahead slot (later.perform effect) :=
  ⟨h.slots, h.stack_eq, h.depth_eq, congrArg (Array.push · effect) h.effects_eq⟩

theorem Ahead.push (h : dispatch.Ahead slot later) (emissions : List Emission) :
    (dispatch.push emissions).Ahead slot (later.push emissions) :=
  ⟨h.slots, congrArg (· ++ emissions.toArray) h.stack_eq, h.depth_eq, h.effects_eq⟩

theorem Ahead.answer (h : dispatch.Ahead slot later) (target : NodeRef) (inlet : Nat)
    (message : Message) :
    (dispatch.answer target inlet message).Ahead slot (later.answer target inlet message) := by
  unfold Dispatch.answer
  rw [h.slots.node?_eq]
  split
  · rename_i node _
    have hset : Ahead slot
        { dispatch with
          slots := dispatch.slots.setNode target (node.answer inlet message).1 }
        { later with slots := later.slots.setNode target (node.answer inlet message).1 } :=
      ⟨h.slots.setNode target _, h.stack_eq, h.depth_eq, h.effects_eq⟩
    exact hset.push (node.answer inlet message).2
  · exact h

theorem Ahead.foldl {α : Type} (h : dispatch.Ahead slot later) (items : List α)
    {work : Dispatch → α → Dispatch}
    (hwork : ∀ item, Parallel slot fun dispatch => work dispatch item) :
    (items.foldl work dispatch).Ahead slot (items.foldl work later) :=
  List.foldl_rel (r := fun dispatch later : Dispatch => dispatch.Ahead slot later) h
    fun item _ dispatch later h => hwork item dispatch later h

section
variable (listeners : Listeners) {delivery : Delivery}

/-- A delivery that leaves dispatches alike that were alike. -/
def ParallelDelivery (slot : Nat) (delivery : Delivery) : Prop :=
  ∀ target inlet message, Parallel slot fun dispatch => delivery dispatch target inlet message

theorem parallel_fanOut (h : ParallelDelivery slot delivery) (source : NodeRef) (outlet : Nat)
    (message : Message) :
    Parallel slot fun dispatch => fanOut delivery dispatch source outlet message := by
  intro dispatch later hahead
  dsimp only [fanOut]
  rw [hahead.slots.targets_eq]
  exact hahead.foldl _ fun target => h _ target.2 message

theorem parallel_sendTo (h : ParallelDelivery slot delivery) (tie : Tie) (message : Message) :
    Parallel slot fun dispatch => sendTo listeners delivery dispatch tie message :=
  fun _ _ hahead => (hahead.foldl _ fun target => h target 0 message).perform _

theorem parallel_carryOut (h : ParallelDelivery slot delivery) (source : NodeRef)
    (emission : Emission) :
    Parallel slot fun dispatch => carryOut listeners delivery source dispatch emission := by
  cases emission with
  | outlet outlet message => exact parallel_fanOut h source outlet message
  | send tie message => exact parallel_sendTo listeners h tie message
  | post level text => exact fun _ _ hahead => hahead.perform _
  | midi event => exact fun _ _ hahead => hahead.perform _
  | done => exact fun _ _ hahead => hahead

theorem parallel_drain (h : ParallelDelivery slot delivery) (source : NodeRef)
    (count position : Nat) : Parallel slot (drain listeners delivery source count position) := by
  induction count generalizing position with
  | zero => exact fun _ _ hahead => hahead
  | succ count ih =>
    intro dispatch later hahead
    simp only [drain]
    rw [hahead.stack_eq]
    split
    · apply ih (position + 1)
      apply parallel_carryOut listeners h source
      exact ⟨hahead.slots, rfl, hahead.depth_eq, hahead.effects_eq⟩
    · exact hahead

theorem parallel_flush (h : ParallelDelivery slot delivery) (source : NodeRef) (height : Nat) :
    Parallel slot (flush listeners delivery source height) := by
  intro dispatch later hahead
  have hdrained := parallel_drain listeners h source
    (dispatch.stack.size - height) height dispatch later hahead
  unfold flush
  rw [hahead.stack_eq]
  exact ⟨hdrained.slots, congrArg (Array.take · height) hdrained.stack_eq, hdrained.depth_eq,
    hdrained.effects_eq⟩

theorem parallel_deliver (room : Nat) : ParallelDelivery slot (deliver listeners room) := by
  induction room with
  | zero =>
    intro target inlet message dispatch later hahead
    simp only [deliver, hahead.depth_eq]
    split
    · exact hahead.perform _
    · exact hahead
  | succ room ih =>
    intro target inlet message dispatch later hahead
    simp only [deliver, hahead.depth_eq, hahead.stack_eq]
    split
    · exact hahead.perform _
    · have hentered : Ahead slot { dispatch with depth := dispatch.depth + 1 }
          { later with depth := dispatch.depth + 1 } :=
        ⟨hahead.slots, hahead.stack_eq, rfl, hahead.effects_eq⟩
      have hflushed := parallel_flush listeners ih target dispatch.stack.size _ _
        (hentered.answer target inlet message)
      rw [hahead.stack_eq] at hflushed
      exact ⟨hflushed.slots, hflushed.stack_eq, congrArg (· - 1) hflushed.depth_eq,
        hflushed.effects_eq⟩

theorem parallel_fire (source : NodeRef) (emissions : List Emission) :
    Parallel slot fun dispatch => fire listeners dispatch source emissions := by
  intro dispatch later hahead
  dsimp only [fire]
  rw [hahead.stack_eq]
  exact parallel_flush listeners (parallel_deliver listeners maxDepth) source _ _ _
    (hahead.push emissions)

theorem parallel_send (tie : Tie) (message : Message) :
    Parallel slot fun dispatch => send listeners dispatch tie message :=
  parallel_sendTo listeners (parallel_deliver listeners maxDepth) tie message

theorem parallel_midi (event : MidiEvent) :
    Parallel slot fun dispatch => midi listeners dispatch event := by
  intro dispatch later hahead
  apply hahead.foldl
  intro place dispatch later hahead
  dsimp only
  rw [hahead.slots.node?_eq]
  split
  · exact parallel_fire listeners place _ _ _ hahead
  · exact hahead

theorem parallel_bangAll (places : List NodeRef) :
    Parallel slot fun dispatch => bangAll listeners dispatch places :=
  fun _ _ hahead => hahead.foldl places fun place => parallel_fire listeners place _

end

end Dispatch

/-! ## Blocks -/

/-- Blocks that the same flow governs are the same. -/
theorem BlockRun.Governs.unique {slots : Slots} {format : AudioFormat}
    {inputs outputs blocks blocks' : List Block}
    (h : BlockRun.Governs slots format inputs outputs blocks)
    (h' : BlockRun.Governs slots format inputs outputs blocks') : blocks' = blocks := by
  have hmargins := h'.margins.trans h.margins.symm
  have hcount : blocks'.length = blocks.length := by simpa using congrArg List.length hmargins
  apply List.ext_getElem hcount
  intro channel hchannel' hchannel
  have hmargin : BlockState.margin format.blockSize blocks'[channel] =
      BlockState.margin format.blockSize blocks[channel] := by
    simpa [hchannel, hchannel'] using congrArg (fun margins => margins[channel]?) hmargins
  obtain ⟨-, hbehind⟩ := Prod.mk.inj hmargin
  apply List.ext_getElem?
  intro time
  by_cases htime : time < format.blockSize
  · obtain ⟨levels, hlevels, -⟩ := h.solution time htime
    rw [h.samples time htime levels hlevels channel _ (List.getElem?_eq_getElem hchannel),
      h'.samples time htime levels hlevels channel _ (List.getElem?_eq_getElem hchannel')]
  · have hsame := congrArg (fun rest => rest[time - format.blockSize]?) hbehind
    have htotal : format.blockSize + (time - format.blockSize) = time := by omega
    simpa only [List.getElem?_drop, htotal] using hsame

theorem Chain.perform_congr {slots later : Slots}
    (h : ∀ place, later.node? place = slots.node? place) (chain : Chain) (size : Nat)
    (inputs outputs : List Block) :
    chain.perform later size inputs outputs = chain.perform slots size inputs outputs := by
  have hstep : BlockState.runStep later size inputs = BlockState.runStep slots size inputs := by
    funext state step
    simp only [BlockState.runStep, h]
  simp only [Chain.perform, hstep]

/-! ## Engines -/

namespace Engine
variable {slot : Nat} {engine later : Engine}

/-- Two engines that sessions lead to are prepared alike, and have the same patches open in the
same slots, one of which has been used once more in the second engine. -/
structure Ahead (slot : Nat) (engine later : Engine) : Prop where
  reachable : engine.Reachable
  reachable_later : later.Reachable
  slots : engine.slots.Ahead slot later.slots
  format_eq : later.format = engine.format

/-- Two operations had the same effects, and the engines are alike afterwards. -/
structure Alike (slot : Nat) (done later : Engine × List Effect) : Prop where
  engine : done.1.Ahead slot later.1
  effects_eq : later.2 = done.2

/-- What has been told before is the same as well. -/
theorem Alike.told {done done' : Engine × List Effect} (h : Alike slot done done')
    {effects effects' : List Effect} (heffects : effects' = effects) :
    Alike slot (done.1, effects ++ done.2) (done'.1, effects' ++ done'.2) :=
  ⟨h.engine, congrArg₂ (· ++ ·) heffects h.effects_eq⟩

theorem Ahead.listeners_eq (h : engine.Ahead slot later) : later.listeners = engine.listeners := by
  rw [h.reachable.settled.listeners_eq, h.reachable_later.settled.listeners_eq,
    h.slots.listeners_eq]

theorem Ahead.start (h : engine.Ahead slot later) : engine.start.Ahead slot later.start where
  slots := h.slots
  stack_eq := h.reachable_later.settled.stack_eq.trans h.reachable.settled.stack_eq.symm
  depth_eq := h.reachable_later.settled.depth_eq.trans h.reachable.settled.depth_eq.symm
  effects_eq := rfl

theorem Ahead.dispatch (h : engine.Ahead slot later) {work : Dispatch → Dispatch}
    (hwork : Dispatch.Parallel slot work) (hreachable : (engine.dispatch work).1.Reachable)
    (hreachable' : (later.dispatch work).1.Reachable) :
    Alike slot (engine.dispatch work) (later.dispatch work) :=
  have hdone := hwork engine.start later.start h.start
  ⟨⟨hreachable, hreachable', hdone.slots, h.format_eq⟩, congrArg Array.toList hdone.effects_eq⟩

theorem Ahead.send (h : engine.Ahead slot later) (tie : Tie) (message : Message) :
    Alike slot (engine.send tie message) (later.send tie message) := by
  have hreachable := h.reachable_later.send tie message
  unfold Engine.send at hreachable ⊢
  rw [h.listeners_eq] at hreachable ⊢
  exact h.dispatch (Dispatch.parallel_send _ tie message) (h.reachable.send tie message) hreachable

theorem Ahead.midi (h : engine.Ahead slot later) (event : MidiEvent) :
    Alike slot (engine.midi event) (later.midi event) := by
  have hreachable := h.reachable_later.midi event
  unfold Engine.midi at hreachable ⊢
  rw [h.listeners_eq] at hreachable ⊢
  exact h.dispatch (Dispatch.parallel_midi _ event) (h.reachable.midi event) hreachable

theorem Ahead.loadbang (h : engine.Ahead slot later) (id : PatchId) :
    Alike slot (engine.loadbang id) (later.loadbang (id.shift slot)) := by
  have hplaces : later.loadbangs (id.shift slot) = engine.loadbangs id := by
    simp only [loadbangs, h.slots.patch?_eq, PatchId.slot_shift]
  have hreachable := h.reachable_later.loadbang (id.shift slot)
  unfold Engine.loadbang at hreachable ⊢
  rw [h.listeners_eq, hplaces] at hreachable ⊢
  exact h.dispatch (Dispatch.parallel_bangAll _ _) (h.reachable.loadbang id) hreachable

/-- Chains of the same patches are told alike. -/
theorem alike_rebuildChain (hslots : engine.slots.Ahead slot later.slots)
    (hformat : later.format = engine.format) (hreachable : engine.rebuildChain.1.Reachable)
    (hreachable' : later.rebuildChain.1.Reachable) :
    Alike slot engine.rebuildChain later.rebuildChain := by
  refine ⟨⟨hreachable, hreachable', ?_, ?_⟩, ?_⟩
  · rwa [slots_rebuildChain, slots_rebuildChain]
  · rw [format_rebuildChain, format_rebuildChain, hformat]
  · unfold rebuildChain
    rw [hformat]
    cases engine.format with
    | none => rfl
    | some format => simp only [hslots.build_eq]

theorem Ahead.insert (h : engine.Ahead slot later) (patch : Patch) :
    Alike slot (engine.insert patch).1.rebuildChain (later.insert patch).1.rebuildChain :=
  alike_rebuildChain (h.slots.insert patch) h.format_eq (h.reachable.openPatch patch)
    (h.reachable_later.openPatch patch)

/-- Corresponding handles close the same patch, or both are stale. -/
theorem Ahead.remove? (h : engine.Ahead slot later) {id id' : PatchId} (hslot : id'.slot = id.slot)
    (hfound : later.slots.patch? id' = engine.slots.patch? id) :
    engine.remove? id = none ∧ later.remove? id' = none ∨
      ∃ patch rest rest', engine.remove? id = some (patch, rest) ∧
        later.remove? id' = some (patch, rest') ∧
        Alike slot rest.rebuildChain rest'.rebuildChain := by
  rcases h.slots.remove? hslot hfound with
    ⟨hstale, hstale'⟩ | ⟨patch, rest, rest', hremoved, hremoved', hslots⟩
  · left
    simp [Engine.remove?, hstale, hstale']
  · right
    have hclosed : engine.remove? id = some (patch, engine.withSlots rest) := by
      rw [Engine.remove?, hremoved, Option.map_some]
    have hclosed' : later.remove? id' = some (patch, later.withSlots rest') := by
      rw [Engine.remove?, hremoved', Option.map_some]
    exact ⟨patch, _, _, hclosed, hclosed', alike_rebuildChain hslots h.format_eq
      (h.reachable.closePatch hclosed) (h.reachable_later.closePatch hclosed')⟩

theorem Ahead.prepare (h : engine.Ahead slot later) {format : AudioFormat}
    (hvalid : format.validate = .ok ()) :
    Alike slot (engine.prepare format) (later.prepare format) :=
  alike_rebuildChain h.slots rfl (h.reachable.prepare hvalid) (h.reachable_later.prepare hvalid)

theorem Ahead.release (h : engine.Ahead slot later) : engine.release.Ahead slot later.release :=
  ⟨h.reachable.release, h.reachable_later.release, h.slots, rfl⟩

/-- What a chain with other samples in its buffers leaves in the host outputs is the same. -/
theorem Ahead.blocks_eq (h : engine.Ahead slot later) {format : AudioFormat} {size : Nat}
    {inputs outputs : List Block} (hadmits : engine.Admits format size inputs outputs) :
    (later.chain.perform later.slots size inputs outputs).2 =
      (engine.chain.perform engine.slots size inputs outputs).2 := by
  obtain ⟨hprepared, rfl, hinputs, houtputs⟩ := hadmits
  have hprepared' : later.format = some format := h.format_eq.trans hprepared
  have hfresh : later.chain.Fresh engine.slots format :=
    (h.reachable_later.inStep.fresh format hprepared').of_build (h.slots.build_eq format).symm
  have hready : BlockRun.Ready ⟨engine.chain, engine.slots, format, inputs, outputs⟩ :=
    ⟨h.reachable.inStep.fresh format hprepared, h.reachable.inStep.quiet format hprepared, hinputs,
      houtputs⟩
  have hready' : BlockRun.Ready ⟨later.chain, engine.slots, format, inputs, outputs⟩ :=
    ⟨hfresh, h.reachable_later.inStep.quiet format hprepared', hinputs, houtputs⟩
  rw [Chain.perform_congr h.slots.node?_eq]
  exact hready.governs.unique hready'.governs

/-- The blocks of both engines are the same, and so is what fires after them. -/
theorem Ahead.perform (h : engine.Ahead slot later) {format : AudioFormat} {size : Nat}
    {inputs outputs : List Block} (hadmits : engine.Admits format size inputs outputs) :
    (later.perform size inputs outputs).2.1 = (engine.perform size inputs outputs).2.1 ∧
      Alike slot
        ((engine.perform size inputs outputs).1, (engine.perform size inputs outputs).2.2)
        ((later.perform size inputs outputs).1, (later.perform size inputs outputs).2.2) := by
  have hadmits' : later.Admits format size inputs outputs :=
    { hadmits with prepared := h.format_eq.trans hadmits.prepared }
  have hticks : later.chain.ticks = engine.chain.ticks := by
    rw [h.reachable.inStep.ticks_eq hadmits.prepared,
      h.reachable_later.inStep.ticks_eq hadmits'.prepared, Slots.placesOf, Slots.placesOf,
      h.slots.nodes_eq]
  have hdone := Dispatch.parallel_bangAll engine.listeners engine.chain.ticks _ _ h.start
  have hreachable := h.reachable_later.perform hadmits'
  refine ⟨h.blocks_eq hadmits, ⟨h.reachable.perform hadmits, hreachable, ?_, h.format_eq⟩, ?_⟩
  · simp only [Engine.perform, Engine.dispatch, h.listeners_eq, hticks]
    exact hdone.slots
  · simp only [Engine.perform, Engine.dispatch, h.listeners_eq, hticks]
    exact congrArg Array.toList hdone.effects_eq

end Engine

end Patchbay
