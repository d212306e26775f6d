import Patchbay.Proofs.ReadSlots

/-!
# Engines read by names

A dispatch by numbers goes the way of the dispatch by names, delivery by delivery: the same
objects are reached in the same order, since the same objects listen at a number and at its
name, and what reaches the outside is read as the same effects.
-/

namespace Patchbay.Numbered

variable {ρ : Reading} {tables : Tables}

namespace Numbering

/-! ## Dispatch -/

/-- Two ways to hand on a message that mean the same from some tables on. -/
def Agrees (tables : Tables) (deliver : Delivery) (deliver' : Patchbay.Delivery) : Prop :=
  ∀ later, tables.Later later → ∀ dispatch dispatch', Means later dispatch dispatch' →
    ∀ message message', Means later message message' → ∀ target inlet,
      Gives later (deliver dispatch target inlet message) (deliver' dispatch' target inlet message')

theorem Agrees.mono {deliver : Delivery} {deliver' : Patchbay.Delivery} {later : Tables}
    (h : Agrees tables deliver deliver') (hlater : tables.Later later) :
    Agrees later deliver deliver' :=
  fun last hlast => h last (hlater.trans hlast)

section
variable {listeners : Listeners} {listeners' : Patchbay.Listeners} {deliver : Delivery}
  {deliver' : Patchbay.Delivery} {dispatch : Dispatch} {dispatch' : Patchbay.Dispatch}
  {message : Message} {message' : Patchbay.Message}

theorem means_perform {effect : Effect} {effect' : Patchbay.Effect}
    (h : Means tables dispatch dispatch') (heffect : Means tables effect effect') :
    Means tables (dispatch.perform effect) (dispatch'.perform effect') := by
  intro hproper ρ hρ
  rw [← h hproper ρ hρ, ← heffect hproper ρ hρ]
  exact congrArg (fun effects => ({ named ρ dispatch with effects } : Patchbay.Dispatch))
    (Array.map_push ..)

theorem means_push {emissions : List Emission} {emissions' : List Patchbay.Emission}
    (h : Means tables dispatch dispatch') (hemissions : Means tables emissions emissions') :
    Means tables (dispatch.push emissions) (dispatch'.push emissions') := by
  intro hproper ρ hρ
  rw [← h hproper ρ hρ, ← hemissions hproper ρ hρ]
  refine congrArg (fun stack => ({ named ρ dispatch with stack } : Patchbay.Dispatch)) ?_
  show Array.map (named ρ) (dispatch.stack ++ emissions.toArray) = _
  rw [Array.map_append]
  exact congrArg (_ ++ ·) List.map_toArray

theorem means_node? (h : Means tables dispatch dispatch') (place : NodeRef) :
    Means tables (dispatch.slots.node? place) (dispatch'.slots.node? place) :=
  h.map (f := fun dispatch => dispatch.slots.node? place)
    (g := fun dispatch => dispatch.slots.node? place)
    fun _ _ => (Slots.node?_named dispatch.slots place).symm

theorem means_setNode {node : Node} {node' : Patchbay.Node} (h : Means tables dispatch dispatch')
    (hnode : Means tables node node') (place : NodeRef) :
    Means tables ({ dispatch with slots := dispatch.slots.setNode place node } : Dispatch)
      ({ dispatch' with slots := dispatch'.slots.setNode place node' } : Patchbay.Dispatch) := by
  intro hproper ρ hρ
  rw [← h hproper ρ hρ, ← hnode hproper ρ hρ]
  exact congrArg (fun slots => ({ named ρ dispatch with slots } : Patchbay.Dispatch))
    (Slots.setNode_named dispatch.slots place node).symm

theorem gives_answerAt (h : Means tables dispatch dispatch')
    (hmessage : Means tables message message')
    (target : NodeRef) (inlet : Nat) :
    Gives tables (dispatch.answer target inlet message)
      (dispatch'.answer target inlet message') := by
  refine .of_proper fun hproper => ?_
  unfold Dispatch.answer Patchbay.Dispatch.answer
  rcases (means_node? h target).option hproper with
    ⟨hfound, hfound'⟩ | ⟨node, node', hfound, hfound', hnode⟩
  · rw [hfound, hfound']
    exact .pure h
  · rw [hfound, hfound']
    refine (gives_answer hnode hmessage inlet).bind fun later hlater done hdone => ?_
    exact .pure (means_push (means_setNode (h.mono hlater) hdone.fst target) hdone.snd)

theorem gives_fanOut (hdeliver : Agrees tables deliver deliver')
    (h : Means tables dispatch dispatch')
    (hmessage : Means tables message message') (source : NodeRef) (outlet : Nat) :
    Gives tables (Dispatch.fanOut deliver dispatch source outlet message)
      (Patchbay.Dispatch.fanOut deliver' dispatch' source outlet message') := by
  refine .of_proper fun hproper => ?_
  have htargets : dispatch'.slots.targets source outlet = dispatch.slots.targets source outlet :=
    h.same hproper (f := fun dispatch => dispatch.slots.targets source outlet)
      (g := fun dispatch => dispatch.slots.targets source outlet)
      fun _ _ => Slots.targets_named dispatch.slots source outlet
  unfold Dispatch.fanOut Patchbay.Dispatch.fanOut
  rw [htargets]
  exact .foldlM (fun later hlater target _ dispatch dispatch' h =>
    hdeliver later hlater dispatch dispatch' h message message' (hmessage.mono hlater)
      { slot := source.slot, object := target.1 } target.2) h

theorem gives_sendTo (hlisteners : Means tables listeners listeners')
    (hdeliver : Agrees tables deliver deliver') (h : Means tables dispatch dispatch') {tie : Tie}
    {tie' : Patchbay.Tie} (htie : Means tables tie tie')
    (hmessage : Means tables message message') :
    Gives tables (Dispatch.sendTo listeners deliver dispatch tie message)
      (Patchbay.Dispatch.sendTo listeners' deliver' dispatch' tie' message') := by
  refine .of_proper fun hproper => ?_
  have hlistening : listeners'.listening tie' = listeners.listening tie := by
    have hρ := hproper.grown.reads_extended 'a'
    rw [← hlisteners hproper _ hρ, ← htie hproper _ hρ, hρ.listening_named]
  unfold Dispatch.sendTo Patchbay.Dispatch.sendTo
  rw [hlistening]
  have hserved : Gives tables
      ((listeners.listening tie).foldlM
        (fun dispatch target => deliver dispatch target 0 message) dispatch)
      ((listeners.listening tie).foldl
        (fun dispatch target => deliver' dispatch target 0 message') dispatch') :=
    .foldlM (fun later hlater target _ dispatch dispatch' h =>
      hdeliver later hlater dispatch dispatch' h message message' (hmessage.mono hlater) target 0) h
  refine hserved.bind fun later hlater dispatch h => .pure (means_perform h ?_)
  exact (htie.mono hlater).map₂ (hmessage.mono hlater) fun _ _ => rfl

theorem gives_carryOut (hlisteners : Means tables listeners listeners')
    (hdeliver : Agrees tables deliver deliver') (h : Means tables dispatch dispatch')
    {emission : Emission} {emission' : Patchbay.Emission}
    (hemission : Means tables emission emission') (source : NodeRef) :
    Gives tables (Dispatch.carryOut listeners deliver source dispatch emission)
      (Patchbay.Dispatch.carryOut listeners' deliver' source dispatch' emission') := by
  refine .of_proper fun hproper => ?_
  obtain rfl := hemission.named_reading hproper
  cases emission with
  | outlet index message =>
    have hmessage : Means tables message (named tables.reading message) :=
      fun hproper ρ hρ => (Patchbay.Emission.outlet.inj (hemission hproper ρ hρ)).2
    exact gives_fanOut hdeliver h hmessage source index
  | send tie message =>
    have htie : Means tables tie (named tables.reading tie) :=
      fun hproper ρ hρ => (Patchbay.Emission.send.inj (hemission hproper ρ hρ)).1
    have hmessage : Means tables message (named tables.reading message) :=
      fun hproper ρ hρ => (Patchbay.Emission.send.inj (hemission hproper ρ hρ)).2
    exact gives_sendTo hlisteners hdeliver h htie hmessage
  | post level text => exact .pure (means_perform h (.of_named fun _ _ => rfl))
  | midi event => exact .pure (means_perform h (.of_named fun _ _ => rfl))
  | done => exact .pure h

theorem gives_drain (hlisteners : Means tables listeners listeners')
    (hdeliver : Agrees tables deliver deliver') (h : Means tables dispatch dispatch')
    (source : NodeRef) (count position : Nat) :
    Gives tables (Dispatch.drain listeners deliver source count position dispatch)
      (Patchbay.Dispatch.drain listeners' deliver' source count position dispatch') := by
  induction count generalizing tables position dispatch dispatch' with
  | zero => exact .pure h
  | succ count ih =>
    refine .of_proper fun hproper => ?_
    have hentry : Means tables dispatch.stack[position]? dispatch'.stack[position]? :=
      h.map (f := fun dispatch => dispatch.stack[position]?)
        (g := fun dispatch => dispatch.stack[position]?) fun _ _ => Array.getElem?_map.symm
    unfold Dispatch.drain Patchbay.Dispatch.drain
    rcases hentry.option hproper with
      ⟨hnone, hnone'⟩ | ⟨emission, emission', hsome, hsome', hemission⟩
    · rw [hnone, hnone']
      exact .pure h
    · rw [hsome, hsome']
      have hcleared : Means tables
          ({ dispatch with stack := dispatch.stack.setIfInBounds position .done } : Dispatch)
          ({ dispatch' with stack := dispatch'.stack.setIfInBounds position .done } :
            Patchbay.Dispatch) := by
        intro hproper ρ hρ
        rw [← h hproper ρ hρ]
        exact congrArg (fun stack => ({ named ρ dispatch with stack } : Patchbay.Dispatch))
          Array.map_setIfInBounds
      refine (gives_carryOut hlisteners hdeliver hcleared hemission source).bind
        fun later hlater dispatch h => ?_
      exact ih (hlisteners.mono hlater) (hdeliver.mono hlater) h (position + 1)

theorem gives_flush (hlisteners : Means tables listeners listeners')
    (hdeliver : Agrees tables deliver deliver') (h : Means tables dispatch dispatch')
    (source : NodeRef) (height : Nat) :
    Gives tables (Dispatch.flush listeners deliver source height dispatch)
      (Patchbay.Dispatch.flush listeners' deliver' source height dispatch') := by
  refine .of_proper fun hproper => ?_
  have hsize : dispatch'.stack.size = dispatch.stack.size :=
    h.same hproper (f := fun dispatch => dispatch.stack.size)
      (g := fun dispatch => dispatch.stack.size) fun _ _ => Array.size_map ..
  unfold Dispatch.flush Patchbay.Dispatch.flush
  rw [hsize]
  refine (gives_drain hlisteners hdeliver h source _ height).bind fun later _ dispatch h => ?_
  refine .pure fun hproper ρ hρ => ?_
  rw [← h hproper ρ hρ]
  exact congrArg (fun stack => ({ named ρ dispatch with stack } : Patchbay.Dispatch))
    Array.map_extract

/-- A delivery by numbers and everything that follows from it is that by names. -/
theorem agrees_deliver (hlisteners : Means tables listeners listeners') (room : Nat) :
    Agrees tables (Dispatch.deliver listeners room)
      (Patchbay.Dispatch.deliver listeners' room) := by
  induction room generalizing tables with
  | zero =>
    intro later hlater dispatch dispatch' h message message' hmessage target inlet
    refine .of_proper fun hproper => ?_
    unfold Dispatch.deliver Patchbay.Dispatch.deliver
    rw [show dispatch'.depth = dispatch.depth from h.same hproper fun _ _ => rfl]
    split
    · exact .pure (means_perform h (.of_named fun _ _ => rfl))
    · exact .pure h
  | succ room ih =>
    intro later hlater dispatch dispatch' h message message' hmessage target inlet
    refine .of_proper fun hproper => ?_
    have hsize : dispatch'.stack.size = dispatch.stack.size :=
      h.same hproper (f := fun dispatch => dispatch.stack.size)
        (g := fun dispatch => dispatch.stack.size) fun _ _ => Array.size_map ..
    have hdepth : dispatch'.depth = dispatch.depth := h.same hproper fun _ _ => rfl
    have hdeeper : Means later ({ dispatch with depth := dispatch.depth + 1 } : Dispatch)
        ({ dispatch' with depth := dispatch'.depth + 1 } : Patchbay.Dispatch) :=
      h.map (f := fun dispatch => { dispatch with depth := dispatch.depth + 1 })
        (g := fun dispatch => { dispatch with depth := dispatch.depth + 1 }) fun _ _ => rfl
    unfold Dispatch.deliver Patchbay.Dispatch.deliver
    rw [hsize]
    rw [hdepth] at hdeeper ⊢
    split
    · exact .pure (means_perform h (.of_named fun _ _ => rfl))
    · refine (gives_answerAt hdeeper hmessage target inlet).bind fun second hsecond dispatch h => ?_
      have hlisteners' := (hlisteners.mono hlater).mono hsecond
      refine (gives_flush hlisteners' (ih hlisteners') h target _).bind fun last _ dispatch h => ?_
      exact .pure (h.map (f := fun dispatch => { dispatch with depth := dispatch.depth - 1 })
        (g := fun dispatch => { dispatch with depth := dispatch.depth - 1 }) fun _ _ => rfl)

theorem gives_sendOutside (hlisteners : Means tables listeners listeners')
    (h : Means tables dispatch dispatch') {tie : Tie} {tie' : Patchbay.Tie}
    (htie : Means tables tie tie') (hmessage : Means tables message message') :
    Gives tables (Dispatch.send listeners dispatch tie message)
      (Patchbay.Dispatch.send listeners' dispatch' tie' message') :=
  gives_sendTo hlisteners (agrees_deliver hlisteners maxDepth) h htie hmessage

theorem gives_fire (hlisteners : Means tables listeners listeners')
    (h : Means tables dispatch dispatch') {emissions : List Emission}
    {emissions' : List Patchbay.Emission} (hemissions : Means tables emissions emissions')
    (source : NodeRef) :
    Gives tables (Dispatch.fire listeners dispatch source emissions)
      (Patchbay.Dispatch.fire listeners' dispatch' source emissions') := by
  refine .of_proper fun hproper => ?_
  have hsize : dispatch'.stack.size = dispatch.stack.size :=
    h.same hproper (f := fun dispatch => dispatch.stack.size)
      (g := fun dispatch => dispatch.stack.size) fun _ _ => Array.size_map ..
  unfold Dispatch.fire Patchbay.Dispatch.fire
  rw [hsize]
  exact gives_flush hlisteners (agrees_deliver hlisteners maxDepth) (means_push h hemissions)
    source _

theorem gives_midiInside (hlisteners : Means tables listeners listeners')
    (h : Means tables dispatch dispatch') (event : MidiEvent) :
    Gives tables (Dispatch.midi listeners dispatch event)
      (Patchbay.Dispatch.midi listeners' dispatch' event) := by
  refine .of_proper fun hproper => ?_
  have hplaces : listeners'.toMidi = listeners.toMidi := hlisteners.same hproper fun _ _ => rfl
  unfold Dispatch.midi Patchbay.Dispatch.midi
  rw [hplaces]
  refine .foldlM (fun later hlater place _ dispatch dispatch' h => .of_proper fun hproper => ?_) h
  rcases (means_node? h place).option hproper with
    ⟨hnone, hnone'⟩ | ⟨node, node', hsome, hsome', hnode⟩
  · rw [hnone, hnone']
    exact .pure h
  · rw [hsome, hsome']
    have hemissions : Means later (node.answerMidi event) (node'.answerMidi event) :=
      hnode.map (f := fun node => node.answerMidi event) (g := fun node => node.answerMidi event)
        fun _ _ => (answerMidi_named node event).symm
    exact gives_fire (hlisteners.mono hlater) h hemissions place

theorem gives_bangAll (hlisteners : Means tables listeners listeners')
    (h : Means tables dispatch dispatch') (places : List NodeRef) :
    Gives tables (Dispatch.bangAll listeners dispatch places)
      (Patchbay.Dispatch.bangAll listeners' dispatch' places) :=
  .foldlM (fun _ hlater place _ _ _ h =>
    gives_fire (hlisteners.mono hlater) h (.of_named fun _ _ => rfl) place) h

end

/-! ## The engine -/

section
variable {engine : Engine} {engine' : Patchbay.Engine}

theorem gives_dispatch (h : Means tables engine engine') {work : Dispatch → Numbering Dispatch}
    {work' : Patchbay.Dispatch → Patchbay.Dispatch}
    (hwork : ∀ dispatch dispatch', Means tables dispatch dispatch' →
      Gives tables (work dispatch) (work' dispatch')) :
    Gives tables (engine.dispatch work) (engine'.dispatch work') := by
  have hstart : Means tables
      ({ slots := engine.slots, stack := engine.stack, depth := engine.depth } : Dispatch)
      ({ slots := engine'.slots, stack := engine'.stack, depth := engine'.depth } :
        Patchbay.Dispatch) :=
    fun hproper ρ hρ => by
      rw [← h hproper ρ hρ]
      exact congrArg (fun effects =>
        ({ slots := (named ρ engine).slots, stack := (named ρ engine).stack
           depth := (named ρ engine).depth, effects } : Patchbay.Dispatch)) Array.map_empty
  refine (hwork _ _ hstart).bind fun later hlater done hdone => ?_
  refine .pure fun hproper ρ hρ => ?_
  simp only [Patchbay.Engine.dispatch]
  rw [← hdone hproper ρ hρ, ← (h.mono hlater) hproper ρ hρ]
  exact Prod.ext rfl Array.toList_map.symm

theorem means_listeners (h : Means tables engine engine') :
    Means tables engine.listeners engine'.listeners :=
  h.map (f := Engine.listeners) (g := Patchbay.Engine.listeners) fun _ _ => rfl

theorem gives_send (h : Means tables engine engine') {tie : Tie} {tie' : Patchbay.Tie}
    (htie : Means tables tie tie') {message : Message} {message' : Patchbay.Message}
    (hmessage : Means tables message message') :
    Gives tables (engine.send tie message) (engine'.send tie' message') :=
  gives_dispatch h fun _ _ hdispatch =>
    gives_sendOutside (means_listeners h) hdispatch htie hmessage

theorem gives_midi (h : Means tables engine engine') (event : MidiEvent) :
    Gives tables (engine.midi event) (engine'.midi event) :=
  gives_dispatch h fun _ _ hdispatch => gives_midiInside (means_listeners h) hdispatch event

theorem loadbangs_named (engine : Engine) (id : PatchId) :
    (named ρ engine).loadbangs id = engine.loadbangs id := by
  have hpatch : (named ρ engine).slots.patch? id = named ρ (engine.slots.patch? id) :=
    Slots.patch?_named engine.slots id
  unfold Patchbay.Engine.loadbangs Engine.loadbangs
  rw [hpatch]
  cases engine.slots.patch? id with
  | none => rfl
  | some patch =>
    have hfires (box : PatchObject) :
        (named ρ box).node.isLoadbang = box.node.isLoadbang :=
      isLoadbang_named box.node
    show (((patch.objects.map (named ρ)).zipIdx.filter _).map _) = _
    simp only [List.zipIdx_map, List.filter_map, List.map_map, Function.comp_def, Prod.map_fst,
      hfires]
    rfl

theorem gives_loadbang (h : Means tables engine engine') (id : PatchId) :
    Gives tables (engine.loadbang id) (engine'.loadbang id) := by
  refine .of_proper fun hproper => ?_
  have hplaces : engine'.loadbangs id = engine.loadbangs id :=
    h.same hproper (f := fun engine => engine.loadbangs id)
      (g := fun engine => engine.loadbangs id) fun _ _ => loadbangs_named engine id
  unfold Engine.loadbang Patchbay.Engine.loadbang
  rw [hplaces]
  exact gives_dispatch h fun _ _ hdispatch => gives_bangAll (means_listeners h) hdispatch _

theorem chainEffects_named (chain : Chain) :
    Patchbay.Engine.chainEffects chain = named ρ (Engine.chainEffects chain) := by
  simp only [Patchbay.Engine.chainEffects, Engine.chainEffects]
  split <;> rfl

/-- The chain is rebuilt without names. -/
theorem rebuildChain_named (engine : Engine) :
    (named ρ engine).rebuildChain = named ρ engine.rebuildChain := by
  have hbuild (format : AudioFormat) :
      Chain.build (named ρ engine.slots) format = Chain.build engine.slots.nameless format := by
    rw [Slots.nameless_eq, Chain.build_anonymous]
  have hslots : (named ρ engine).slots = named ρ engine.slots := rfl
  have hformat : (named ρ engine).format = engine.format := rfl
  unfold Patchbay.Engine.rebuildChain Engine.rebuildChain
  rw [hformat]
  cases engine.format with
  | none => rfl
  | some format =>
    simp only [hslots, hbuild]
    exact congrArg (Prod.mk _) (chainEffects_named _)

theorem prepare_named (engine : Engine) (format : AudioFormat) :
    (named ρ engine).prepare format = named ρ (engine.prepare format) :=
  rebuildChain_named { engine with format := some format }

theorem gives_perform (h : Means tables engine engine') (size : Nat)
    (inputs outputs : List Block) :
    Gives tables (engine.perform size inputs outputs)
      (engine'.perform size inputs outputs) := by
  refine .of_proper fun hproper => ?_
  have hran : engine'.chain.perform engine'.slots size inputs outputs =
      engine.chain.perform engine.slots.nameless size inputs outputs :=
    h.same hproper
      (f := fun engine => engine.chain.perform engine.slots.nameless size inputs outputs)
      (g := fun engine => engine.chain.perform engine.slots size inputs outputs)
      fun ρ _ => by
        rw [Slots.nameless_eq (ρ := ρ), Chain.perform_anonymous]
        rfl
  have hticks : engine'.chain.ticks = engine.chain.ticks :=
    h.same hproper (f := fun engine => engine.chain.ticks)
      (g := fun engine => engine.chain.ticks) fun _ _ => rfl
  unfold Engine.perform Patchbay.Engine.perform
  rw [hran, hticks]
  obtain ⟨chain, blocks⟩ := engine.chain.perform engine.slots.nameless size inputs outputs
  have hran' : Means tables ({ engine with chain } : Engine)
      ({ engine' with chain } : Patchbay.Engine) := by
    intro hproper ρ hρ
    rw [← h hproper ρ hρ]
    rfl
  refine (gives_dispatch hran' fun _ _ hdispatch =>
    gives_bangAll (means_listeners h) hdispatch engine.chain.ticks).bind fun _ _ done hdone => ?_
  exact .pure (hdone.fst.prod (.prod (.of_named fun _ _ => named_blocks blocks) hdone.snd))

end

/-! ### Opening and closing -/

end Numbering

namespace Reading.Faithful
variable (hρ : ρ.Faithful)
include hρ

theorem withSlots_named (engine : Engine) (slots : Slots) :
    (named ρ engine).withSlots (named ρ slots) = named ρ (engine.withSlots slots) := by
  have hlisteners := hρ.ofSlots_named slots
  exact congrArg
    (fun listeners => ({ named ρ engine with slots := named ρ slots, listeners } : Patchbay.Engine))
    hlisteners

theorem insert_named (engine : Engine) (patch : Patch) :
    (named ρ engine).insert (named ρ patch) = named ρ (engine.insert patch) := by
  have hslots : (named ρ engine).slots.insert (named ρ patch) =
      named ρ (engine.slots.insert patch) :=
    Slots.insert_named engine.slots patch
  unfold Patchbay.Engine.insert Engine.insert
  rw [hslots]
  exact congrArg (·, _) (hρ.withSlots_named engine _)

theorem remove?_named (engine : Engine) (id : PatchId) :
    (named ρ engine).remove? id = named ρ (engine.remove? id) := by
  have hslots : (named ρ engine).slots.remove? id = named ρ (engine.slots.remove? id) :=
    Slots.remove?_named engine.slots id
  unfold Patchbay.Engine.remove? Engine.remove?
  rw [hslots]
  cases engine.slots.remove? id with
  | none => rfl
  | some removed =>
    exact congrArg (fun engine => some (named ρ removed.1, engine))
      (hρ.withSlots_named engine removed.2)

end Reading.Faithful

end Patchbay.Numbered
