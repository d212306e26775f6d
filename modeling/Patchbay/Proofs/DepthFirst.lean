import Mathlib.Data.List.Basic
import Patchbay.Engine.Engine
import Patchbay.Proofs.Places

/-!
# Depth first dispatch

Plain recursion says what a message does: an object answers it, and everything the
object emits is carried out in order, each emission with all that follows from it
before the next. There is no stack here and no table of listeners. What a delivery
reaches is read off the objects as they are at that moment, and the host is called
on the spot.

The dispatcher of an engine gives the same objects and the same calls.

## Implementation notes

A nesting of `maxDepth` ends a branch with a post, so the nesting that is left
bounds the recursion.
-/

namespace Patchbay
namespace DepthFirst

/-- The objects of the open patches, and what the host has been called with. -/
structure Scene where
  slots : Slots
  calls : List Call := []

/-- A way to hand a message to an inlet of an object. -/
abbrev Handing := Scene → NodeRef → Nat → Message → Scene

/-- Call the host. -/
def Scene.tell (scene : Scene) (calls : List Call) : Scene :=
  { scene with calls := scene.calls ++ calls }

/-- The objects that listen at a tie, in slot and object order. -/
def receivers (slots : Slots) (tie : Tie) : List NodeRef :=
  slots.placesOf fun node => node.listensAt == some tie

/-- Hand a message to every target of an outlet, in connection order. -/
def outOf (hand : Handing) (scene : Scene) (source : NodeRef) (outlet : Nat)
    (message : Message) : Scene :=
  (scene.slots.targets source outlet).foldl
    (fun scene target => hand scene { slot := source.slot, object := target.1 } target.2 message)
    scene

section
variable (hooks : Hooks) (id : Nat)

/-- Hand a message to every listener of a tie, then to every sink bound to it. -/
def toTie (hand : Handing) (scene : Scene) (tie : Tie) (message : Message) : Scene :=
  ((receivers scene.slots tie).foldl (fun scene place => hand scene place 0 message) scene).tell
    ((hooks.bound tie).flatMap fun sink => sink.receive tie message)

/-- Carry out an emission of `source`. -/
def emit (hand : Handing) (source : NodeRef) (scene : Scene) : Emission → Scene
  | .outlet outlet message => outOf hand scene source outlet message
  | .send tie message => toTie hooks hand scene tie message
  | .post level text => scene.tell (hooks.post id level text)
  | .midi event => scene.tell ((hooks.midi.map fun sink => sink.receive event).getD [])
  | .done => scene

/-- Deliver a message at a nesting: the object answers once, and its emissions are
carried out in order, one level deeper. -/
def deliver (nesting : Nat) : Handing := fun scene target inlet message =>
  if _ : maxDepth ≤ nesting then scene.tell (hooks.post id .error "stack overflow")
  else
    match scene.slots.node? target with
    | some node =>
      let (node, emissions) := node.answer inlet message
      emissions.foldl (emit hooks id (deliver (nesting + 1)) target)
        { scene with slots := scene.slots.setNode target node }
    | none => scene
termination_by maxDepth - nesting

/-- A message from outside to a tie. -/
def send (scene : Scene) (tie : Tie) (message : Message) : Scene :=
  toTie hooks (deliver hooks id 0) scene tie message

/-- Carry out emissions that an object makes of its own accord. -/
def fire (scene : Scene) (source : NodeRef) (emissions : List Emission) : Scene :=
  emissions.foldl (emit hooks id (deliver hooks id 0) source) scene

/-- A MIDI event from outside, which every MIDI input answers in turn. -/
def midi (scene : Scene) (event : MidiEvent) : Scene :=
  (scene.slots.placesOf Node.isMidiIn).foldl (fun scene place =>
    match scene.slots.node? place with
    | some node => fire hooks id scene place (node.answerMidi event)
    | none => scene) scene

/-- Bang the objects of a patch one after the other, as far as they fire on loading. -/
def loadbang (scene : Scene) (patch : PatchId) : Scene :=
  match scene.slots.patch? patch with
  | some opened =>
    (List.range opened.objects.length).foldl (fun scene object =>
      let place : NodeRef := { slot := patch.slot, object }
      if scene.slots.node? place = some .loadbang then
        fire hooks id scene place [.outlet 0 .bang]
      else scene) scene
  | none => scene

/-- Bang every object that fires after a block. -/
def tick (scene : Scene) : Scene :=
  (scene.slots.placesOf Node.isTick).foldl
    (fun scene place => fire hooks id scene place [.outlet 0 .bang]) scene

end

end DepthFirst

/-! ## The dispatcher beside it -/

namespace Dispatch
open DepthFirst
variable {hooks : Hooks} {id : Nat} {slots : Slots} {depth : Nat}

/-- What a dispatch looks like from outside. -/
def scene (hooks : Hooks) (id : Nat) (dispatch : Dispatch) : Scene :=
  { slots := dispatch.slots, calls := hooks.run id dispatch.effects.toList }

/-- A dispatch has come to show a scene, and is back at the stack and the nesting it
started with. -/
structure Mirrors (hooks : Hooks) (id : Nat) (before after : Dispatch) (shown : Scene) :
    Prop where
  scene_eq : after.scene hooks id = shown
  stack_eq : after.stack = before.stack
  depth_eq : after.depth = before.depth
  outline_eq : after.slots.outline = before.slots.outline

/-- The objects still have the outline of `slots`, and the nesting is as stated. -/
structure Fits (slots : Slots) (depth : Nat) (dispatch : Dispatch) : Prop where
  outline_eq : dispatch.slots.outline = slots.outline
  depth_eq : dispatch.depth = depth

/-- A delivery does what a handing does, from every dispatch at a nesting. -/
def Imitates (hooks : Hooks) (id : Nat) (slots : Slots) (depth : Nat)
    (delivery : Delivery) (hand : Handing) : Prop :=
  ∀ before, before.Fits slots depth → ∀ target inlet message,
    Mirrors hooks id before (delivery before target inlet message)
      (hand (before.scene hooks id) target inlet message)

/-! ### Mirroring -/

theorem Mirrors.refl (before : Dispatch) :
    Mirrors hooks id before before (before.scene hooks id) :=
  ⟨rfl, rfl, rfl, rfl⟩

theorem Mirrors.trans {first second third : Dispatch} {shown shown' : Scene}
    (h : Mirrors hooks id first second shown) (h' : Mirrors hooks id second third shown') :
    Mirrors hooks id first third shown' where
  scene_eq := h'.scene_eq
  stack_eq := h'.stack_eq.trans h.stack_eq
  depth_eq := h'.depth_eq.trans h.depth_eq
  outline_eq := h'.outline_eq.trans h.outline_eq

theorem Fits.of_outline {before after : Dispatch} (h : before.Fits slots depth)
    (houtline : after.slots.outline = before.slots.outline) (hdepth : after.depth = before.depth) :
    after.Fits slots depth where
  outline_eq := houtline.trans h.outline_eq
  depth_eq := hdepth.trans h.depth_eq

theorem Mirrors.fits {before after : Dispatch} {shown : Scene}
    (h : Mirrors hooks id before after shown) (hfits : before.Fits slots depth) :
    after.Fits slots depth :=
  hfits.of_outline h.outline_eq h.depth_eq

/-- Work on the items of a list in turn mirrors the same walk over scenes. -/
theorem foldl_mirrors {α : Type} {work : Dispatch → α → Dispatch} {shown : Scene → α → Scene}
    (hwork : ∀ before, before.Fits slots depth → ∀ item,
      Mirrors hooks id before (work before item) (shown (before.scene hooks id) item))
    (items : List α) {before : Dispatch} (hfits : before.Fits slots depth) :
    Mirrors hooks id before (items.foldl work before)
      (items.foldl shown (before.scene hooks id)) := by
  apply List.foldl_rel (r := fun after scene => Mirrors hooks id before after scene)
    (Mirrors.refl before)
  intro item _ after scene h
  rw [← h.scene_eq]
  exact h.trans (hwork after (h.fits hfits) item)

theorem perform_mirrors (before : Dispatch) (effect : Effect) :
    Mirrors hooks id before (before.perform effect)
      ((before.scene hooks id).tell (hooks.calls id effect)) where
  scene_eq := by simp [perform, scene, Scene.tell, Hooks.run]
  stack_eq := rfl
  depth_eq := rfl
  outline_eq := rfl

/-! ### Emissions -/

section
variable {delivery : Delivery} {hand : Handing}

theorem fanOut_mirrors (h : Imitates hooks id slots depth delivery hand)
    {before : Dispatch} (hfits : before.Fits slots depth) (source : NodeRef) (outlet : Nat)
    (message : Message) :
    Mirrors hooks id before (fanOut delivery before source outlet message)
      (outOf hand (before.scene hooks id) source outlet message) :=
  foldl_mirrors (fun before hfits target => h before hfits _ target.2 message) _ hfits

theorem sendTo_mirrors (h : Imitates hooks id slots depth delivery hand)
    {before : Dispatch} (hfits : before.Fits slots depth) (tie : Tie) (message : Message) :
    Mirrors hooks id before (sendTo (Listeners.ofSlots slots) delivery before tie message)
      (toTie hooks hand (before.scene hooks id) tie message) := by
  have hreceivers :
      receivers (before.scene hooks id).slots tie = (Listeners.ofSlots slots).listening tie := by
    rw [← Listeners.ofSlots_eq_of_outline hfits.outline_eq, Listeners.listening_ofSlots]
    rfl
  have hserved : Mirrors hooks id before
      (((Listeners.ofSlots slots).listening tie).foldl
        (fun dispatch target => delivery dispatch target 0 message) before)
      (((Listeners.ofSlots slots).listening tie).foldl
        (fun scene place => hand scene place 0 message) (before.scene hooks id)) :=
    foldl_mirrors (fun before hfits place => h before hfits place 0 message) _ hfits
  have htold := hserved.trans (perform_mirrors _ (.message tie message))
  rw [hserved.scene_eq] at htold
  unfold sendTo toTie
  rw [hreceivers]
  exact htold

theorem carryOut_mirrors (h : Imitates hooks id slots depth delivery hand)
    {before : Dispatch} (hfits : before.Fits slots depth) (source : NodeRef)
    (emission : Emission) :
    Mirrors hooks id before (carryOut (Listeners.ofSlots slots) delivery source before emission)
      (emit hooks id hand source (before.scene hooks id) emission) := by
  cases emission with
  | outlet outlet message => exact fanOut_mirrors h hfits source outlet message
  | send tie message => exact sendTo_mirrors h hfits tie message
  | post level text => exact perform_mirrors before (.post level text)
  | midi event => exact perform_mirrors before (.midi event)
  | done => exact Mirrors.refl before

/-! ### Stack frames -/

/-- The walk over a stack frame: from a position on every entry is taken out of the stack
and carried out, until the position has come to the end of the stack as it is then. -/
inductive Walk (listeners : Listeners) (delivery : Delivery) (source : NodeRef) :
    Nat → Dispatch → Dispatch → Prop
  | stop {position : Nat} {dispatch : Dispatch} :
      dispatch.stack.size ≤ position → Walk listeners delivery source position dispatch dispatch
  | step {position : Nat} {dispatch final : Dispatch} {emission : Emission} :
      dispatch.stack[position]? = some emission →
      Walk listeners delivery source (position + 1)
        (carryOut listeners delivery source
          { dispatch with stack := dispatch.stack.setIfInBounds position .done } emission) final →
      Walk listeners delivery source position dispatch final

/-- Carrying out the rest of a stack from a position on walks to the end of the stack. It
mirrors the emissions there, and leaves the stack below the position alone. -/
theorem drain_mirrors (h : Imitates hooks id slots depth delivery hand)
    (source : NodeRef) (rest : List Emission) {before : Dispatch} {position : Nat}
    (hfits : before.Fits slots depth) (hrest : before.stack.toList.drop position = rest) :
    let after := drain (Listeners.ofSlots slots) delivery source rest.length position before
    Mirrors hooks id before { after with stack := before.stack }
        (rest.foldl (emit hooks id hand source) (before.scene hooks id)) ∧
      (∀ height ≤ position,
        after.stack.toList.take height = before.stack.toList.take height) ∧
      Walk (Listeners.ofSlots slots) delivery source position before after := by
  induction rest generalizing before position with
  | nil =>
    refine ⟨Mirrors.refl before, fun _ _ => rfl, .stop ?_⟩
    simpa using List.drop_eq_nil_iff.mp hrest
  | cons emission rest ih =>
    have hentry : before.stack[position]? = some emission := by
      have h := congrArg (fun items => items[0]?) hrest
      simpa using h
    let marked : Dispatch := { before with stack := before.stack.setIfInBounds position .done }
    have hmarked : marked.Fits slots depth := ⟨hfits.outline_eq, hfits.depth_eq⟩
    have hstep := carryOut_mirrors h hmarked source emission
    have hnext :
        (carryOut (Listeners.ofSlots slots) delivery source marked emission).stack.toList.drop
          (position + 1) = rest := by
      rw [hstep.stack_eq, Array.toList_setIfInBounds, List.drop_set_of_lt (Nat.lt_succ_self _),
        ← List.tail_drop, hrest, List.tail_cons]
    obtain ⟨hmirrors, hbelow, hwalk⟩ := ih (hstep.fits hmarked) hnext
    simp only [List.length_cons, drain, hentry]
    refine ⟨?_, ?_, .step hentry hwalk⟩
    · rw [hstep.scene_eq] at hmirrors
      exact ⟨hmirrors.scene_eq, rfl, hmirrors.depth_eq.trans hstep.depth_eq,
        hmirrors.outline_eq.trans hstep.outline_eq⟩
    · intro height hle
      rw [hbelow height (Nat.le_succ_of_le hle), hstep.stack_eq, Array.toList_setIfInBounds,
        List.take_set_of_le hle]

/-- The entries above a height are walked over to the end of the stack, which is then cut
back. -/
theorem flush_walks (h : Imitates hooks id slots depth delivery hand) (source : NodeRef)
    (height : Nat) {before : Dispatch} (hfits : before.Fits slots depth) :
    ∃ after, Walk (Listeners.ofSlots slots) delivery source height before after ∧
      flush (Listeners.ofSlots slots) delivery source height before =
        { after with stack := after.stack.take height } := by
  obtain ⟨-, -, hwalk⟩ := drain_mirrors h source _ hfits rfl
  rw [List.length_drop, Array.length_toList] at hwalk
  exact ⟨_, hwalk, rfl⟩

/-- Emissions on top of a stack are carried out and gone again. -/
theorem flush_push_mirrors (h : Imitates hooks id slots depth delivery hand)
    (source : NodeRef) (emissions : List Emission) {before : Dispatch}
    (hfits : before.Fits slots depth) :
    Mirrors hooks id before
      (flush (Listeners.ofSlots slots) delivery source before.stack.size (before.push emissions))
      (emissions.foldl (emit hooks id hand source) (before.scene hooks id)) := by
  have hpushed : (before.push emissions).Fits slots depth :=
    ⟨hfits.outline_eq, hfits.depth_eq⟩
  have hrest : (before.push emissions).stack.toList.drop before.stack.size = emissions := by
    simp [push]
  obtain ⟨hmirrors, hbelow, -⟩ := drain_mirrors h source emissions hpushed hrest
  have hcount : (before.push emissions).stack.size - before.stack.size = emissions.length := by
    simp [push]
  simp only [flush, hcount]
  refine ⟨hmirrors.scene_eq, ?_, hmirrors.depth_eq, hmirrors.outline_eq⟩
  apply Array.toList_inj.mp
  simpa [push] using hbelow before.stack.size (Nat.le_refl _)

/-- An object that answers shows its new state, with its emissions on the stack. -/
theorem answer_mirrors (hooks : Hooks) (id : Nat) (before : Dispatch) {target : NodeRef}
    {node : Node} (hnode : before.slots.node? target = some node) (inlet : Nat)
    (message : Message) :
    ∃ after : Dispatch,
      before.answer target inlet message = after.push (node.answer inlet message).2 ∧
      Mirrors hooks id before after
        { before.scene hooks id with
          slots := before.slots.setNode target (node.answer inlet message).1 } := by
  refine ⟨{ before with slots := before.slots.setNode target (node.answer inlet message).1 },
    ?_, rfl, rfl, rfl, ?_⟩
  · simp only [answer, hnode]
  · exact Slots.outline_setNode _ _ _ node hnode (Node.outline_answer node inlet message)

end

/-! ### Deliveries -/

/-- Leaving a delivery undoes the step down that entering it took. -/
theorem Mirrors.leave {before after : Dispatch} {shown : Scene}
    (h : Mirrors hooks id { before with depth := before.depth + 1 } after shown) :
    Mirrors hooks id before { after with depth := after.depth - 1 } shown where
  scene_eq := h.scene_eq
  stack_eq := h.stack_eq
  depth_eq := by
    have hdepth : after.depth = before.depth + 1 := h.depth_eq
    simp [hdepth]
  outline_eq := h.outline_eq

/-- With the room that a nesting leaves, the dispatcher delivers as plain recursion does. -/
theorem deliver_imitates (room : Nat) (hroom : depth + room = maxDepth) :
    Imitates hooks id slots depth (deliver (Listeners.ofSlots slots) room)
      (DepthFirst.deliver hooks id depth) := by
  induction room generalizing depth with
  | zero =>
    intro before hfits target inlet message
    have hfull : maxDepth ≤ depth := by omega
    rw [deliver, DepthFirst.deliver, if_pos (hfits.depth_eq ▸ hfull), dif_pos hfull]
    exact perform_mirrors before (.post .error "stack overflow")
  | succ room ih =>
    intro before hfits target inlet message
    have hspare : ¬ maxDepth ≤ depth := by omega
    have hinner := ih (by omega : depth + 1 + room = maxDepth)
    rw [deliver, DepthFirst.deliver, if_neg (hfits.depth_eq ▸ hspare), dif_neg hspare]
    apply Mirrors.leave
    let entered : Dispatch := { before with depth := before.depth + 1 }
    have hentered : entered.Fits slots (depth + 1) :=
      ⟨hfits.outline_eq, congrArg (· + 1) hfits.depth_eq⟩
    have hscene : (before.scene hooks id).slots = before.slots := rfl
    cases hnode : before.slots.node? target with
    | none =>
      have hanswer : entered.answer target inlet message = entered.push [] := by
        simp [answer, push, entered, hnode]
      simp only [hscene, hnode]
      rw [show Dispatch.answer _ target inlet message = _ from hanswer]
      exact flush_push_mirrors hinner target [] hentered
    | some node =>
      obtain ⟨after, hanswer, hmirrors⟩ :=
        answer_mirrors hooks id entered hnode inlet message
      simp only [hscene, hnode]
      rw [show Dispatch.answer _ target inlet message = _ from hanswer]
      have hflush := flush_push_mirrors hinner target (node.answer inlet message).2
        (hmirrors.fits hentered)
      rw [hmirrors.scene_eq, hmirrors.stack_eq] at hflush
      exact hmirrors.trans hflush

/-! ### What comes from outside -/

theorem send_mirrors {before : Dispatch} (hfits : before.Fits slots 0) (tie : Tie)
    (message : Message) :
    Mirrors hooks id before (send (Listeners.ofSlots slots) before tie message)
      (DepthFirst.send hooks id (before.scene hooks id) tie message) :=
  sendTo_mirrors (deliver_imitates maxDepth (Nat.zero_add _)) hfits tie message

theorem fire_mirrors {before : Dispatch} (hfits : before.Fits slots 0) (source : NodeRef)
    (emissions : List Emission) :
    Mirrors hooks id before (fire (Listeners.ofSlots slots) before source emissions)
      (DepthFirst.fire hooks id (before.scene hooks id) source emissions) :=
  flush_push_mirrors (deliver_imitates maxDepth (Nat.zero_add _)) source emissions hfits

theorem midi_mirrors {before : Dispatch} (hfits : before.Fits slots 0) (event : MidiEvent) :
    Mirrors hooks id before (midi (Listeners.ofSlots slots) before event)
      (DepthFirst.midi hooks id (before.scene hooks id) event) := by
  have hplaces : (before.scene hooks id).slots.placesOf Node.isMidiIn =
      (Listeners.ofSlots slots).toMidi :=
    Slots.placesOf_eq_of_outline hfits.outline_eq Node.isMidiIn_outline
  rw [midi, DepthFirst.midi, hplaces]
  apply foldl_mirrors _ _ hfits
  intro before hfits place
  have hscene : (before.scene hooks id).slots = before.slots := rfl
  rw [hscene]
  cases before.slots.node? place with
  | none => exact Mirrors.refl before
  | some node => exact fire_mirrors hfits place (node.answerMidi event)

theorem bangAll_mirrors {before : Dispatch} (hfits : before.Fits slots 0)
    (places : List NodeRef) :
    Mirrors hooks id before (bangAll (Listeners.ofSlots slots) before places)
      (places.foldl (fun scene place => DepthFirst.fire hooks id scene place [.outlet 0 .bang])
        (before.scene hooks id)) :=
  foldl_mirrors (fun _ hfits place => fire_mirrors hfits place [.outlet 0 .bang]) places hfits

/-- The objects of a patch that fire on loading, told by looking at every place. -/
theorem loadbangs_eq {engine : Engine} {patch : PatchId} {opened : Patch}
    (h : engine.slots.patch? patch = some opened) :
    engine.loadbangs patch =
      ((List.range opened.objects.length).filter fun object =>
        decide (engine.slots.node? ⟨patch.slot, object⟩ = some .loadbang)).map
          (NodeRef.mk patch.slot) := by
  have hrange : List.range opened.objects.length = opened.objects.zipIdx.map Prod.snd := by
    rw [List.zipIdx_map_snd, List.range_eq_range']
  simp only [Engine.loadbangs, h, hrange, List.filter_map, List.map_map]
  congr 1
  apply List.filter_congr
  rintro ⟨object, index⟩ hentry
  have hnode : engine.slots.node? ⟨patch.slot, index⟩ = some object.node := by
    rw [Slots.node?, Slots.patchAt_of_patch? h, Option.bind_some, Patch.node?,
      List.mk_mem_zipIdx_iff_getElem?.mp hentry, Option.map_some]
  simp only [Function.comp_apply, hnode]
  cases object.node <;> simp [Node.isLoadbang]

theorem loadbang_mirrors {engine : Engine} {before : Dispatch}
    (hslots : before.slots = engine.slots) (hdepth : before.depth = 0) (patch : PatchId) :
    Mirrors hooks id before
      (bangAll (Listeners.ofSlots engine.slots) before (engine.loadbangs patch))
      (DepthFirst.loadbang hooks id (before.scene hooks id) patch) := by
  have hscene : (before.scene hooks id).slots = engine.slots := hslots
  rw [DepthFirst.loadbang, hscene]
  cases h : engine.slots.patch? patch with
  | none =>
    simp only [Engine.loadbangs, h]
    exact Mirrors.refl before
  | some opened =>
    simp only [loadbangs_eq h, bangAll, List.foldl_map, List.foldl_filter]
    apply foldl_mirrors _ _ (⟨congrArg Slots.outline hslots, hdepth⟩ : before.Fits engine.slots 0)
    intro before hfits object
    have hsame : (before.scene hooks id).slots.node? ⟨patch.slot, object⟩ = some .loadbang ↔
        engine.slots.node? ⟨patch.slot, object⟩ = some .loadbang :=
      Slots.node?_eq_loadbang_iff_of_outline hfits.outline_eq _
    by_cases hfires : engine.slots.node? ⟨patch.slot, object⟩ = some .loadbang
    · simp only [hfires, hsame.mpr hfires, decide_true, ↓reduceIte]
      exact fire_mirrors hfits _ _
    · simp only [hfires, mt hsame.mp hfires, decide_false, ↓reduceIte]
      exact Mirrors.refl before

end Dispatch

end Patchbay
