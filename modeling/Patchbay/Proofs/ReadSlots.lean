import Patchbay.Proofs.ReadPatches
import Patchbay.Signal.Perform

/-!
# Open patches read by names

The slots of a process are read slot by slot, and looking for a patch, an object or a
connection commutes with reading. Signal chains have nothing to do with names: a chain is
built and run alike for patches without the names of their objects.
-/

namespace Patchbay

/-! ## Patches without names -/

/-- An object of the kinds that have no names; the others do nothing. -/
def Node.anonymous : Node → Node
  | .receive _ | .send _ | .print _ | .messageBox _ | .gui _ => .inert
  | node => node

/-- A box without its name. -/
def PatchObject.anonymous (object : PatchObject) : PatchObject :=
  { object with name := .empty, node := object.node.anonymous }

/-- A patch without the names of its objects. -/
def Patch.anonymous (patch : Patch) : Patch :=
  { patch with objects := patch.objects.map PatchObject.anonymous }

/-- The slots without the names of all objects. -/
def Slots.anonymous (slots : Slots) : Slots :=
  slots.map fun slot => { slot with patch := slot.patch.map Patch.anonymous }

@[simp] theorem Node.signalPorts_anonymous (node : Node) :
    node.anonymous.signalPorts = node.signalPorts := by
  cases node <;> rfl

@[simp] theorem Node.isSignal_anonymous (node : Node) :
    node.anonymous.isSignal = node.isSignal := by
  simp [isSignal]

@[simp] theorem Node.isTick_anonymous (node : Node) : node.anonymous.isTick = node.isTick := by
  cases node <;> rfl

namespace Slots

theorem node?_anonymous (slots : Slots) (place : NodeRef) :
    slots.anonymous.node? place = (slots.node? place).map Node.anonymous := by
  simp only [node?, patchAt, anonymous, List.getElem?_map]
  rcases slots[place.slot]? with _ | ⟨generation, _ | patch⟩
  · rfl
  · rfl
  · simp [Patch.node?, Patch.anonymous, PatchObject.anonymous, Function.comp_def]

theorem patches_anonymous (slots : Slots) :
    slots.anonymous.patches = slots.patches.map fun entry => (entry.1, entry.2.anonymous) := by
  simp only [anonymous, patches, List.zipIdx_map, List.filterMap_map, List.map_filterMap]
  refine List.filterMap_congr fun entry _ => ?_
  simp [Function.comp_def]

theorem nodes_anonymous (slots : Slots) :
    slots.anonymous.nodes = slots.nodes.map fun entry => (entry.1, entry.2.anonymous) := by
  simp only [nodes, patches_anonymous, List.flatMap_map, List.map_flatMap]
  congr 1
  funext entry
  simp [Patch.anonymous, PatchObject.anonymous, List.zipIdx_map, Function.comp_def]

end Slots

/-! ## Chains without names -/

theorem SignalGraph.ofSlots_anonymous (slots : Slots) :
    SignalGraph.ofSlots slots.anonymous = SignalGraph.ofSlots slots := by
  have hvertices : verticesOf slots.anonymous = verticesOf slots := by
    simp [verticesOf, Slots.nodes_anonymous, List.filterMap_map]
  simp only [ofSlots, hvertices, Slots.patches_anonymous, List.flatMap_map]
  rfl

namespace Chain

theorem withRoutes_anonymous (slots : Slots) (inputs : Nat) (written : List Bool)
    (steps : List ChainStep) :
    withRoutes slots.anonymous inputs written steps = withRoutes slots inputs written steps := by
  induction steps generalizing written with
  | nil => rfl
  | cons step rest ih =>
    simp only [withRoutes, Slots.node?_anonymous, ih]
    cases slots.node? step.place with
    | none => rfl
    | some node => cases node <;> rfl

/-- Building a chain asks for no names. -/
theorem build_anonymous (slots : Slots) (format : AudioFormat) :
    build slots.anonymous format = build slots format := by
  have hticks : (slots.anonymous.nodes.filter fun entry => entry.2.isTick).map Prod.fst =
      (slots.nodes.filter fun entry => entry.2.isTick).map Prod.fst := by
    simp [Slots.nodes_anonymous, List.filter_map, Function.comp_def]
  simp only [build, SignalGraph.ofSlots_anonymous, withRoutes_anonymous, hticks]

/-- Running a chain asks for no names. -/
theorem perform_anonymous (chain : Chain) (slots : Slots) (size : Nat)
    (inputs outputs : List Block) :
    chain.perform slots.anonymous size inputs outputs =
      chain.perform slots size inputs outputs := by
  have hstep (state : BlockState) (step : ChainStep) :
      state.runStep slots.anonymous size inputs step = state.runStep slots size inputs step := by
    unfold BlockState.runStep
    rw [Slots.node?_anonymous]
    cases slots.node? step.place with
    | none => rfl
    | some node => cases node <;> rfl
  have hsteps : BlockState.runStep slots.anonymous size inputs =
      BlockState.runStep slots size inputs := by
    funext state step
    exact hstep state step
  rw [perform, perform, hsteps]

end Chain

end Patchbay

namespace Patchbay.Numbered

variable {ρ : Reading}

/-! ## Reading the slots -/

namespace Slots
variable (slots : Slots)

theorem patchAt_named (slot : Nat) :
    Patchbay.Slots.patchAt (named ρ slots) slot = named ρ (slots.patchAt slot) := by
  unfold Patchbay.Slots.patchAt patchAt
  rw [getElem?_named]
  cases slots[slot]? <;> rfl

theorem patch?_named (id : PatchId) :
    Patchbay.Slots.patch? (named ρ slots) id = named ρ (slots.patch? id) := by
  unfold Patchbay.Slots.patch? patch?
  rw [getElem?_named]
  cases slots[id.slot]? with
  | none => rfl
  | some slot =>
    show (if slot.generation = id.generation then _ else _) =
      named ρ (if slot.generation = id.generation then _ else _)
    split <;> rfl

theorem node?_named (place : NodeRef) :
    Patchbay.Slots.node? (named ρ slots) place = named ρ (slots.node? place) := by
  unfold Patchbay.Slots.node? node?
  rw [patchAt_named]
  cases slots.patchAt place.slot with
  | none => rfl
  | some patch =>
    show ((named ρ patch).objects[place.object]?).map Patchbay.PatchObject.node =
      named ρ (patch.objects[place.object]?.map PatchObject.node)
    have hobject : (named ρ patch).objects[place.object]? = named ρ patch.objects[place.object]? :=
      getElem?_named patch.objects place.object
    rw [hobject]
    cases patch.objects[place.object]? <;> rfl

theorem targets_named (place : NodeRef) (outlet : Nat) :
    Patchbay.Slots.targets (named ρ slots) place outlet = slots.targets place outlet := by
  unfold Patchbay.Slots.targets targets
  rw [patchAt_named]
  cases slots.patchAt place.slot <;> rfl

end Slots

/-- Changing an item commutes with reading if the change does. -/
theorem modify_named {α β : Type} [Named α β] {f : α → α} {g : β → β}
    (h : ∀ item, g (named ρ item) = named ρ (f item)) (items : List α) (index : Nat) :
    (named ρ items).modify index g = named ρ (items.modify index f) := by
  apply List.ext_getElem?
  intro i
  rw [List.getElem?_modify, getElem?_named, getElem?_named, List.getElem?_modify]
  rcases items[i]? with _ | item
  · rfl
  · by_cases heq : index = i
    · simp [heq, h]
    · simp [heq]

theorem setNode_patch_named (patch : Patch) (object : Nat) (node : Node) :
    (named ρ patch).setNode object (named ρ node) = named ρ (patch.setNode object node) :=
  congrArg (fun objects => ({ named ρ patch with objects } : Patchbay.Patch))
    (modify_named (f := fun box => { box with node }) (fun _ => rfl) patch.objects object)

namespace Slots
variable (slots : Slots)

theorem setNode_named (place : NodeRef) (node : Node) :
    Patchbay.Slots.setNode (named ρ slots) place (named ρ node) =
      named ρ (slots.setNode place node) := by
  refine modify_named (fun slot => ?_) slots place.slot
  obtain ⟨generation, _ | patch⟩ := slot
  · rfl
  · exact congrArg (fun patch => ({ generation, patch := some patch } : Patchbay.Slot))
      (setNode_patch_named patch place.object node)

theorem freeSlot_named : Patchbay.Slots.freeSlot (named ρ slots) = slots.freeSlot := by
  have hfree (slot : Slot) : (named ρ slot).patch.isNone = slot.patch.isNone := by
    obtain ⟨generation, _ | patch⟩ := slot <;> rfl
  simp only [Patchbay.Slots.freeSlot, freeSlot, named_list, List.findIdx?_map, List.length_map,
    Function.comp_def, hfree]

theorem insert_named (patch : Patch) :
    Patchbay.Slots.insert (named ρ slots) (named ρ patch) = named ρ (slots.insert patch) := by
  have hdefault : (named ρ slots).getD slots.freeSlot {} =
      named ρ (slots.getD slots.freeSlot {}) :=
    getD_named slots slots.freeSlot {}
  have hlength : (named ρ slots).length = slots.length := List.length_map _
  simp only [Patchbay.Slots.insert, insert, freeSlot_named, hdefault, hlength]
  refine Prod.ext ?_ rfl
  simp only [named_prod, named_list]
  split
  · rw [List.map_set]
    rfl
  · rw [List.map_append]
    rfl

theorem remove?_named (id : PatchId) :
    Patchbay.Slots.remove? (named ρ slots) id = named ρ (slots.remove? id) := by
  unfold Patchbay.Slots.remove? remove?
  rw [patch?_named]
  cases slots.patch? id with
  | none => rfl
  | some patch =>
    exact congrArg (fun slots => some (named ρ patch, slots))
      (modify_named (f := fun slot => { slot with patch := none }) (fun _ => rfl) slots id.slot)

theorem patches_named :
    Patchbay.Slots.patches (named ρ slots) =
      slots.patches.map fun entry => (entry.1, named ρ entry.2) := by
  simp only [Patchbay.Slots.patches, patches, named_list, List.zipIdx_map, List.filterMap_map,
    List.map_filterMap]
  refine List.filterMap_congr fun entry _ => ?_
  obtain ⟨⟨generation, _ | patch⟩, index⟩ := entry <;> rfl

theorem nodes_named :
    Patchbay.Slots.nodes (named ρ slots) =
      slots.nodes.map fun entry => (entry.1, named ρ entry.2) := by
  simp only [Patchbay.Slots.nodes, nodes, patches_named, List.flatMap_map, List.map_flatMap]
  congr 1
  funext entry
  show (List.map (named ρ) entry.2.objects).zipIdx.map _ = _
  simp only [List.zipIdx_map, List.map_map]
  rfl

/-- Without names, slots and what they are read as are the same. -/
theorem nameless_eq : slots.nameless = Patchbay.Slots.anonymous (named ρ slots) := by
  have hnode (node : Node) : node.nameless = (named ρ node).anonymous := by
    cases node <;> rfl
  have hobject (object : PatchObject) : object.nameless = (named ρ object).anonymous := by
    rw [PatchObject.nameless, hnode]
    rfl
  have hpatch (patch : Patch) : patch.nameless = (named ρ patch).anonymous := by
    have hobjects : patch.objects.map PatchObject.nameless =
        (patch.objects.map (named ρ)).map Patchbay.PatchObject.anonymous := by
      rw [List.map_map]
      exact List.map_congr_left fun object _ => hobject object
    rw [Patch.nameless, hobjects]
    rfl
  rw [nameless, Patchbay.Slots.anonymous, named_list, List.map_map]
  refine List.map_congr_left fun slot _ => ?_
  obtain ⟨generation, _ | patch⟩ := slot
  · rfl
  · simp only [Option.map_some, hpatch]
    rfl

end Slots

/-! ## Reading the listeners -/

namespace Reading.Faithful
variable (hρ : ρ.Faithful)
include hρ

/-- The tables of listeners are told by where objects listen. -/
theorem ofSlots_named (slots : Slots) :
    Patchbay.Listeners.ofSlots (named ρ slots) = named ρ (Listeners.ofSlots slots) := by
  have htie (node : Node) : (named ρ node).listensAt = node.listensAt.map (named ρ) :=
    hρ.listensAt_named node
  refine (Patchbay.Listeners.mk.injEq ..).mpr ⟨?_, ?_⟩
  · rw [Slots.nodes_named, List.filterMap_map, Listeners.ofSlots, named_list, List.map_filterMap]
    refine List.filterMap_congr fun entry _ => ?_
    simp only [Function.comp_apply, htie, Option.map_map]
    rfl
  · simp only [Slots.nodes_named, Listeners.ofSlots, List.filter_map, List.map_map,
      Function.comp_def, isMidiIn_named]

/-- The same objects listen at a number and at its name. -/
theorem listening_named (listeners : Listeners) (tie : Tie) :
    (named ρ listeners).listening (named ρ tie) = listeners.listening tie := by
  have hties : (named ρ listeners).atTies = listeners.atTies.map (named ρ) := rfl
  rw [Patchbay.Listeners.listening, Listeners.listening, hties, List.filter_map, List.map_map]
  have hfilter : (listeners.atTies.filter fun entry => named ρ entry.1 == named ρ tie) =
      listeners.atTies.filter fun entry => entry.1 == tie :=
    List.filter_congr fun entry _ => hρ.beq_tie_named entry.1 tie
  exact congrArg (List.map Prod.snd) hfilter

end Reading.Faithful

end Patchbay.Numbered
