import Mathlib.Data.List.Basic
import Patchbay.Engine.Slots

/-!
# Outlines

A message changes values, contents and the name a `send` aims at. Everything else
about an object stays as it was created: its class, its ports, its channels and
the ties it listens at. The outline of an object is the object without what
messages change, and the outline of the slots keeps the outline of every object.

## Implementation notes

Tables that are built when a patch is opened or closed read outlines only, so
they stay exact while messages are on their way. One lemma on `Node.answer` is
enough for all of them.
-/

namespace Patchbay

/-- An object without the state that messages change. -/
def Node.outline : Node → Node
  | .send _ => .send .empty
  | .messageBox _ => .messageBox []
  | .number _ => .number 0
  | .midiOut kind _ _ => .midiOut kind 0 0
  | .arithmetic operation (some _) => .arithmetic operation (some 0)
  | .constant _ => .constant 0
  | .gui state => .gui { state with value := 0 }
  | node => node

/-- A GUI object keeps everything but its value. -/
theorem Gui.exists_answer_eq (state : Gui) (message : Message) :
    ∃ value, (state.answer message).1 = { state with value } := by
  have unchanged : ∃ value, state = { state with value } := ⟨state.value, rfl⟩
  have banged : ∃ value, state.bang.1 = { state with value } := by
    unfold bang
    split
    · exact ⟨_, rfl⟩
    · exact unchanged
  have stored (arguments : Payload) :
      ∃ value, state.store arguments = { state with value } := by
    unfold store
    split
    · exact ⟨_, rfl⟩
    · exact unchanged
  unfold answer
  split
  · exact unchanged
  · split
    · exact ⟨_, rfl⟩
    · exact unchanged
  · exact unchanged
  · split
    · exact banged
    · split
      · exact stored _
      · exact unchanged
    · split
      · exact ⟨_, rfl⟩
      · exact unchanged

namespace Node

/-! ## What an outline shows -/

@[simp] theorem signalPorts_outline (node : Node) :
    node.outline.signalPorts = node.signalPorts := by
  cases node with
  | arithmetic operation right => cases right <;> rfl
  | _ => rfl

@[simp] theorem isSignal_outline (node : Node) : node.outline.isSignal = node.isSignal := by
  simp [isSignal]

@[simp] theorem listensAt_outline (node : Node) : node.outline.listensAt = node.listensAt := by
  cases node with
  | arithmetic operation right => cases right <;> rfl
  | _ => rfl

@[simp] theorem isMidiIn_outline (node : Node) : node.outline.isMidiIn = node.isMidiIn := by
  cases node with
  | arithmetic operation right => cases right <;> rfl
  | _ => rfl

@[simp] theorem isLoadbang_outline (node : Node) :
    node.outline.isLoadbang = node.isLoadbang := by
  cases node with
  | arithmetic operation right => cases right <;> rfl
  | _ => rfl

@[simp] theorem isTick_outline (node : Node) : node.outline.isTick = node.isTick := by
  cases node with
  | arithmetic operation right => cases right <;> rfl
  | _ => rfl

theorem outline_eq_loadbang {node : Node} : node.outline = .loadbang ↔ node = .loadbang := by
  cases node with
  | arithmetic operation right => cases right <;> simp [outline]
  | _ => simp [outline]

/-! ## Messages keep the outline -/

theorem outline_answerSend (tie : Tie) (inlet : Nat) (message : Message) :
    (answerSend tie inlet message).1.outline = .send .empty := by
  unfold answerSend
  split
  · cases message <;> rfl
  · rfl

theorem outline_answerNumber (stored : Float32) (message : Message) :
    (answerNumber stored message).1.outline = .number 0 := by
  cases message with
  | anything selector arguments =>
    simp only [answerNumber]
    split
    · cases arguments <;> rfl
    · rfl
  | list atoms =>
    simp only [answerNumber]
    cases Message.number? (.list atoms) <;> rfl
  | _ => rfl

theorem outline_answerMidiOut (kind : MidiKind) (second third : Int32) (inlet : Nat)
    (message : Message) :
    (answerMidiOut kind second third inlet message).1.outline = .midiOut kind 0 0 := by
  unfold answerMidiOut
  split
  · rfl
  · rfl
  · split
    · split
      · rfl
      · split <;> rfl
    · rfl

theorem outline_answerArithmetic (operation : Arithmetic) (right : Option Float32)
    (inlet : Nat) (message : Message) :
    ((arithmetic operation right).answer inlet message).1.outline =
      (arithmetic operation right).outline := by
  cases right with
  | none => rfl
  | some right =>
    simp only [answer]
    split <;> rfl

theorem outline_answerConstant (stored : Float32) (inlet : Nat) (message : Message) :
    ((constant stored).answer inlet message).1.outline = .constant 0 := by
  simp only [answer]
  split <;> rfl

theorem outline_answerGui (state : Gui) (inlet : Nat) (message : Message) :
    ((gui state).answer inlet message).1.outline = (gui state).outline := by
  obtain ⟨value, h⟩ := state.exists_answer_eq message
  simp only [answer, outline, h]

/-- No message changes the outline of an object. -/
@[simp] theorem outline_answer (node : Node) (inlet : Nat) (message : Message) :
    (node.answer inlet message).1.outline = node.outline := by
  cases node with
  | send tie => exact outline_answerSend tie inlet message
  | messageBox pieces => rfl
  | number stored => exact outline_answerNumber stored message
  | midiOut kind second third => exact outline_answerMidiOut kind second third inlet message
  | arithmetic operation right => exact outline_answerArithmetic operation right inlet message
  | constant stored => exact outline_answerConstant stored inlet message
  | gui state => exact outline_answerGui state inlet message
  | _ => rfl

end Node

/-! ## The slots -/

/-- A box around the outline of its object. -/
def PatchObject.outline (object : PatchObject) : PatchObject :=
  { object with node := object.node.outline }

/-- A patch with the outlines of its objects. -/
def Patch.outline (patch : Patch) : Patch :=
  { patch with objects := patch.objects.map PatchObject.outline }

/-- A slot with the outline of its patch. -/
def Slot.outline (slot : Slot) : Slot := { slot with patch := slot.patch.map Patch.outline }

/-- The slots with the outlines of all objects. -/
def Slots.outline (slots : Slots) : Slots := slots.map Slot.outline

theorem Patch.node?_outline (patch : Patch) (object : Nat) :
    patch.outline.node? object = (patch.node? object).map Node.outline := by
  simp [Patch.node?, Patch.outline, PatchObject.outline, Function.comp_def]

private theorem map_modify_eq {α β : Type*} (items : List α) (index : Nat) (f : α → α)
    (g : α → β) (h : ∀ item, items[index]? = some item → g (f item) = g item) :
    (items.modify index f).map g = items.map g := by
  apply List.ext_getElem?
  intro i
  rw [List.getElem?_map, List.getElem?_map, List.getElem?_modify]
  cases hi : items[i]? with
  | none => rfl
  | some item =>
    by_cases heq : index = i
    · subst heq
      simp [h item hi]
    · simp [heq]

theorem Patch.outline_setNode (patch : Patch) (object : Nat) (node old : Node)
    (hold : patch.node? object = some old) (h : node.outline = old.outline) :
    (patch.setNode object node).outline = patch.outline := by
  simp only [Patch.setNode, Patch.outline, Patch.mk.injEq, and_true, true_and]
  apply map_modify_eq
  intro item hitem
  have hnode : item.node = old := by simpa [Patch.node?, hitem] using hold
  simp [PatchObject.outline, h, hnode]

namespace Slots

@[simp] theorem patchAt_outline (slots : Slots) (slot : Nat) :
    slots.outline.patchAt slot = (slots.patchAt slot).map Patch.outline := by
  simp only [outline, patchAt, List.getElem?_map]
  cases slots[slot]? <;> rfl

@[simp] theorem node?_outline (slots : Slots) (place : NodeRef) :
    slots.outline.node? place = (slots.node? place).map Node.outline := by
  rw [node?, node?, patchAt_outline]
  cases slots.patchAt place.slot with
  | none => rfl
  | some patch => exact patch.node?_outline place.object

theorem patches_outline (slots : Slots) :
    slots.outline.patches = slots.patches.map fun entry => (entry.1, entry.2.outline) := by
  simp only [outline, patches, List.zipIdx_map, List.filterMap_map, List.map_filterMap]
  congr 1
  funext entry
  simp [Slot.outline, Function.comp_def]

theorem nodes_outline (slots : Slots) :
    slots.outline.nodes = slots.nodes.map fun entry => (entry.1, entry.2.outline) := by
  simp only [nodes, patches_outline, List.flatMap_map, List.map_flatMap]
  congr 1
  funext entry
  simp [Patch.outline, PatchObject.outline, List.zipIdx_map, Function.comp_def]

/-- Storing an object over one of the same outline keeps the outline of the slots. -/
theorem outline_setNode (slots : Slots) (place : NodeRef) (node old : Node)
    (hold : slots.node? place = some old) (h : node.outline = old.outline) :
    (slots.setNode place node).outline = slots.outline := by
  apply map_modify_eq
  intro slot hslot
  have hpatch : slot.patch.bind (·.node? place.object) = some old := by
    simpa [node?, patchAt, hslot] using hold
  cases hp : slot.patch with
  | none => simp [hp] at hpatch
  | some patch =>
    have hset := patch.outline_setNode place.object node old (by simpa [hp] using hpatch) h
    simp [Slot.outline, hp, hset]

/-! ## Reading through equal outlines -/

theorem map_node?_eq_of_outline {α : Type*} {slots slots' : Slots}
    (h : slots'.outline = slots.outline) (view : Node → α)
    (hview : ∀ node, view node.outline = view node) (place : NodeRef) :
    (slots'.node? place).map view = (slots.node? place).map view := by
  have hnode := congrArg (fun slots => (Slots.node? slots place).map view) h
  simpa [Function.comp_def, hview] using hnode

theorem node?_eq_loadbang_iff_of_outline {slots slots' : Slots}
    (h : slots'.outline = slots.outline) (place : NodeRef) :
    slots'.node? place = some .loadbang ↔ slots.node? place = some .loadbang := by
  have hshown (slots : Slots) :
      slots.node? place = some .loadbang ↔ slots.outline.node? place = some .loadbang := by
    rw [node?_outline, Option.map_eq_some_iff]
    simp only [Node.outline_eq_loadbang, exists_eq_right]
  rw [hshown slots', h, ← hshown slots]

end Slots

end Patchbay
