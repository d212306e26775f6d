import Mathlib.Data.List.Basic
import Patchbay.Proofs.Settled

/-!
# Who listens

In every session the tables of listeners say exactly which objects of the open
patches listen: each of them once, in slot and object order, and nothing else. An
entry for a closed patch would be an entry too many, and so would one for a patch
that stood in the slot before.
-/

namespace Patchbay

theorem Tie.isEmpty_iff {tie : Tie} : tie.isEmpty = true ↔ tie = .empty := by
  obtain ⟨name⟩ := tie
  simp [isEmpty, empty]

/-- An object listens at a tie if it is a receiver for it, or a GUI object that receives
there. -/
def Node.Hears (tie : Tie) (node : Node) : Prop :=
  node = .receive tie ∨ ∃ state : Gui, node = .gui state ∧ state.receive = tie

/-- No object listens at the tie without a name. -/
theorem Node.listensAt_eq_some_iff {node : Node} {tie : Tie} :
    node.listensAt = some tie ↔ tie ≠ .empty ∧ node.Hears tie := by
  have hname (own : Tie) :
      (if own.isEmpty then none else some own) = some tie ↔ tie ≠ .empty ∧ own = tie := by
    by_cases hempty : own.isEmpty = true
    · rw [if_pos hempty]
      have hown := Tie.isEmpty_iff.mp hempty
      constructor
      · intro h
        cases h
      · rintro ⟨hne, rfl⟩
        exact absurd hown hne
    · rw [if_neg hempty, Option.some.injEq]
      constructor
      · rintro rfl
        exact ⟨fun heq => hempty (Tie.isEmpty_iff.mpr heq), rfl⟩
      · exact And.right
  cases node with
  | receive own => simp [listensAt, Hears, hname]
  | gui state => simp [listensAt, Hears, hname]
  | _ => simp [listensAt, Hears]

/-- A place belongs to an open patch, which has an object with a property there. -/
def Slots.Holds (slots : Slots) (place : NodeRef) (property : Node → Prop) : Prop :=
  ∃ generation patch object, (PatchId.mk place.slot generation, patch) ∈ slots.patches ∧
    patch.objects[place.object]? = some object ∧ property object.node

theorem Slots.holds_iff {slots : Slots} {place : NodeRef} {property : Node → Prop} :
    slots.Holds place property ↔ ∃ node, slots.node? place = some node ∧ property node := by
  simp only [Holds, node?, Option.bind_eq_some_iff, patchAt_eq_some_iff, Patch.node?,
    Option.map_eq_some_iff]
  constructor
  · rintro ⟨generation, patch, object, hpatch, hobject, hproperty⟩
    exact ⟨_, ⟨patch, ⟨generation, hpatch⟩, object, hobject, rfl⟩, hproperty⟩
  · rintro ⟨_, ⟨patch, ⟨generation, hpatch⟩, object, hobject, rfl⟩, hproperty⟩
    exact ⟨generation, patch, object, hpatch, hobject, hproperty⟩

namespace Listeners

/-- The tables list the objects of the open patches that listen, and nothing else. -/
structure Exact (slots : Slots) (listeners : Listeners) : Prop where
  /-- No listener of a tie is listed twice, and they stand in order. -/
  listening_sorted : ∀ tie, (listeners.listening tie).Pairwise NodeRef.Before
  mem_listening_iff : ∀ tie place, place ∈ listeners.listening tie ↔
    tie ≠ .empty ∧ slots.Holds place (Node.Hears tie)
  /-- Nothing is listed for the tie without a name. -/
  named : ∀ entry ∈ listeners.atTies, entry.1 ≠ .empty
  toMidi_sorted : listeners.toMidi.Pairwise NodeRef.Before
  mem_toMidi_iff : ∀ place, place ∈ listeners.toMidi ↔
    slots.Holds place fun node => ∃ kind, node = .midiIn kind

theorem exact_ofSlots (slots : Slots) : (ofSlots slots).Exact slots where
  listening_sorted := fun tie => by
    rw [listening_ofSlots]
    exact Slots.placesOf_pairwise slots _
  mem_listening_iff := fun tie place => by
    rw [listening_ofSlots, Slots.mem_placesOf, Slots.holds_iff]
    simp only [beq_iff_eq, Node.listensAt_eq_some_iff]
    constructor
    · rintro ⟨node, hnode, hne, hhears⟩
      exact ⟨hne, node, hnode, hhears⟩
    · rintro ⟨hne, node, hnode, hhears⟩
      exact ⟨node, hnode, hne, hhears⟩
  named := fun entry hentry => by
    obtain ⟨⟨place, node⟩, -, hlistens⟩ := List.mem_filterMap.mp hentry
    obtain ⟨tie, htie, rfl⟩ := Option.map_eq_some_iff.mp hlistens
    exact (Node.listensAt_eq_some_iff.mp htie).1
  toMidi_sorted := Slots.placesOf_pairwise slots Node.isMidiIn
  mem_toMidi_iff := fun place => by
    have hkind (node : Node) : node.isMidiIn = true ↔ ∃ kind, node = .midiIn kind := by
      cases node <;> simp [Node.isMidiIn]
    rw [toMidi_ofSlots, Slots.mem_placesOf, Slots.holds_iff]
    simp only [hkind]

end Listeners

/-! ## Messages change no listener -/

/-- Every object listens where it listened before, and takes MIDI if it did before. -/
def Slots.SameListeners (slots slots' : Slots) : Prop :=
  ∀ place, (slots'.node? place).map Node.listensAt = (slots.node? place).map Node.listensAt ∧
    (slots'.node? place).map Node.isMidiIn = (slots.node? place).map Node.isMidiIn

theorem Slots.sameListeners_of_outline {slots slots' : Slots}
    (h : slots'.outline = slots.outline) : slots.SameListeners slots' := fun place =>
  ⟨map_node?_eq_of_outline h _ Node.listensAt_outline place,
    map_node?_eq_of_outline h _ Node.isMidiIn_outline place⟩

theorem Node.listensAt_answer (node : Node) (inlet : Nat) (message : Message) :
    (node.answer inlet message).1.listensAt = node.listensAt := by
  rw [← listensAt_outline, outline_answer, listensAt_outline]

namespace Instance
variable {inst : Instance}

theorem outline_carryOut (h : inst.engine.Reachable) (command : Command) :
    (inst.carryOut command).1.engine.slots.outline = inst.engine.slots.outline := by
  cases command with
  | send tie message => exact (Engine.send_shows {} 0 h.settled tie message).outline_eq
  | midi event => exact (Engine.midi_shows {} 0 h.settled event).outline_eq

theorem outline_carryOutAll (h : inst.engine.Reachable) (commands : List Command) :
    (inst.carryOutAll commands).1.engine.slots.outline = inst.engine.slots.outline := by
  induction commands generalizing inst with
  | nil => rfl
  | cons command rest ih =>
    exact (ih (carryOut_reachable h command)).trans (outline_carryOut h command)

theorem outline_perform (h : inst.engine.Reachable) (pending : List Command) (size : Nat)
    (inputs outputs : List Block) :
    (inst.perform pending size inputs outputs).state.engine.slots.outline =
      inst.engine.slots.outline := by
  unfold perform
  split
  · rfl
  · have hblock := Engine.perform_shows {} 0 (carryOutAll_reachable pending h).settled size inputs
      outputs
    exact hblock.outline_eq.trans (outline_carryOutAll h pending)

end Instance

/-! ## In every session -/

/-- In every session the tables of a live instance are exact, and no message changes who
listens: not to a single object, and not in an instance with all that follows. -/
theorem Rack.Reachable.listeners_exact {rack : Rack} (h : rack.Reachable) {position : Nat}
    {inst : Instance} (hinst : rack.instance? position = some inst) :
    inst.engine.listeners.Exact inst.engine.slots ∧
      (∀ (node : Node) (inlet : Nat) (message : Message),
        (node.answer inlet message).1.listensAt = node.listensAt) ∧
      (∀ tie message,
        inst.engine.slots.SameListeners (inst.send tie message).1.engine.slots) ∧
      (∀ event, inst.engine.slots.SameListeners (inst.midi event).1.engine.slots) ∧
      (∀ id, inst.engine.slots.SameListeners (inst.engine.loadbang id).1.slots) ∧
      ∀ pending size inputs outputs,
        inst.engine.slots.SameListeners
          (inst.perform pending size inputs outputs).state.engine.slots := by
  have hreachable := h.engine hinst
  refine ⟨?_, Node.listensAt_answer, ?_, ?_, ?_, ?_⟩
  · rw [hreachable.settled.listeners_eq]
    exact Listeners.exact_ofSlots inst.engine.slots
  · intro tie message
    exact Slots.sameListeners_of_outline
      (Instance.outline_carryOut hreachable (.send tie message))
  · intro event
    exact Slots.sameListeners_of_outline (Instance.outline_carryOut hreachable (.midi event))
  · intro id
    exact Slots.sameListeners_of_outline
      (Engine.loadbang_shows {} 0 hreachable.settled id).outline_eq
  · intro pending size inputs outputs
    exact Slots.sameListeners_of_outline
      (Instance.outline_perform hreachable pending size inputs outputs)

/-- A session in which two patches use a slot one after the other. -/
def reopening : List HostAction :=
  [.create none,
    .setFiles
      { entries :=
          [(["first.pd"], .file (.text "#N canvas 0 0 9 9 10;\n#X obj 0 0 r a;\n")),
            (["second.pd"], .file (.text
              "#N canvas 0 0 9 9 10;\n#X obj 0 0 s a;\n#X obj 0 0 r a;\n"))] },
    .request 0 (.load "/first.pd" ""),
    .request 0 (.close { slot := 0, generation := 1 }),
    .request 0 (.load "/second.pd" "")]

/-- The patch that came second is listed with its own receiver. -/
theorem listeners_exact_reopening :
    ∃ rack : Rack, ∃ inst, rack.Reachable ∧ rack.instance? 0 = some inst ∧
      inst.engine.listeners.listening ⟨"a"⟩ = [{ slot := 0, object := 1 }] ∧
      inst.engine.listeners.Exact inst.engine.slots := by
  have hsession : (({} : Rack).session reopening).any (fun rack =>
      (rack.instance? 0).any fun inst => decide
        (inst.engine.listeners.listening ⟨"a"⟩ = [{ slot := 0, object := 1 }])) = true := by
    decide +kernel
  obtain ⟨rack, inst, hrack, hinst, hlistening⟩ := Rack.exists_of_session hsession
  exact ⟨rack, inst, hrack, hinst, hlistening, (hrack.listeners_exact hinst).1⟩

end Patchbay
