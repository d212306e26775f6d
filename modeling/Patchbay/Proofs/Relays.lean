import Mathlib.Data.List.Basic
import Patchbay.Proofs.Connections
import Patchbay.Proofs.Listening
import Patchbay.Proofs.Singles
import Patchbay.Proofs.Speaking

/-!
# MIDI inputs joined to MIDI outputs

A MIDI input sends the fields of an event out of its outlets, from the last to the first. A
MIDI output of the same family that is joined to it outlet by inlet has stored all fields but
one when the first inlet fires, so the event comes out again as it came in. Nothing that the
output stored before has a part in this.

## Implementation notes

Whether an input and an output are joined is read off the list of connections, in whatever
order they are made. Work on the slots sees the targets of outlets instead, so what it sees of
a joined pair is stated apart. Both depend on the outline of the slots only.
-/

namespace Patchbay

/-! ## An event and its burst -/

/-- The messages that an event makes an input of its family send, with their outlets. -/
def MidiEvent.burst (event : MidiEvent) : List (Nat × Message) :=
  ((Node.incomingValues event).zipIdx.map fun (value, outlet) =>
    (outlet, .float (Number.ofInt value.toInt))).reverse

/-- Every field of an event is a number that a single can hold. -/
def MidiEvent.Exact (event : MidiEvent) : Prop :=
  ∀ field ∈ event.fields, Number.IsSingle field.toInt

namespace Node

/-- The message of a field that a single can hold. -/
theorem speaks_float (kind : MidiKind) (second third : Int32) {value : Int32}
    (h : Number.IsSingle value.toInt) :
    (midiOut kind second third).answer 0 (.float (Number.ofInt value.toInt)) =
        (midiOut kind second third, [.midi (outgoingMidi kind value second third)]) ∧
      (midiOut kind second third).answer 1 (.float (Number.ofInt value.toInt)) =
        (midiOut kind value third, []) ∧
      (midiOut kind second third).answer 2 (.float (Number.ofInt value.toInt)) =
        (midiOut kind second value, []) := by
  have htruncate := Number.truncate_ofInt h
  refine ⟨?_, ?_, ?_⟩ <;> simp [answer, answerMidiOut, Message.number?, htruncate]

theorem Speaks.store {node middle after : Node} {inlet : Nat} {message : Message}
    {burst : List (Nat × Message)} {events : List MidiEvent}
    (hanswer : node.answer inlet message = (middle, [])) (h : middle.Speaks burst events after) :
    node.Speaks ((inlet, message) :: burst) events after :=
  Speaks.cons (show _ = (middle, ([] : List MidiEvent).map Emission.midi) from hanswer) h

theorem Speaks.say {node middle after : Node} {inlet : Nat} {message : Message}
    {event : MidiEvent} {burst : List (Nat × Message)} {events : List MidiEvent}
    (hanswer : node.answer inlet message = (middle, [.midi event]))
    (h : middle.Speaks burst events after) :
    node.Speaks ((inlet, message) :: burst) (event :: events) after :=
  Speaks.cons (show _ = (middle, [event].map Emission.midi) from hanswer) h

section
variable (kind : MidiKind) (second third : Int32) {value more channel : Int32}

/-- A burst of two fields is one event. -/
theorem speaks_two (hvalue : Number.IsSingle value.toInt) (hmore : Number.IsSingle more.toInt) :
    (midiOut kind second third).Speaks
      [(1, .float (Number.ofInt more.toInt)), (0, .float (Number.ofInt value.toInt))]
      [outgoingMidi kind value more third] (midiOut kind more third) := by
  obtain ⟨-, hstore, -⟩ := speaks_float kind second third hmore
  obtain ⟨hsay, -, -⟩ := speaks_float kind more third hvalue
  exact .store hstore (.say hsay (.nil _))

/-- A burst of three fields is one event. -/
theorem speaks_three (hvalue : Number.IsSingle value.toInt) (hmore : Number.IsSingle more.toInt)
    (hchannel : Number.IsSingle channel.toInt) :
    (midiOut kind second third).Speaks
      [(2, .float (Number.ofInt channel.toInt)), (1, .float (Number.ofInt more.toInt)),
        (0, .float (Number.ofInt value.toInt))]
      [outgoingMidi kind value more channel] (midiOut kind more channel) := by
  obtain ⟨-, -, hstore⟩ := speaks_float kind second third hchannel
  exact .store hstore (speaks_two kind second channel hvalue hmore)

/-- Each family puts its fields back where its input took them from, whatever the output has
stored before. -/
theorem exists_speaks_burst {event : MidiEvent} (h : event.Exact) :
    ∃ after, (midiOut event.kind second third).Speaks event.burst [event] after := by
  cases event with
  | noteOn channel pitch velocity =>
    simp only [MidiEvent.Exact, MidiEvent.fields, List.forall_mem_cons] at h
    obtain ⟨hchannel, hpitch, hvelocity, -⟩ := h
    exact ⟨_, speaks_three .note second third hpitch hvelocity hchannel⟩
  | controlChange channel controller value =>
    simp only [MidiEvent.Exact, MidiEvent.fields, List.forall_mem_cons] at h
    obtain ⟨hchannel, hcontroller, hvalue, -⟩ := h
    exact ⟨_, speaks_three .control second third hvalue hcontroller hchannel⟩
  | programChange channel value =>
    simp only [MidiEvent.Exact, MidiEvent.fields, List.forall_mem_cons] at h
    obtain ⟨hchannel, hvalue, -⟩ := h
    exact ⟨_, speaks_two .program second third hvalue hchannel⟩
  | pitchBend channel value =>
    simp only [MidiEvent.Exact, MidiEvent.fields, List.forall_mem_cons] at h
    obtain ⟨hchannel, hvalue, -⟩ := h
    exact ⟨_, speaks_two .bend second third hvalue hchannel⟩
  | afterTouch channel value =>
    simp only [MidiEvent.Exact, MidiEvent.fields, List.forall_mem_cons] at h
    obtain ⟨hchannel, hvalue, -⟩ := h
    exact ⟨_, speaks_two .touch second third hvalue hchannel⟩
  | polyAfterTouch channel pitch value =>
    simp only [MidiEvent.Exact, MidiEvent.fields, List.forall_mem_cons] at h
    obtain ⟨hchannel, hpitch, hvalue, -⟩ := h
    exact ⟨_, speaks_three .polyTouch second third hvalue hpitch hchannel⟩
  | byte port value =>
    simp only [MidiEvent.Exact, MidiEvent.fields, List.forall_mem_cons] at h
    obtain ⟨hport, hvalue, -⟩ := h
    exact ⟨_, speaks_two .byte second third hvalue hport⟩

end

/-- An object with the outline of a MIDI input is that input. -/
theorem eq_midiIn_of_outline {node node' : Option Node} {kind : MidiKind}
    (h : node = some (.midiIn kind)) (houtline : node'.map outline = node.map outline) :
    node' = some (.midiIn kind) := by
  rw [h] at houtline
  obtain ⟨found, rfl, hfound⟩ := Option.map_eq_some_iff.mp houtline
  cases found with
  | arithmetic operation right => cases right <;> cases hfound
  | midiIn kind' => exact congrArg some hfound
  | _ => cases hfound

/-- An object with the outline of a MIDI output is one of the same family. -/
theorem exists_midiOut_of_outline {node node' : Option Node} {kind : MidiKind}
    (h : ∃ second third, node = some (.midiOut kind second third))
    (houtline : node'.map outline = node.map outline) :
    ∃ second third, node' = some (.midiOut kind second third) := by
  obtain ⟨second, third, rfl⟩ := h
  obtain ⟨found, rfl, hfound⟩ := Option.map_eq_some_iff.mp houtline
  cases found with
  | arithmetic operation right => cases right <;> cases hfound
  | midiOut kind' second' third' =>
    obtain ⟨rfl, -, -⟩ := Node.midiOut.inj hfound
    exact ⟨second', third', rfl⟩
  | _ => cases hfound

end Node

theorem MidiEvent.outlets_burst (event : MidiEvent) :
    ∀ outlet ∈ event.burst.map Prod.fst, outlet < event.kind.inlets := by
  cases event <;> simp [burst, Node.incomingValues, kind, MidiKind.inlets]

/-! ## A joined pair -/

/-- A MIDI input and a MIDI output of one family are joined, outlet by inlet. Nothing else is
connected to the outlets of the input or to the inlets of the output. -/
structure Patch.Echoes (patch : Patch) (kind : MidiKind) (input output : Nat) : Prop where
  hears : patch.node? input = some (.midiIn kind)
  speaks : ∃ second third, patch.node? output = some (.midiOut kind second third)
  joined : (patch.connections.filter fun connection =>
      decide (connection.source = input ∨ connection.target = output)).Perm
    ((List.range kind.inlets).map fun port => ⟨input, port, output, port⟩)

namespace Patch
variable {patch patch' : Patch} {kind : MidiKind} {input output : Nat}

theorem Echoes.of_outline (h : patch.Echoes kind input output)
    (houtline : patch'.outline = patch.outline) : patch'.Echoes kind input output := by
  have hnode (object : Nat) :
      (patch'.node? object).map Node.outline = (patch.node? object).map Node.outline := by
    rw [← node?_outline, ← node?_outline, houtline]
  have hconnections : patch'.outline.connections = patch.outline.connections :=
    congrArg Patch.connections houtline
  refine ⟨Node.eq_midiIn_of_outline h.hears (hnode input),
    Node.exists_midiOut_of_outline h.speaks (hnode output), ?_⟩
  rw [show patch'.connections = _ from hconnections]
  exact h.joined

/-- The wiring of a patch is that of its connections. -/
def Wired (patch : Patch) : Prop :=
  ∀ object outlet, patch.wiring.targets object outlet =
    (patch.connections.filter fun connection =>
        decide (connection.source = object ∧ connection.outlet = outlet)).map
      fun connection => (connection.target, connection.inlet)

theorem lasting_wired : Patch.Lasting Patch.Wired where
  read hread := (connects_of_readPatch hread).targets_eq
  answer h _ _ _ _ _ := h

theorem Echoes.mem_iff (h : patch.Echoes kind input output) (connection : Connection) :
    connection ∈ patch.connections ∧ (connection.source = input ∨ connection.target = output) ↔
      ∃ port < kind.inlets, connection = ⟨input, port, output, port⟩ := by
  have hmem := h.joined.mem_iff (a := connection)
  simp only [List.mem_filter, decide_eq_true_eq, List.mem_map, List.mem_range] at hmem
  rw [hmem]
  simp only [eq_comm]

/-- An outlet of the input has the inlet of the same number for its only target. -/
theorem Echoes.targets_eq (h : patch.Echoes kind input output) (hwired : patch.Wired)
    {port : Nat} (hport : port < kind.inlets) :
    patch.wiring.targets input port = [(output, port)] := by
  have hfilter : (patch.connections.filter fun connection =>
        decide (connection.source = input ∧ connection.outlet = port)) =
      (patch.connections.filter fun connection =>
        decide (connection.source = input ∨ connection.target = output)).filter
          fun connection => decide (connection.source = input ∧ connection.outlet = port) := by
    rw [List.filter_filter]
    apply List.filter_congr
    intro connection _
    grind
  have hone : (((List.range kind.inlets).map fun port : Nat =>
        (⟨input, port, output, port⟩ : Connection)).filter fun connection =>
          decide (connection.source = input ∧ connection.outlet = port)) =
      [⟨input, port, output, port⟩] := by
    have hports : (fun connection : Connection =>
          decide (connection.source = input ∧ connection.outlet = port)) ∘
        (fun port => ⟨input, port, output, port⟩) = (· == port) := by
      funext other
      simp [Bool.beq_eq_decide_eq]
    have honce : (List.range kind.inlets).count port = 1 :=
      List.count_eq_one_of_mem List.nodup_range (List.mem_range.mpr hport)
    rw [List.filter_map, hports, List.filter_beq, honce]
    rfl
  rw [hwired, hfilter]
  have hperm := h.joined.filter fun connection =>
    decide (connection.source = input ∧ connection.outlet = port)
  rw [hone] at hperm
  rw [List.perm_singleton.mp hperm]
  rfl

end Patch

/-- A MIDI input with the MIDI output that it is joined to. -/
structure Relay where
  kind : MidiKind
  source : NodeRef
  target : NodeRef

namespace Relay

/-- What an event makes the input send. -/
def burst (relay : Relay) (event : MidiEvent) : List (Nat × Message) :=
  if event.kind = relay.kind then event.burst else []

/-- What an event makes the output say. -/
def share (relay : Relay) (event : MidiEvent) : List MidiEvent :=
  if event.kind = relay.kind then [event] else []

theorem answerMidi_eq (relay : Relay) (event : MidiEvent) :
    (Node.midiIn relay.kind).answerMidi event =
      (relay.burst event).map fun part => .outlet part.1 part.2 := by
  by_cases hkind : event.kind = relay.kind
  · simp only [Node.answerMidi, burst, if_pos hkind, if_pos hkind.symm, MidiEvent.burst,
      List.map_reverse, List.map_map]
    rfl
  · simp only [Node.answerMidi, burst, if_neg hkind, if_neg (Ne.symm hkind), List.map_nil]

end Relay

/-- What the work on the slots sees of a joined pair. -/
structure Slots.Relays (slots : Slots) (relay : Relay) : Prop where
  hears : slots.node? relay.source = some (.midiIn relay.kind)
  speaks : ∃ second third, slots.node? relay.target = some (.midiOut relay.kind second third)
  slot_eq : relay.target.slot = relay.source.slot
  targets_eq : ∀ port < relay.kind.inlets,
    slots.targets relay.source port = [(relay.target.object, port)]
  source_eq : ∀ (place : NodeRef) (outlet : Nat) (target : Nat × Nat),
    target ∈ slots.targets place outlet →
      (⟨place.slot, target.1⟩ : NodeRef) = relay.target → place = relay.source

theorem Patch.Echoes.relays {slots : Slots} {slot : Nat} {patch : Patch} {kind : MidiKind}
    {input output : Nat} (h : patch.Echoes kind input output)
    (hpatch : slots.patchAt slot = some patch) (hwired : patch.Wired) :
    slots.Relays ⟨kind, ⟨slot, input⟩, ⟨slot, output⟩⟩ where
  hears := by
    rw [Slots.node?, hpatch]
    exact h.hears
  speaks := by
    obtain ⟨second, third, hspeaks⟩ := h.speaks
    refine ⟨second, third, ?_⟩
    rw [Slots.node?, hpatch]
    exact hspeaks
  slot_eq := rfl
  targets_eq := by
    intro port hport
    simp only [Slots.targets, hpatch]
    exact h.targets_eq hwired hport
  source_eq := by
    rintro ⟨slot', object⟩ outlet ⟨target, inlet⟩ htarget heq
    obtain ⟨rfl, rfl⟩ := NodeRef.mk.inj heq
    simp only [Slots.targets, hpatch, hwired object outlet] at htarget
    obtain ⟨connection, hconnection, hends⟩ := List.mem_map.mp htarget
    obtain ⟨hmem, hsource⟩ := List.mem_filter.mp hconnection
    have hobject := of_decide_eq_true hsource
    obtain ⟨port, -, rfl⟩ :=
      (h.mem_iff connection).mp ⟨hmem, .inr (congrArg Prod.fst hends)⟩
    exact congrArg (NodeRef.mk slot') hobject.1.symm

namespace Slots
variable {slots slots' : Slots} {relay : Relay}

theorem targets_outline (slots : Slots) (place : NodeRef) (outlet : Nat) :
    slots.outline.targets place outlet = slots.targets place outlet := by
  simp only [targets, patchAt_outline]
  cases slots.patchAt place.slot <;> rfl

theorem Relays.of_outline (h : slots.Relays relay) (houtline : slots'.outline = slots.outline) :
    slots'.Relays relay := by
  have htargets (place : NodeRef) (outlet : Nat) :
      slots'.targets place outlet = slots.targets place outlet := by
    rw [← targets_outline, houtline, targets_outline]
  have hnode (place : NodeRef) :
      (slots'.node? place).map Node.outline = (slots.node? place).map Node.outline := by
    rw [← node?_outline, houtline, node?_outline]
  exact
    { hears := Node.eq_midiIn_of_outline h.hears (hnode relay.source)
      speaks := Node.exists_midiOut_of_outline h.speaks (hnode relay.target)
      slot_eq := h.slot_eq
      targets_eq := fun port hport => (htargets _ _).trans (h.targets_eq port hport)
      source_eq := fun place outlet target hmem =>
        h.source_eq place outlet target (htargets place outlet ▸ hmem) }

/-- Whatever the output has stored, a burst of the input makes it say the event. -/
theorem Relays.exists_speaks (h : slots.Relays relay) {event : MidiEvent}
    (hexact : event.kind = relay.kind → event.Exact) :
    ∃ node after, slots.node? relay.target = some node ∧
      node.Speaks (relay.burst event) (relay.share event) after := by
  obtain ⟨second, third, hspeaks⟩ := h.speaks
  by_cases hkind : event.kind = relay.kind
  · obtain ⟨after, hafter⟩ := Node.exists_speaks_burst second third (hexact hkind)
    rw [Relay.burst, Relay.share, if_pos hkind, if_pos hkind, hspeaks, ← hkind]
    exact ⟨_, after, rfl, hafter⟩
  · rw [Relay.burst, Relay.share, if_neg hkind, if_neg hkind]
    exact ⟨_, _, hspeaks, .nil _⟩

/-- A burst of the input comes to the output, and to no other object. -/
theorem Relays.targets_burst (h : slots.Relays relay) (event : MidiEvent) :
    ∀ outlet ∈ (relay.burst event).map Prod.fst,
      slots.targets relay.source outlet = [(relay.target.object, outlet)] := by
  intro outlet houtlet
  by_cases hkind : event.kind = relay.kind
  · rw [Relay.burst, if_pos hkind] at houtlet
    exact h.targets_eq outlet (hkind ▸ event.outlets_burst outlet houtlet)
  · rw [Relay.burst, if_neg hkind] at houtlet
    cases houtlet

/-- Neither of the two fires after a block. -/
theorem Relays.not_mem_ticks (h : slots.Relays relay) :
    relay.source ∉ slots.placesOf Node.isTick ∧ relay.target ∉ slots.placesOf Node.isTick := by
  simp only [mem_placesOf]
  constructor
  · rintro ⟨node, hnode, htick⟩
    rw [h.hears, Option.some.injEq] at hnode
    subst hnode
    cases htick
  · rintro ⟨node, hnode, htick⟩
    obtain ⟨second, third, hspeaks⟩ := h.speaks
    rw [hspeaks, Option.some.injEq] at hnode
    subst hnode
    cases htick

/-- The output listens neither at a tie nor to MIDI, and the input listens to MIDI. -/
theorem Relays.listeners (h : slots.Relays relay) :
    (∀ tie, relay.target ∉ (Listeners.ofSlots slots).listening tie) ∧
      relay.target ∉ (Listeners.ofSlots slots).toMidi ∧
      relay.source ∈ (Listeners.ofSlots slots).toMidi := by
  obtain ⟨second, third, hspeaks⟩ := h.speaks
  refine ⟨?_, ?_, ?_⟩
  · intro tie hmem
    rw [Listeners.listening_ofSlots, mem_placesOf] at hmem
    obtain ⟨node, hnode, hlistens⟩ := hmem
    rw [hspeaks, Option.some.injEq] at hnode
    subst hnode
    simp [Node.listensAt] at hlistens
  · intro hmem
    rw [Listeners.toMidi_ofSlots, mem_placesOf] at hmem
    obtain ⟨node, hnode, hlistens⟩ := hmem
    rw [hspeaks, Option.some.injEq] at hnode
    subst hnode
    cases hlistens
  · rw [Listeners.toMidi_ofSlots, mem_placesOf]
    exact ⟨_, h.hears, rfl⟩

end Slots

end Patchbay
