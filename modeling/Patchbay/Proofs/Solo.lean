import Mathlib.Data.List.Forall2
import Patchbay.Proofs.Components
import Patchbay.Proofs.Draining
import Patchbay.Proofs.Performing
import Patchbay.Proofs.Shelf

/-!
# A patch sounds as if it were alone

Signal connections stay in their patch, so the signal objects of a patch are a component of the
signal graph, and they are scheduled in the order in which they would be if no other patch was
open. At an inlet the samples of its feeders arrive in connection order, and at a host output
those of its output converters in the order of the schedule. If no other patch has a converter to
a host output, the same samples are therefore mixed there in the same order, in whatever slot the
patch is and whatever the other patches are. Nothing is used of the operations on samples.

## Implementation notes

What matters of a patch are its connections and its signal objects. Its other objects, its names
and the number that it has from being read may differ.
-/

namespace Patchbay

/-! ## What of a patch sounds -/

namespace Patch

/-- The signal objects of a patch with their numbers, in order. -/
def signals (patch : Patch) : List (Nat × Node) :=
  (patch.objects.zipIdx.map fun (object, index) => (index, object.node)).filter
    fun entry => entry.2.isSignal

/-- The numbers of signal ports of an object. -/
def signalPorts (patch : Patch) (object : Nat) : Nat × Nat :=
  ((patch.node? object).map Node.signalPorts).getD (0, 0)

/-- The objects that signal connections join, in order and as often as they do. -/
def wires (patch : Patch) : List (Nat × Nat) :=
  patch.connections.filterMap fun connection =>
    if connection.outlet < (patch.signalPorts connection.source).2 ∧
        connection.inlet < (patch.signalPorts connection.target).1 then
      some (connection.source, connection.target)
    else none

/-- The outlets that feed a signal inlet, in connection order. -/
def feeders (patch : Patch) (object inlet : Nat) : List (Nat × Nat) :=
  patch.connections.filterMap fun connection =>
    if connection.target = object ∧ connection.inlet = inlet ∧
        connection.outlet < (patch.signalPorts connection.source).2 then
      some (connection.source, connection.outlet)
    else none

/-- Two patches have the same connections, and the same signal objects with the same values. -/
structure SoundsLike (patch other : Patch) : Prop where
  signals_eq : other.signals = patch.signals
  connections_eq : other.connections = patch.connections

instance (patch other : Patch) : Decidable (patch.SoundsLike other) :=
  decidable_of_iff (other.signals = patch.signals ∧ other.connections = patch.connections)
    ⟨fun h => ⟨h.1, h.2⟩, fun h => ⟨h.signals_eq, h.connections_eq⟩⟩

variable {patch other : Patch}

theorem mem_signals {object : Nat} {node : Node} :
    (object, node) ∈ patch.signals ↔ patch.node? object = some node ∧ node.isSignal = true := by
  simp only [signals, List.mem_filter, List.mem_map, Prod.exists, Prod.mk.injEq,
    List.mk_mem_zipIdx_iff_getElem?, node?, Option.map_eq_some_iff]
  constructor
  · rintro ⟨⟨found, index, hfound, rfl, rfl⟩, hsignal⟩
    exact ⟨⟨found, hfound, rfl⟩, hsignal⟩
  · rintro ⟨⟨found, hfound, rfl⟩, hsignal⟩
    exact ⟨⟨found, object, hfound, rfl, rfl⟩, hsignal⟩

theorem signalPorts_of_mem {object : Nat} {node : Node} (h : (object, node) ∈ patch.signals) :
    patch.signalPorts object = node.signalPorts := by
  rw [signalPorts, (mem_signals.mp h).1, Option.map_some, Option.getD_some]

/-- An object that is no signal object has no signal ports. -/
theorem signalPorts_of_notMem {object : Nat} (h : ∀ node, (object, node) ∉ patch.signals) :
    patch.signalPorts object = (0, 0) := by
  unfold signalPorts
  cases hnode : patch.node? object with
  | none => rfl
  | some node => simpa [mem_signals, hnode, Node.isSignal] using h node

theorem SoundsLike.refl (patch : Patch) : patch.SoundsLike patch := ⟨rfl, rfl⟩

theorem SoundsLike.signalPorts_eq (h : patch.SoundsLike other) (object : Nat) :
    other.signalPorts object = patch.signalPorts object := by
  by_cases hsignal : ∃ node, (object, node) ∈ patch.signals
  · obtain ⟨node, hnode⟩ := hsignal
    rw [signalPorts_of_mem hnode, signalPorts_of_mem (h.signals_eq ▸ hnode)]
  · have hnone := not_exists.mp hsignal
    rw [signalPorts_of_notMem hnone, signalPorts_of_notMem (h.signals_eq ▸ hnone)]

theorem SoundsLike.wires_eq (h : patch.SoundsLike other) : other.wires = patch.wires := by
  simp only [wires, h.connections_eq, h.signalPorts_eq]

theorem SoundsLike.feeders_eq (h : patch.SoundsLike other) (object inlet : Nat) :
    other.feeders object inlet = patch.feeders object inlet := by
  simp only [feeders, h.connections_eq, h.signalPorts_eq]

end Patch

/-! ## What a slot has of the signals -/

namespace Slots
variable {slots : Slots} {slot : Nat} {patch : Patch}

/-- The objects at those places that are in a slot, in order. -/
def objectsIn (slot : Nat) (places : List NodeRef) : List Nat :=
  (places.filter fun place => place.slot == slot).map NodeRef.object

theorem mem_objectsIn {places : List NodeRef} {object : Nat} :
    object ∈ objectsIn slot places ↔ ⟨slot, object⟩ ∈ places := by
  simp only [objectsIn, List.mem_map, List.mem_filter, beq_iff_eq]
  constructor
  · rintro ⟨⟨_, _⟩, ⟨hplace, rfl⟩, rfl⟩
    exact hplace
  · intro hplace
    exact ⟨_, ⟨hplace, rfl⟩, rfl⟩

theorem patchAt_of_length_le (h : slots.length ≤ slot) : slots.patchAt slot = none := by
  rw [patchAt, List.getElem?_eq_none h, Option.bind_none]

theorem node?_eq (hpatch : slots.patchAt slot = some patch) (object : Nat) :
    slots.node? ⟨slot, object⟩ = patch.node? object := by
  rw [node?, hpatch, Option.bind_some]

theorem signalPorts_eq (hpatch : slots.patchAt slot = some patch) (object : Nat) :
    slots.signalPorts ⟨slot, object⟩ = patch.signalPorts object := by
  rw [signalPorts, node?_eq hpatch, Patch.signalPorts]

theorem objectsIn_placesOf (hpatch : slots.patchAt slot = some patch) :
    objectsIn slot (slots.placesOf Node.isSignal) = patch.signals.map Prod.fst := by
  have hcollected := flatMap_patches_eq slots slot fun patch => patch.signals.map Prod.fst
  simp only [hpatch] at hcollected
  rw [← hcollected]
  simp only [objectsIn, placesOf, nodes, List.filter_flatMap, List.map_flatMap]
  congr 1
  funext entry
  by_cases hslot : entry.1.slot = slot
  · simp [Patch.signals, List.filter_map, Function.comp_def, hslot]
  · simp [List.filter_map, Function.comp_def, hslot]

/-- A signal connection stays in its slot. -/
theorem slot_eq_of_flows {source target : NodeRef} (h : slots.Flows source target) :
    target.slot = source.slot := by
  obtain ⟨entry, -, hconnection⟩ := List.mem_flatMap.mp h
  obtain ⟨connection, -, hmade⟩ := List.mem_filterMap.mp hconnection
  simp only [Option.ite_none_right_eq_some, Option.some.injEq, Prod.mk.injEq] at hmade
  obtain ⟨-, rfl, rfl⟩ := hmade
  rfl

theorem wiresIn_eq (hpatch : slots.patchAt slot = some patch) :
    (slots.signalWires.filter fun wire => wire.1.slot == slot).map
        (fun wire => (wire.1.object, wire.2.object)) = patch.wires := by
  have hcollected := flatMap_patches_eq slots slot Patch.wires
  simp only [hpatch] at hcollected
  rw [← hcollected]
  simp only [signalWires, List.filter_flatMap, List.map_flatMap]
  apply List.flatMap_congr
  rintro ⟨⟨index, generation⟩, found⟩ hentry
  have hfound : slots.patchAt index = some found :=
    patchAt_eq_some_iff.mpr ⟨generation, hentry⟩
  simp only [List.filter_filterMap, List.map_filterMap, signalPorts_eq hfound]
  by_cases hslot : index = slot
  · rw [if_pos hslot, Patch.wires]
    congr 1
    funext connection
    split <;> simp [hslot]
  · rw [if_neg hslot, List.filterMap_eq_nil_iff]
    intro connection _
    split <;> simp [hslot]

theorem feeders_eq (hpatch : slots.patchAt slot = some patch) (object inlet : Nat) :
    slots.feeders ⟨slot, object⟩ inlet =
      (patch.feeders object inlet).map fun feeder => (⟨slot, feeder.1⟩, feeder.2) := by
  have houtlets (source : Nat) :
      slots.signalOutlets ⟨slot, source⟩ = (patch.signalPorts source).2 := by
    rw [signalOutlets, node?_eq hpatch, Patch.signalPorts]
    cases patch.node? source <;> rfl
  simp only [feeders, hpatch, houtlets, Patch.feeders, List.map_filterMap]
  congr 1
  funext connection
  split <;> simp

end Slots

/-! ## A patch among others and by itself -/

/-- In `slots` a patch is open in the slot `slot`; in `alone` one that sounds like it is open in
the slot `home`, and no other. -/
structure Slots.Solo (slots alone : Slots) (slot home : Nat) (patch other : Patch) : Prop where
  among : slots.patchAt slot = some patch
  found : alone.patchAt home = some other
  sounds : patch.SoundsLike other
  only : ∀ index, index ≠ home → alone.patchAt index = none

namespace Slots
open SignalGraph

variable {slots alone : Slots} {slot home : Nat} {patch other : Patch}

/-- Two numbers stand for one object, which is in `slot` here and in `home` there. -/
def SameObject (slots alone : Slots) (slot home : Nat) (index number : Nat) : Prop :=
  index < (verticesOf slots).length ∧ number < (verticesOf alone).length ∧
    ∃ object, placeOf (verticesOf slots) index = ⟨slot, object⟩ ∧
      placeOf (verticesOf alone) number = ⟨home, object⟩

/-- Whether a vertex is in a slot. -/
def vertexIn (slots : Slots) (slot : Nat) (index : Nat) : Bool :=
  (placeOf (verticesOf slots) index).slot == slot

theorem sameObject_unique (slots alone : Slots) (slot home : Nat) :
    Relator.BiUnique (SameObject slots alone slot home) := by
  constructor
  · rintro index other number ⟨hindex, -, object, hplace, hnumber⟩
      ⟨hother, -, object', hplace', hnumber'⟩
    obtain rfl : object = object' := by simpa [hnumber] using hnumber'
    exact (placeOf_inj hindex hother).mp (hplace.trans hplace'.symm)
  · rintro index number other ⟨-, hnumber, object, hplace, hhome⟩
      ⟨-, hother, object', hplace', hhome'⟩
    obtain rfl : object = object' := by simpa [hplace] using hplace'
    exact (placeOf_inj hnumber hother).mp (hhome.trans hhome'.symm)

theorem map_placeOf_range (slots : Slots) :
    (List.range (verticesOf slots).length).map (placeOf (verticesOf slots)) =
      slots.placesOf Node.isSignal := by
  rw [← map_place_verticesOf]
  apply List.ext_getElem
  · simp
  · intro index hindex _
    have hlt : index < (verticesOf slots).length := by simpa using hindex
    simp [placeOf, List.getD_eq_getElem?_getD, hlt]

/-- Everything is in the one slot that is in use. -/
theorem Solo.slot_of_node? (h : slots.Solo alone slot home patch other) {place : NodeRef}
    {node : Node} (hnode : alone.node? place = some node) : place.slot = home := by
  by_contra hne
  rw [node?, h.only place.slot hne] at hnode
  cases hnode

theorem Solo.slot_eq (h : slots.Solo alone slot home patch other) {place : NodeRef}
    (hplace : place ∈ alone.placesOf Node.isSignal) : place.slot = home := by
  obtain ⟨node, hnode, -⟩ := mem_placesOf.mp hplace
  exact h.slot_of_node? hnode

theorem objectsIn_eq_map {places : List NodeRef} (h : ∀ place ∈ places, place.slot = slot) :
    objectsIn slot places = places.map NodeRef.object := by
  rw [objectsIn, List.filter_eq_self.mpr]
  intro place hplace
  simpa using h place hplace

/-- Two lists that look alike have items that look alike at the same positions. -/
theorem forall₂_of_map_eq {α β γ : Type*} {look : α → γ} {look' : β → γ} {items : List α}
    {others : List β} (h : items.map look = others.map look') :
    List.Forall₂ (fun item other => item ∈ items ∧ other ∈ others ∧ look item = look' other)
      items others := by
  have hlength : items.length = others.length := by simpa using congrArg List.length h
  apply List.forall₂_iff_get.mpr
  refine ⟨hlength, fun index hindex hindex' => ⟨List.get_mem .., List.get_mem .., ?_⟩⟩
  have hlook := congrArg (fun looks => looks[index]?) h
  simpa [hindex, hindex'] using hlook

theorem Solo.objectsIn_placesOf_eq (h : slots.Solo alone slot home patch other) :
    objectsIn slot (slots.placesOf Node.isSignal) =
      (alone.placesOf Node.isSignal).map NodeRef.object := by
  rw [← objectsIn_eq_map fun _ => h.slot_eq, objectsIn_placesOf h.among,
    objectsIn_placesOf h.found, h.sounds.signals_eq]

/-- An edge joins objects of one slot. -/
theorem slot_eq_of_mem_edges {edge : Edge} (h : edge ∈ (ofSlots slots).edges) :
    vertexIn slots slot edge.target = vertexIn slots slot edge.source := by
  rw [vertexIn, slot_eq_of_flows (flows_of_mem_edges h), vertexIn]

/-- Numbers of vertices that have the same object number stand for one object. -/
theorem Solo.sameObject (h : slots.Solo alone slot home patch other) {index number : Nat}
    (hindex : index < (verticesOf slots).length) (hnumber : number < (verticesOf alone).length)
    (hinside : vertexIn slots slot index = true)
    (hobject : (placeOf (verticesOf slots) index).object =
      (placeOf (verticesOf alone) number).object) :
    SameObject slots alone slot home index number := by
  have hslot : (placeOf (verticesOf slots) index).slot = slot := by
    simpa [vertexIn] using hinside
  have hhome : (placeOf (verticesOf alone) number).slot = home := h.slot_eq (placeOf_mem hnumber)
  exact ⟨hindex, hnumber, (placeOf (verticesOf slots) index).object, by rw [← hslot],
    by rw [← hhome, hobject]⟩

theorem Solo.forall₂_vertices (h : slots.Solo alone slot home patch other) :
    List.Forall₂ (SameObject slots alone slot home)
      ((List.range (verticesOf slots).length).filter (vertexIn slots slot))
      (List.range (verticesOf alone).length) := by
  have hobjects := h.objectsIn_placesOf_eq
  rw [← map_placeOf_range, ← map_placeOf_range, objectsIn, List.filter_map, List.map_map,
    List.map_map] at hobjects
  apply (forall₂_of_map_eq hobjects).imp
  intro index number ⟨hindex, hnumber, hobject⟩
  obtain ⟨hindex, hinside⟩ := List.mem_filter.mp hindex
  exact h.sameObject (List.mem_range.mp hindex) (List.mem_range.mp hnumber) hinside hobject

theorem Solo.wires_eq (h : slots.Solo alone slot home patch other) :
    (slots.signalWires.filter fun wire => wire.1.slot == slot).map
        (fun wire => (wire.1.object, wire.2.object)) =
      alone.signalWires.map fun wire => (wire.1.object, wire.2.object) := by
  have hall : alone.signalWires.filter (fun wire => wire.1.slot == home) = alone.signalWires := by
    rw [List.filter_eq_self]
    intro wire hwire
    have hflows : alone.Flows wire.1 wire.2 := hwire
    obtain ⟨edge, hedge, hsource, -⟩ := exists_edge_of_flows hflows
    rw [← hsource, beq_iff_eq]
    exact h.slot_eq (placeOf_mem (joined_ofSlots alone edge hedge).1)
  rw [← hall, wiresIn_eq h.among, wiresIn_eq h.found, h.sounds.wires_eq]

theorem Solo.forall₂_edges (h : slots.Solo alone slot home patch other) :
    List.Forall₂ (SameEdge (SameObject slots alone slot home))
      ((ofSlots slots).edges.filter fun edge => vertexIn slots slot edge.source)
      (ofSlots alone).edges := by
  have hobjects := h.wires_eq
  rw [← map_ends_edges, ← map_ends_edges, List.filter_map, List.map_map, List.map_map]
    at hobjects
  apply (forall₂_of_map_eq hobjects).imp
  intro edge made ⟨hedge, hmade, hends⟩
  obtain ⟨hedge, hinside⟩ := List.mem_filter.mp hedge
  obtain ⟨hsource, htarget⟩ := Prod.mk.inj hends
  obtain ⟨hlt, hlt'⟩ := joined_ofSlots slots edge hedge
  obtain ⟨hmade, hmade'⟩ := joined_ofSlots alone made hmade
  exact ⟨h.sameObject hlt hmade hinside hsource,
    h.sameObject hlt' hmade' ((slot_eq_of_mem_edges hedge).trans hinside) htarget⟩

/-- The patch by itself makes a component of the signal graph. -/
theorem Solo.component (h : slots.Solo alone slot home patch other) :
    (ofSlots slots).Component (vertexIn slots slot) (SameObject slots alone slot home)
      (ofSlots alone) where
  unique := sameObject_unique slots alone slot home
  inside_of_same := by
    rintro index number ⟨-, -, object, hplace, -⟩
    simp [vertexIn, hplace]
  bounds := fun hsame => ⟨hsame.1, hsame.2.1⟩
  vertices := h.forall₂_vertices
  edges := h.forall₂_edges
  closed := fun _ hedge => slot_eq_of_mem_edges hedge

/-- The objects of the patch are scheduled in the order in which they would be if no other patch
was open. -/
theorem Solo.scheduled_eq (h : slots.Solo alone slot home patch other) :
    objectsIn slot slots.scheduled = alone.scheduled.map NodeRef.object := by
  have hsame := h.component.schedule (joined_ofSlots slots) (joined_ofSlots alone)
  calc objectsIn slot slots.scheduled
      = ((ofSlots slots).schedule.filter (vertexIn slots slot)).map fun index =>
          (placeOf (verticesOf slots) index).object := by
        rw [objectsIn, scheduled, List.filter_map, List.map_map]
        rfl
    _ = (ofSlots alone).schedule.map fun number =>
          (placeOf (verticesOf alone) number).object := by
        rw [← List.forall₂_eq_eq_eq, List.forall₂_map_left_iff, List.forall₂_map_right_iff]
        apply hsame.imp
        rintro index number ⟨-, -, object, hplace, hhome⟩
        rw [hplace, hhome]
    _ = alone.scheduled.map NodeRef.object := by
        rw [scheduled, List.map_map]
        rfl

theorem Solo.mem_scheduled (h : slots.Solo alone slot home patch other) {place : NodeRef}
    (hplace : place ∈ alone.scheduled) : { place with slot } ∈ slots.scheduled :=
  mem_objectsIn.mp (h.scheduled_eq ▸ List.mem_map_of_mem hplace)

/-- A signal object is the same, with the same values. -/
theorem Solo.node?_eq_some_iff (h : slots.Solo alone slot home patch other) {object : Nat}
    {node : Node} (hsignal : node.isSignal = true) :
    alone.node? ⟨home, object⟩ = some node ↔ slots.node? ⟨slot, object⟩ = some node := by
  have hsame : (object, node) ∈ other.signals ↔ (object, node) ∈ patch.signals := by
    rw [h.sounds.signals_eq]
  simpa [Patch.mem_signals, hsignal, node?_eq h.among, node?_eq h.found] using hsame

theorem Solo.exists_node (h : slots.Solo alone slot home patch other) {place : NodeRef}
    (hplace : place ∈ alone.scheduled) :
    place.slot = home ∧ ∃ node, alone.node? place = some node ∧
      slots.node? { place with slot } = some node := by
  obtain ⟨node, hnode, hsignal⟩ := mem_placesOf.mp (alone.scheduled_subset hplace)
  obtain ⟨index, object⟩ := place
  obtain rfl : index = home := h.slot_of_node? hnode
  exact ⟨rfl, node, hnode, (h.node?_eq_some_iff hsignal).mp hnode⟩

/-- An inlet is fed by the same outlets in the same order. -/
theorem Solo.feeders_eq (h : slots.Solo alone slot home patch other) (object inlet : Nat) :
    slots.feeders ⟨slot, object⟩ inlet =
      (alone.feeders ⟨home, object⟩ inlet).map fun feeder =>
        ({ feeder.1 with slot }, feeder.2) := by
  rw [Slots.feeders_eq h.among, Slots.feeders_eq h.found, h.sounds.feeders_eq, List.map_map]
  rfl

end Slots

/-! ## What is heard -/

namespace SignalFlow
open Slots

variable {slots alone : Slots} {slot home : Nat} {patch other : Patch} {levels : Levels}
  {format : AudioFormat} {inputs : List Block} {time channel : Nat}

/-- No output converter outside of a slot has a host output among its channels. -/
def Undisturbed (slots : Slots) (slot channel : Nat) : Prop :=
  ∀ place channels, slots.node? place = some (.dac channels) → channel ∈ channels →
    place.slot = slot

theorem writersAt_eq_nil_iff {place : NodeRef} :
    writersAt slots channel place = [] ↔
      ∀ channels, slots.node? place = some (.dac channels) → channel ∉ channels := by
  unfold writersAt
  split
  · rename_i channels hnode
    simp only [List.map_eq_nil_iff, List.filter_eq_nil_iff, beq_iff_eq, Prod.forall,
      List.mk_mem_zipIdx_iff_getElem?]
    constructor
    · rintro hnone found hfound hmem
      obtain rfl : channels = found := by simpa [hnode] using hfound
      obtain ⟨index, hindex⟩ := List.mem_iff_getElem?.mp hmem
      exact hnone channel index hindex rfl
    · rintro hnone found index hindex rfl
      exact hnone channels hnode (List.mem_of_getElem? hindex)
  · rename_i hnode
    simpa using fun channels hfound => absurd hfound (hnode channels)

theorem undisturbed_iff :
    Undisturbed slots slot channel ↔
      ∀ entry ∈ slots.nodes, entry.1.slot ≠ slot → writersAt slots channel entry.1 = [] := by
  simp only [Undisturbed, writersAt_eq_nil_iff, Prod.forall, mem_nodes]
  constructor
  · intro h place _ _ hslot channels hnode hmem
    exact hslot (h place channels hnode hmem)
  · intro h place channels hnode hmem
    by_contra hslot
    exact h place _ hnode hslot channels hnode hmem

instance (slots : Slots) (slot channel : Nat) : Decidable (Undisturbed slots slot channel) :=
  decidable_of_iff _ undisturbed_iff.symm

/-- What goes to an undisturbed host output comes from the objects in the slot, in order. -/
theorem flatMap_writersAt (hundisturbed : Undisturbed slots slot channel)
    (places : List NodeRef) :
    places.flatMap (writersAt slots channel) =
      (objectsIn slot places).flatMap fun object => writersAt slots channel ⟨slot, object⟩ := by
  induction places with
  | nil => rfl
  | cons place rest ih =>
    obtain ⟨index, object⟩ := place
    by_cases hslot : index = slot
    · subst hslot
      simpa [objectsIn] using ih
    · have hnone : writersAt slots channel ⟨index, object⟩ = [] :=
        writersAt_eq_nil_iff.mpr fun channels hnode hmem =>
          hslot (hundisturbed _ channels hnode hmem)
      rw [List.flatMap_cons, hnone, List.nil_append, ih]
      simp [objectsIn, hslot]

/-- To an undisturbed host output go the same inlets in the same order. -/
theorem writers_solo (h : slots.Solo alone slot home patch other)
    (hundisturbed : Undisturbed slots slot channel) :
    writers slots channel =
      (writers alone channel).map fun writer => ({ writer.1 with slot }, writer.2) := by
  rw [writers, writers, flatMap_writersAt hundisturbed, h.scheduled_eq, List.flatMap_map,
    List.map_flatMap]
  apply List.flatMap_congr
  intro place hplace
  obtain ⟨-, node, hnode, hthere⟩ := h.exists_node hplace
  simp only [writersAt, hnode, hthere]
  cases node with
  | dac channels =>
    rw [List.map_map]
    rfl
  | _ => rfl

/-- The samples that the objects in a slot have, wherever the objects are asked for. -/
def Levels.inSlot (levels : Levels) (slot : Nat) : Levels := fun place outlet =>
  levels { place with slot } outlet

/-- The same samples arrive at an inlet. -/
theorem arriving_solo (h : slots.Solo alone slot home patch other) (levels : Levels)
    {place : NodeRef} (hplace : place.slot = home) (inlet : Nat) :
    arriving alone (levels.inSlot slot) place inlet =
      arriving slots levels { place with slot } inlet := by
  obtain ⟨index, object⟩ := place
  subst hplace
  rw [arriving, arriving, h.feeders_eq, List.map_map]
  rfl

/-- What solves the equations of all patches solves those of one. -/
theorem Solves.solo (h : slots.Solo alone slot home patch other)
    (hsolves : Solves slots format inputs time levels) :
    Solves alone format inputs time (levels.inSlot slot) := by
  intro place hplace node hnode outlet houtlet
  obtain ⟨hslot, found, hfound, hthere⟩ := h.exists_node hplace
  obtain rfl : found = node := Option.some_inj.mp (hfound.symm.trans hnode)
  have harriving : arriving alone (levels.inSlot slot) place =
      arriving slots levels { place with slot } := funext (arriving_solo h levels hslot)
  rw [harriving]
  exact hsolves _ (h.mem_scheduled hplace) found hthere outlet houtlet

/-- An undisturbed host output has the same sample. -/
theorem hostOutput_solo (h : slots.Solo alone slot home patch other)
    (hundisturbed : Undisturbed slots slot channel) (format : AudioFormat) (levels : Levels) :
    hostOutput alone format (levels.inSlot slot) channel =
      hostOutput slots format levels channel := by
  have harriving : ((writers alone channel).map fun writer =>
        arriving alone (levels.inSlot slot) writer.1 writer.2) =
      (writers slots channel).map fun writer => arriving slots levels writer.1 writer.2 := by
    rw [writers_solo h hundisturbed, List.map_map]
    apply List.map_congr_left
    intro writer hwriter
    obtain ⟨place, hplace, hat⟩ := List.mem_flatMap.mp hwriter
    obtain ⟨hslot, node, hnode, -⟩ := h.exists_node hplace
    obtain ⟨rfl, -⟩ := lt_of_mem_writersAt hat hnode
    exact arriving_solo h levels hslot writer.2
  rw [hostOutput, hostOutput, harriving]

end SignalFlow

/-- Blocks that go by the flow of all patches and by that of one have the same samples in an
undisturbed host output. -/
theorem BlockRun.Governs.take_eq {slots alone : Slots} {slot home channel : Nat}
    {patch other : Patch} {format : AudioFormat}
    {inputs outputs outputs' blocks blocks' : List Block}
    (h : BlockRun.Governs slots format inputs outputs blocks)
    (h' : BlockRun.Governs alone format inputs outputs' blocks')
    (hsolo : slots.Solo alone slot home patch other)
    (hlengths : outputs'.map List.length = outputs.map List.length)
    (hundisturbed : SignalFlow.Undisturbed slots slot channel) :
    blocks'[channel]?.map (List.take format.blockSize) =
      blocks[channel]?.map (List.take format.blockSize) := by
  have hcount : blocks'.length = blocks.length := by
    have hblocks := congrArg List.length h.margins
    have hblocks' := congrArg List.length h'.margins
    have houtputs := congrArg List.length hlengths
    simp only [List.length_map] at hblocks hblocks' houtputs
    omega
  by_cases hchannel : channel < blocks.length
  · have hchannel' : channel < blocks'.length := hcount.symm ▸ hchannel
    rw [List.getElem?_eq_getElem hchannel, List.getElem?_eq_getElem hchannel', Option.map_some,
      Option.map_some, Option.some_inj]
    apply List.ext_getElem?
    intro time
    simp only [List.getElem?_take]
    split
    · rename_i htime
      obtain ⟨levels, hlevels, -⟩ := h.solution time htime
      rw [h.samples time htime levels hlevels channel _ (List.getElem?_eq_getElem hchannel),
        h'.samples time htime _ (hlevels.solo hsolo) channel _ (List.getElem?_eq_getElem hchannel'),
        SignalFlow.hostOutput_solo hsolo hundisturbed]
    · rfl
  · rw [List.getElem?_eq_none (Nat.le_of_not_lt hchannel),
      List.getElem?_eq_none (hcount.symm ▸ Nat.le_of_not_lt hchannel)]

/-! ## Sessions -/

/-- The signal flow governs the blocks of every engine that sessions lead to. -/
theorem Engine.Reachable.governs {engine : Engine} (h : engine.Reachable) {format : AudioFormat}
    {size : Nat} {inputs outputs : List Block}
    (hadmits : engine.Admits format size inputs outputs) :
    BlockRun.Governs engine.slots format inputs outputs
      (engine.perform size inputs outputs).2.1 := by
  obtain ⟨hprepared, rfl, hinputs, houtputs⟩ := hadmits
  exact BlockRun.Ready.governs (⟨h.inStep.fresh format hprepared, h.inStep.quiet format hprepared,
    hinputs, houtputs⟩ : BlockRun.Ready ⟨engine.chain, engine.slots, format, inputs, outputs⟩)

/-- A block that one instance runs is run by another that is prepared alike, whatever the host
outputs held before. -/
theorem Instance.perform_alike {inst single : Instance}
    (hformat : single.engine.format = inst.engine.format) {pending : List Command}
    (pending' : List Command) {size : Nat} {inputs outputs outputs' blocks : List Block}
    (hlengths : outputs'.map List.length = outputs.map List.length)
    (hperform : (inst.perform pending size inputs outputs).result = .ok blocks) :
    ∃ blocks', (single.perform pending' size inputs outputs').result = .ok blocks' := by
  obtain ⟨format, hadmits⟩ := checkBlock_eq_ok_iff.mp (checkBlock_of_perform hperform)
  have hlong : ∀ output ∈ outputs', size ≤ output.length := by
    intro output houtput
    have hmem : output.length ∈ outputs.map List.length :=
      hlengths ▸ List.mem_map_of_mem houtput
    obtain ⟨before, hbefore, hlength⟩ := List.mem_map.mp hmem
    rw [← hlength]
    exact hadmits.outputs_long before hbefore
  have hcheck : single.checkBlock size inputs outputs' = .ok () :=
    checkBlock_eq_ok_iff.mpr ⟨format,
      { hadmits with prepared := hformat.trans hadmits.prepared, outputs_long := hlong }⟩
  exact ⟨_, by rw [perform_eq_of_ok hcheck]; rfl⟩

/-- Closing a patch takes it out of its slot and leaves the others. -/
theorem Rack.exists_closed {rack : Rack} {position : Nat} {inst : Instance}
    (hinst : rack.instance? position = some inst) {slot : Nat} {patch : Patch}
    (hpatch : inst.engine.slots.patchAt slot = some patch) :
    ∃ id done closed, rack.act (.request position (.close id)) = some done ∧
      done.state.instance? position = some closed ∧
      closed.engine.format = inst.engine.format ∧
      ∀ index, closed.engine.slots.patchAt index =
        if index = slot then none else inst.engine.slots.patchAt index := by
  let id : PatchId := ⟨slot, inst.engine.slots.generationAt slot⟩
  have hfound : inst.engine.slots.patch? id = some patch :=
    Slots.patch?_eq_some_iff.mpr ⟨rfl, hpatch⟩
  obtain ⟨rest, hremoved⟩ : ∃ rest, inst.engine.slots.remove? id = some (patch, rest) :=
    ⟨_, Slots.remove?_eq_some_iff.mpr ⟨hfound, rfl⟩⟩
  have hclosed : (inst.close id).state.engine = (inst.engine.withSlots rest).rebuildChain.1 := by
    simp only [Instance.close, Engine.remove?, hremoved, Option.map_some, Instance.settle]
  have hact : rack.act (.request position (.close id)) =
      some { state := (rack.setInstance position (inst.close id).state).record (inst.close id).calls
             calls := (inst.close id).calls
             result := (inst.close id).result.map fun _ => .done } := by
    simp only [act, run, hinst, Option.map_some]
    rfl
  refine ⟨id, _, (inst.close id).state, hact,
    instance?_setInstance hinst (inst.close id).state, ?_, ?_⟩
  · rw [hclosed, Engine.format_rebuildChain]
    rfl
  · intro index
    rw [hclosed, Engine.slots_rebuildChain]
    exact Slots.patchAt_remove hremoved index

/-- Closing patch after patch empties any slots but one. -/
theorem Rack.exists_session_closing {rack : Rack} {position : Nat} {inst : Instance}
    (hinst : rack.instance? position = some inst) (slot : Nat) (indices : List Nat) :
    ∃ actions lone single, rack.session actions = some lone ∧
      lone.instance? position = some single ∧ single.engine.format = inst.engine.format ∧
      ∀ index, single.engine.slots.patchAt index =
        if index ∈ indices ∧ index ≠ slot then none else inst.engine.slots.patchAt index := by
  induction indices generalizing rack inst with
  | nil => exact ⟨[], rack, inst, rfl, hinst, rfl, by simp⟩
  | cons first rest ih =>
    by_cases hopen : first ≠ slot ∧ inst.engine.slots.patchAt first ≠ none
    · obtain ⟨patch, hpatch⟩ := Option.ne_none_iff_exists'.mp hopen.2
      obtain ⟨id, done, closed, hdone, hclosed, hformat, hslots⟩ := exists_closed hinst hpatch
      obtain ⟨actions, lone, single, hsession, hsingle, hsame, hrest⟩ := ih hclosed
      refine ⟨.request position (.close id) :: actions, lone, single, ?_, hsingle,
        hsame.trans hformat, ?_⟩
      · rw [session, hdone, Option.bind_some, hsession]
      · intro index
        rw [hrest, hslots]
        by_cases hfirst : index = first
        · simp [hfirst, hopen.1]
        · simp [hfirst]
    · obtain ⟨actions, lone, single, hsession, hsingle, hsame, hrest⟩ := ih hinst
      refine ⟨actions, lone, single, hsession, hsingle, hsame, fun index => ?_⟩
      rw [hrest]
      by_cases hfirst : index = first
      · subst hfirst
        by_cases hslot : index = slot
        · simp [hslot]
        · have hnone : inst.engine.slots.patchAt index = none := by
            simpa [hslot] using hopen
          simp [hnone]
      · simp [hfirst]

/-- Closing all other patches leaves a patch open by itself. -/
theorem Rack.exists_session_solo {rack : Rack} {position : Nat} {inst : Instance}
    (hinst : rack.instance? position = some inst) {slot : Nat} {patch : Patch}
    (hpatch : inst.engine.slots.patchAt slot = some patch) :
    ∃ actions lone single, rack.session actions = some lone ∧
      lone.instance? position = some single ∧ single.engine.format = inst.engine.format ∧
      inst.engine.slots.Solo single.engine.slots slot slot patch patch := by
  obtain ⟨actions, lone, single, hsession, hsingle, hformat, hslots⟩ :=
    exists_session_closing hinst slot (List.range inst.engine.slots.length)
  refine ⟨actions, lone, single, hsession, hsingle, hformat, hpatch, ?_, .refl patch, ?_⟩
  · rw [hslots, if_neg (by simp), hpatch]
  · intro index hne
    rw [hslots]
    split
    · rfl
    · rename_i hbeyond
      have hle : inst.engine.slots.length ≤ index := by
        simpa [hne] using hbeyond
      exact Slots.patchAt_of_length_le hle

/-- In every session a patch is heard as if no other was open. Another instance may have it open
by itself, in whatever slot. If both are prepared alike and the signal objects have the same
values, the same input gives the same samples in every host output that no converter of another
patch goes to. -/
theorem Rack.Reachable.heard_as_alone {rack lone : Rack} (h : rack.Reachable)
    (h' : lone.Reachable) {position position' : Nat} {inst single : Instance}
    (hinst : rack.instance? position = some inst) (hsingle : lone.instance? position' = some single)
    (hformat : single.engine.format = inst.engine.format) {pending pending' : List Command}
    {slot home : Nat} {patch other : Patch}
    (hsolo : (inst.carryOutAll pending).1.engine.slots.Solo
      (single.carryOutAll pending').1.engine.slots slot home patch other)
    {size : Nat} {inputs outputs outputs' blocks : List Block}
    (hlengths : outputs'.map List.length = outputs.map List.length)
    (hperform : (inst.perform pending size inputs outputs).result = .ok blocks) :
    ∃ blocks', (single.perform pending' size inputs outputs').result = .ok blocks' ∧
      ∀ channel,
        SignalFlow.Undisturbed (inst.carryOutAll pending).1.engine.slots slot channel →
          blocks'[channel]?.map (List.take size) = blocks[channel]?.map (List.take size) := by
  obtain ⟨blocks', hperform'⟩ := Instance.perform_alike hformat pending' hlengths hperform
  refine ⟨blocks', hperform', fun channel hundisturbed => ?_⟩
  obtain ⟨format, hprepared, hadmits, rfl⟩ := Instance.exists_admits_of_perform hperform
  obtain ⟨format', hprepared', hadmits', rfl⟩ := Instance.exists_admits_of_perform hperform'
  obtain rfl : format = format' := by
    simpa [hformat, hprepared] using hprepared'
  have hgoverns := (Instance.carryOutAll_reachable pending (h.engine hinst)).governs hadmits
  have hgoverns' := (Instance.carryOutAll_reachable pending' (h'.engine hsingle)).governs hadmits'
  rw [hadmits.size_eq] at hgoverns hgoverns' ⊢
  exact hgoverns.take_eq hgoverns' hsolo hlengths hundisturbed

/-- A file tree with a patch that feeds two output converters with one channel, and with one that
has a cycle. -/
def twoPatches : FileTree :=
  { entries := [
      (["pair.pd"], .file (.text (
        "#N canvas 0 0 9 9 10;\n#X obj 0 0 adc~;\n#X obj 0 0 *~;\n#X obj 0 0 dac~;\n" ++
        "#X obj 0 0 dac~;\n#X connect 0 0 1 0;\n#X connect 0 1 1 1;\n#X connect 1 0 2 0;\n" ++
        "#X connect 0 0 3 0;\n"))),
      (["loop.pd"], .file (.text (
        "#N canvas 0 0 9 9 10;\n#X obj 0 0 adc~;\n#X obj 0 0 +~;\n#X obj 0 0 *~;\n" ++
        "#X obj 0 0 -~;\n#X connect 0 0 1 0;\n#X connect 1 0 2 0;\n#X connect 2 0 1 1;\n" ++
        "#X connect 0 1 3 0;\n")))] }

/-- A session where the pair is open behind the loop. -/
def pairAmongOthers : List HostAction :=
  [.create none, .setFiles twoPatches, .request 0 (.load "/loop.pd" ""),
    .request 0 (.load "/pair.pd" ""), .request 0 (.prepare {})]

/-- A session where the pair is open by itself. -/
def pairByItself : List HostAction :=
  [.create none, .setFiles twoPatches, .request 0 (.load "/pair.pd" ""),
    .request 0 (.prepare {})]

/-- Whether the pair is open in a slot. -/
def Slots.hasPair (slots : Slots) (slot : Nat) : Bool :=
  (slots.patchAt slot).any fun patch => decide (
    patch.signals = [(0, .adc [0, 1]), (1, .arithmetic .multiply none), (2, .dac [0, 1]),
      (3, .dac [0, 1])] ∧
    patch.connections = [⟨0, 0, 1, 0⟩, ⟨0, 1, 1, 1⟩, ⟨1, 0, 2, 0⟩, ⟨0, 0, 3, 0⟩])

theorem Slots.exists_of_hasPair {slots alone : Slots} {slot home : Nat}
    (h : slots.hasPair slot = true) (h' : alone.hasPair home = true) :
    ∃ patch other, slots.patchAt slot = some patch ∧ alone.patchAt home = some other ∧
      patch.SoundsLike other := by
  obtain ⟨patch, hpatch, hpair⟩ := (Option.any_eq_true _ _).mp h
  obtain ⟨other, hother, hpair'⟩ := (Option.any_eq_true _ _).mp h'
  obtain ⟨hsignals, hconnections⟩ := of_decide_eq_true hpair
  obtain ⟨hsignals', hconnections'⟩ := of_decide_eq_true hpair'
  exact ⟨patch, other, hpatch, hother, hsignals'.trans hsignals.symm,
    hconnections'.trans hconnections.symm⟩

open SignalFlow in
/-- The pair in the second slot is scheduled between the objects of the other patch, of which
two are on a cycle. Two converters of the pair go to the first host output, where the samples are
those of the pair by itself. -/
theorem heard_as_alone_pair :
    ∃ (rack lone : Rack) (inst single : Instance) (blocks blocks' : List Block),
      rack.Reachable ∧ lone.Reachable ∧ rack.instance? 0 = some inst ∧
      lone.instance? 0 = some single ∧
      inst.engine.slots.scheduled =
        [⟨0, 0⟩, ⟨1, 0⟩, ⟨0, 3⟩, ⟨1, 1⟩, ⟨1, 3⟩, ⟨1, 2⟩] ∧
      single.engine.slots.scheduled = [⟨0, 0⟩, ⟨0, 1⟩, ⟨0, 3⟩, ⟨0, 2⟩] ∧
      writers inst.engine.slots 0 = [(⟨1, 3⟩, 0), (⟨1, 2⟩, 0)] ∧
      Undisturbed inst.engine.slots 1 0 ∧
      (inst.perform [] 64 silentStereo silentStereo).result = .ok blocks ∧
      (single.perform [] 64 silentStereo silentStereo).result = .ok blocks' ∧
      blocks'[0]?.map (List.take 64) = blocks[0]?.map (List.take 64) := by
  have hloop : ({} : Rack).session (pairAmongOthers.take 3) = _ :=
    Rack.session_of_load _ 2 ["loop.pd"] rfl rfl rfl
      (append_eq_ofList (append_eq_ofList rfl rfl) rfl) (by decide)
  have hamong : (({} : Rack).session pairAmongOthers).any (fun rack =>
      (rack.instance? 0).any fun inst => decide
        ((inst.perform [] 64 silentStereo silentStereo).result.toOption.isSome = true ∧
          inst.engine.format = some {} ∧ inst.engine.slots.hasPair 1 = true ∧
          inst.engine.slots.scheduled =
            [⟨0, 0⟩, ⟨1, 0⟩, ⟨0, 3⟩, ⟨1, 1⟩, ⟨1, 3⟩, ⟨1, 2⟩] ∧
          writers inst.engine.slots 0 = [(⟨1, 3⟩, 0), (⟨1, 2⟩, 0)] ∧
          Undisturbed inst.engine.slots 1 0)) = true := by
    rw [Rack.session_of_load pairAmongOthers 3 ["pair.pd"] (hloop.trans rfl) rfl rfl
      (append_eq_ofList (append_eq_ofList rfl rfl) rfl) (by decide), readPatch,
      readRecords_ofList, readPatch, readRecords_ofList]
    decide +kernel
  have hitself : (({} : Rack).session pairByItself).any (fun rack =>
      (rack.instance? 0).any fun inst => decide
        (inst.engine.format = some {} ∧ inst.engine.slots.hasPair 0 = true ∧
          inst.engine.slots.length = 1 ∧
          inst.engine.slots.scheduled = [⟨0, 0⟩, ⟨0, 1⟩, ⟨0, 3⟩, ⟨0, 2⟩])) = true := by
    rw [Rack.session_of_load pairByItself 2 ["pair.pd"] rfl rfl rfl
      (append_eq_ofList (append_eq_ofList rfl rfl) rfl) (by decide), readPatch,
      readRecords_ofList]
    decide +kernel
  obtain ⟨rack, inst, hrack, hinst, hran, hformat, hpair, horder, hwriters, hundisturbed⟩ :=
    Rack.exists_of_session hamong
  obtain ⟨lone, single, hlone, hsingle, hformat', hpair', hlength, horder'⟩ :=
    Rack.exists_of_session hitself
  obtain ⟨patch, other, hpatch, hother, hsounds⟩ := Slots.exists_of_hasPair hpair hpair'
  have hsolo : (inst.carryOutAll []).1.engine.slots.Solo
      (single.carryOutAll []).1.engine.slots 1 0 patch other := by
    refine ⟨hpatch, hother, hsounds, fun index hindex => ?_⟩
    have hbeyond : single.engine.slots.length ≤ index := by omega
    exact Slots.patchAt_of_length_le hbeyond
  cases hresult : (inst.perform [] 64 silentStereo silentStereo).result with
  | error failure =>
    rw [hresult] at hran
    cases hran
  | ok blocks =>
    obtain ⟨blocks', hresult', hheard⟩ := hrack.heard_as_alone hlone hinst hsingle
      (hformat'.trans hformat.symm) hsolo rfl hresult
    exact ⟨rack, lone, inst, single, blocks, blocks', hrack, hlone, hinst, hsingle, horder,
      horder', hwriters, hundisturbed, hresult, hresult', hheard 0 hundisturbed⟩

end Patchbay
