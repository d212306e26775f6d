import Mathlib.Data.List.Basic
import Patchbay.Engine.Listeners
import Patchbay.Proofs.Outline

/-!
# Places in order

The objects of the open patches stand in slot order, and those of one patch in
object order. Every place occurs once, and it occurs exactly if a patch is open
in its slot and has an object of its number.
-/

namespace Patchbay

/-- One place comes before another: in a lower slot, or in the same slot with a
lower object number. -/
def NodeRef.Before (a b : NodeRef) : Prop :=
  a.slot < b.slot ∨ a.slot = b.slot ∧ a.object < b.object

theorem NodeRef.Before.ne {a b : NodeRef} (h : a.Before b) : a ≠ b := by
  rintro rfl
  rcases h with h | h
  · exact Nat.lt_irrefl _ h
  · exact Nat.lt_irrefl _ h.2

private theorem zipIdx_pairwise {α : Type*} (items : List α) :
    items.zipIdx.Pairwise fun a b => a.2 < b.2 := by
  have h : (items.zipIdx.map Prod.snd).Pairwise (· < ·) := by
    rw [List.zipIdx_map_snd]
    exact List.pairwise_lt_range'
  exact List.pairwise_map.mp h

namespace Slots

/-! ## Patches -/

theorem mem_patches {slots : Slots} {id : PatchId} {patch : Patch} :
    (id, patch) ∈ slots.patches ↔ slots[id.slot]? = some ⟨id.generation, some patch⟩ := by
  simp only [patches, List.mem_filterMap, Prod.exists, List.mk_mem_zipIdx_iff_getElem?,
    Option.map_eq_some_iff, Prod.mk.injEq]
  constructor
  · rintro ⟨⟨generation, stored⟩, index, hslot, opened, hopened, rfl, rfl⟩
    simp only at hopened
    rw [hslot, hopened]
  · intro h
    exact ⟨_, _, h, patch, rfl, rfl, rfl⟩

/-- An open patch is what stands in its slot. -/
theorem patchAt_eq_some_iff {slots : Slots} {slot : Nat} {patch : Patch} :
    slots.patchAt slot = some patch ↔
      ∃ generation, (PatchId.mk slot generation, patch) ∈ slots.patches := by
  simp only [mem_patches, patchAt, Option.bind_eq_some_iff]
  constructor
  · rintro ⟨⟨generation, stored⟩, h, rfl⟩
    exact ⟨generation, h⟩
  · rintro ⟨generation, h⟩
    exact ⟨_, h, rfl⟩

/-- A handle that stands for a patch leads to its slot. -/
theorem patchAt_of_patch? {slots : Slots} {id : PatchId} {patch : Patch}
    (h : slots.patch? id = some patch) : slots.patchAt id.slot = some patch := by
  unfold patch? at h
  cases hslot : slots[id.slot]? with
  | none => simp [hslot] at h
  | some slot =>
    simp only [hslot, Option.ite_none_right_eq_some] at h
    simp [patchAt, hslot, h.2]

theorem patches_pairwise (slots : Slots) :
    slots.patches.Pairwise fun a b => a.1.slot < b.1.slot := by
  apply List.pairwise_filterMap.mpr
  apply (zipIdx_pairwise slots).imp
  rintro ⟨slot, i⟩ ⟨slot', j⟩ hij a ha b hb
  obtain ⟨patch, -, rfl⟩ := Option.map_eq_some_iff.mp ha
  obtain ⟨patch', -, rfl⟩ := Option.map_eq_some_iff.mp hb
  exact hij

/-! ## Objects -/

theorem mem_nodes {slots : Slots} {place : NodeRef} {node : Node} :
    (place, node) ∈ slots.nodes ↔ slots.node? place = some node := by
  simp only [nodes, node?, List.mem_flatMap, List.mem_map, Prod.exists, Prod.mk.injEq,
    List.mk_mem_zipIdx_iff_getElem?, Option.bind_eq_some_iff, patchAt_eq_some_iff, Patch.node?,
    Option.map_eq_some_iff]
  constructor
  · rintro ⟨⟨slot, generation⟩, patch, hpatch, object, index, hobject, rfl, rfl⟩
    exact ⟨patch, ⟨generation, hpatch⟩, object, hobject, rfl⟩
  · rintro ⟨patch, ⟨generation, hpatch⟩, object, hobject, rfl⟩
    exact ⟨_, patch, hpatch, object, place.object, hobject, rfl, rfl⟩

theorem nodes_pairwise (slots : Slots) : slots.nodes.Pairwise fun a b => a.1.Before b.1 := by
  apply List.pairwise_flatMap.mpr
  constructor
  · rintro ⟨id, patch⟩ -
    apply List.pairwise_map.mpr
    exact (zipIdx_pairwise patch.objects).imp fun h => Or.inr ⟨rfl, h⟩
  · apply (patches_pairwise slots).imp
    rintro ⟨id, patch⟩ ⟨id', patch'⟩ hlt a ha b hb
    obtain ⟨_, -, rfl⟩ := List.mem_map.mp ha
    obtain ⟨_, -, rfl⟩ := List.mem_map.mp hb
    exact Or.inl hlt

/-- The places of the objects with a property, in order. -/
def placesOf (slots : Slots) (property : Node → Bool) : List NodeRef :=
  (slots.nodes.filter fun entry => property entry.2).map Prod.fst

theorem mem_placesOf {slots : Slots} {property : Node → Bool} {place : NodeRef} :
    place ∈ slots.placesOf property ↔
      ∃ node, slots.node? place = some node ∧ property node = true := by
  simp [placesOf, mem_nodes]

theorem placesOf_pairwise (slots : Slots) (property : Node → Bool) :
    (slots.placesOf property).Pairwise NodeRef.Before :=
  List.pairwise_map.mpr ((nodes_pairwise slots).filter _)

theorem placesOf_nodup (slots : Slots) (property : Node → Bool) :
    (slots.placesOf property).Nodup :=
  (placesOf_pairwise slots property).imp NodeRef.Before.ne

/-- Places are the same in slots of one outline, for a property that outlines show. -/
theorem placesOf_eq_of_outline {slots slots' : Slots} (h : slots'.outline = slots.outline)
    {property : Node → Bool} (hproperty : ∀ node, property node.outline = property node) :
    slots'.placesOf property = slots.placesOf property := by
  have hplaces := congrArg (fun slots => Slots.placesOf slots property) h
  simpa [placesOf, nodes_outline, List.filter_map, Function.comp_def, hproperty] using hplaces

end Slots

/-! ## Listeners -/

namespace Listeners

/-- The table of listeners shows, for each tie, the places of the objects that listen there. -/
theorem listening_ofSlots (slots : Slots) (tie : Tie) :
    (ofSlots slots).listening tie = slots.placesOf fun node => node.listensAt == some tie := by
  simp only [listening, ofSlots, Slots.placesOf]
  induction slots.nodes with
  | nil => rfl
  | cons entry rest ih =>
    obtain ⟨place, node⟩ := entry
    cases h : node.listensAt with
    | none => simp [h, ih]
    | some heard => by_cases heq : heard = tie <;> simp [h, heq, ih]

theorem toMidi_ofSlots (slots : Slots) :
    (ofSlots slots).toMidi = slots.placesOf Node.isMidiIn := rfl

/-- Slots of one outline have the same listeners. -/
theorem ofSlots_eq_of_outline {slots slots' : Slots} (h : slots'.outline = slots.outline) :
    ofSlots slots' = ofSlots slots := by
  have hlisteners := congrArg ofSlots h
  simpa [ofSlots, Slots.nodes_outline, List.filterMap_map, List.filter_map, Function.comp_def]
    using hlisteners

end Listeners

end Patchbay
