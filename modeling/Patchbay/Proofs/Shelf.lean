import Mathlib.Algebra.Group.Nat.Defs
import Mathlib.Data.List.Basic
import Patchbay.Proofs.Places

/-!
# Patches and their handles

What has been put into the slots, and what has been taken out again, decides what
every handle stands for. As long as no slot has been used too often, handles are
pairwise different, a handle finds its own patch from the moment it was given until
it is taken back, and no handle finds anything before or after.

## Implementation notes

A slot keeps its generation when its patch is taken out, and changes it when the next
one is put in. The generation is the number of uses so far, as far as its bits go, so
a bound on the uses of each slot is what keeps old handles apart from new ones.
-/

namespace Patchbay
namespace Slots
variable {slots rest : Slots} {patch : Patch} {id : PatchId}

/-- The generation of the latest use of a slot, zero before the first. -/
def generationAt (slots : Slots) (slot : Nat) : UInt32 := (slots.getD slot {}).generation

theorem patch?_eq (slots : Slots) (id : PatchId) :
    slots.patch? id =
      if slots.generationAt id.slot = id.generation then slots.patchAt id.slot else none := by
  simp only [patch?, generationAt, patchAt, List.getD_eq_getElem?_getD]
  cases slots[id.slot]? with
  | none => simp
  | some slot => rfl

theorem patch?_eq_some_iff :
    slots.patch? id = some patch ↔
      slots.generationAt id.slot = id.generation ∧ slots.patchAt id.slot = some patch := by
  rw [patch?_eq, Option.ite_none_right_eq_some]

/-! ## Putting in -/

theorem freeSlot_le (slots : Slots) : slots.freeSlot ≤ slots.length := by
  unfold freeSlot
  cases hfound : slots.findIdx? fun slot => slot.patch.isNone with
  | none => exact Nat.le_refl _
  | some index => exact Nat.le_of_lt (List.findIdx?_eq_some_iff_getElem.mp hfound).1

theorem patchAt_freeSlot (slots : Slots) : slots.patchAt slots.freeSlot = none := by
  unfold freeSlot
  cases hfound : slots.findIdx? fun slot => slot.patch.isNone with
  | none => simp [patchAt]
  | some index =>
    obtain ⟨hlt, hfree, -⟩ := List.findIdx?_eq_some_iff_getElem.mp hfound
    simpa [patchAt, hlt] using hfree

theorem getElem?_insert (slots : Slots) (patch : Patch) (slot : Nat) :
    (slots.insert patch).1[slot]? =
      if slot = slots.freeSlot then
        some ⟨slots.generationAt slots.freeSlot + 1, some patch⟩
      else slots[slot]? := by
  simp only [insert, generationAt]
  split
  · rename_i hlt
    rw [List.getElem?_set]
    by_cases heq : slot = slots.freeSlot
    · simp [heq, hlt]
    · simp [heq, Ne.symm heq]
  · rename_i hge
    have hlast : slots.freeSlot = slots.length :=
      Nat.le_antisymm slots.freeSlot_le (Nat.le_of_not_lt hge)
    rw [List.getElem?_append, hlast]
    by_cases heq : slot = slots.length
    · simp [heq]
    · rcases Nat.lt_or_gt_of_ne heq with hlt | hgt
      · simp [heq, hlt]
      · have hnot : ¬ slot < slots.length := by omega
        have hpast : slot - slots.length ≠ 0 := by omega
        simp [heq, hnot, hpast]

theorem generationAt_insert (slots : Slots) (patch : Patch) (slot : Nat) :
    (slots.insert patch).1.generationAt slot =
      if slot = slots.freeSlot then slots.generationAt slots.freeSlot + 1
      else slots.generationAt slot := by
  simp only [generationAt, List.getD_eq_getElem?_getD, getElem?_insert]
  split <;> rfl

theorem patchAt_insert (slots : Slots) (patch : Patch) (slot : Nat) :
    (slots.insert patch).1.patchAt slot =
      if slot = slots.freeSlot then some patch else slots.patchAt slot := by
  simp only [patchAt, getElem?_insert]
  split <;> rfl

theorem insert_snd (slots : Slots) (patch : Patch) :
    (slots.insert patch).2 =
      { slot := slots.freeSlot, generation := slots.generationAt slots.freeSlot + 1 } := rfl

/-- A patch is found by the handle it was put in with. -/
theorem patch?_insert (slots : Slots) (patch : Patch) :
    (slots.insert patch).1.patch? (slots.insert patch).2 = some patch := by
  simp [patch?_eq_some_iff, insert_snd, generationAt_insert, patchAt_insert]

/-- Other handles find what they found before. -/
theorem patch?_insert_of_ne (slots : Slots) (patch : Patch) (h : id ≠ (slots.insert patch).2) :
    (slots.insert patch).1.patch? id = slots.patch? id := by
  rw [patch?_eq, patch?_eq, generationAt_insert, patchAt_insert]
  by_cases hslot : id.slot = slots.freeSlot
  · have hgeneration : slots.generationAt slots.freeSlot + 1 ≠ id.generation := by
      intro heq
      exact h (by rw [insert_snd, ← hslot, hslot, heq, ← hslot])
    simp [hslot, hgeneration, patchAt_freeSlot]
  · simp [hslot]

/-! ## Taking out -/

theorem remove?_eq_some_iff :
    slots.remove? id = some (patch, rest) ↔
      slots.patch? id = some patch ∧
        rest = slots.modify id.slot fun slot => { slot with patch := none } := by
  simp only [remove?, Option.map_eq_some_iff, Prod.mk.injEq]
  constructor
  · rintro ⟨_, hpatch, rfl, rfl⟩
    exact ⟨hpatch, rfl⟩
  · rintro ⟨hpatch, rfl⟩
    exact ⟨patch, hpatch, rfl, rfl⟩

theorem generationAt_remove (h : slots.remove? id = some (patch, rest)) (slot : Nat) :
    rest.generationAt slot = slots.generationAt slot := by
  obtain ⟨-, rfl⟩ := remove?_eq_some_iff.mp h
  simp only [generationAt, List.getD_eq_getElem?_getD, List.getElem?_modify]
  cases slots[slot]? with
  | none => rfl
  | some stored => by_cases heq : id.slot = slot <;> simp [heq]

theorem patchAt_remove (h : slots.remove? id = some (patch, rest)) (slot : Nat) :
    rest.patchAt slot = if slot = id.slot then none else slots.patchAt slot := by
  obtain ⟨-, rfl⟩ := remove?_eq_some_iff.mp h
  simp only [patchAt, List.getElem?_modify]
  by_cases heq : id.slot = slot
  · cases slots[slot]? <;> simp [heq]
  · cases slots[slot]? <;> simp [heq, Ne.symm heq]

/-- A handle that has been taken back finds nothing. -/
theorem patch?_remove (h : slots.remove? id = some (patch, rest)) : rest.patch? id = none := by
  simp [patch?_eq, patchAt_remove h]

/-- Other handles find what they found before. -/
theorem patch?_remove_of_ne (h : slots.remove? id = some (patch, rest)) {other : PatchId}
    (hne : other ≠ id) : rest.patch? other = slots.patch? other := by
  rw [patch?_eq, patch?_eq, generationAt_remove h, patchAt_remove h]
  by_cases hslot : other.slot = id.slot
  · have hgeneration : slots.generationAt other.slot ≠ other.generation := by
      intro heq
      have hown := (patch?_eq_some_iff.mp (remove?_eq_some_iff.mp h).1).1
      apply hne
      rw [← hslot, heq] at hown
      cases other
      cases id
      simp_all
    simp [hgeneration]
  · simp [hslot]

/-! ## Outlines and counting -/

theorem patch?_outline (slots : Slots) (id : PatchId) :
    slots.outline.patch? id = (slots.patch? id).map Patch.outline := by
  simp only [patch?, outline, List.getElem?_map]
  cases slots[id.slot]? with
  | none => rfl
  | some slot =>
    simp only [Option.map_some, Slot.outline]
    split <;> rfl

theorem generationAt_outline (slots : Slots) (slot : Nat) :
    slots.outline.generationAt slot = slots.generationAt slot := by
  simp only [generationAt, outline, List.getD_eq_getElem?_getD, List.getElem?_map]
  cases slots[slot]? <;> rfl

/-- The list of the open patches tells what each handle finds. -/
theorem mem_patches_iff_patch? : (id, patch) ∈ slots.patches ↔ slots.patch? id = some patch := by
  rw [mem_patches, patch?]
  cases hslot : slots[id.slot]? with
  | none => simp
  | some slot =>
    obtain ⟨generation, stored⟩ := slot
    by_cases heq : generation = id.generation
    · simp [heq]
    · simp [heq]

theorem mem_map_patches : id ∈ slots.patches.map Prod.fst ↔ (slots.patch? id).isSome := by
  simp only [List.mem_map, Prod.exists, exists_and_right, exists_eq_right, mem_patches_iff_patch?,
    Option.isSome_iff_exists]

theorem patchCount_eq (slots : Slots) : slots.patchCount = slots.patches.length := by
  calc slots.patchCount
      = (slots.zipIdx.map Prod.fst).countP fun slot => slot.patch.isSome := by
        rw [List.zipIdx_map_fst, patchCount]
    _ = slots.zipIdx.countP fun entry => entry.1.patch.isSome := by
        rw [List.countP_map]
        rfl
    _ = slots.patches.length := by
        simp [patches, List.length_filterMap_eq_countP]

theorem nodup_map_patches (slots : Slots) : (slots.patches.map Prod.fst).Nodup := by
  apply List.pairwise_map.mpr
  apply slots.patches_pairwise.imp
  intro a b hlt heq
  exact Nat.ne_of_lt hlt (congrArg PatchId.slot heq)

/-! ## A history of the slots -/

/-- How often a slot has been used, by the patches that have been put in. -/
def uses (given : List (PatchId × Patch)) (slot : Nat) : Nat :=
  given.countP fun entry => entry.1.slot == slot

theorem uses_append (given more : List (PatchId × Patch)) (slot : Nat) :
    uses (given ++ more) slot = uses given slot + uses more slot := List.countP_append

theorem uses_singleton (entry : PatchId × Patch) (slot : Nat) :
    uses [entry] slot = if entry.1.slot = slot then 1 else 0 := by
  simp [uses, List.countP_singleton]

theorem uses_le_length (given : List (PatchId × Patch)) (slot : Nat) :
    uses given slot ≤ given.length := List.countP_le_length

/-- The slots are what is left of the patches that have been put in, each with the handle it
got, once some handles have been taken back. -/
structure Kept (slots : Slots) (given : List (PatchId × Patch)) (taken : List PatchId) :
    Prop where
  generationAt_eq : ∀ slot, slots.generationAt slot = UInt32.ofNat (uses given slot)
  /-- Each handle has the number of its use. -/
  numbered : ∀ entry ∈ given, ∃ number ≤ uses given entry.1.slot,
    entry.1.generation = UInt32.ofNat number
  given_nodup : (given.map Prod.fst).Nodup
  taken_nodup : taken.Nodup
  given_of_taken : ∀ id ∈ taken, id ∈ given.map Prod.fst
  /-- A handle finds its own patch until it is taken back. -/
  found : ∀ entry ∈ given, entry.1 ∉ taken →
    ∃ patch, slots.patch? entry.1 = some patch ∧ patch.outline = entry.2.outline
  lost : ∀ id ∈ taken, slots.patch? id = none
  unknown : ∀ id, id ∉ given.map Prod.fst → slots.patch? id = none

section
variable {given : List (PatchId × Patch)} {taken : List PatchId}

theorem kept_nil : Kept [] [] [] where
  generationAt_eq := fun _ => rfl
  numbered := fun _ h => absurd h List.not_mem_nil
  given_nodup := List.nodup_nil
  taken_nodup := List.nodup_nil
  given_of_taken := fun _ h => absurd h List.not_mem_nil
  found := fun _ h => absurd h List.not_mem_nil
  lost := fun _ h => absurd h List.not_mem_nil
  unknown := fun _ _ => rfl

/-- The next handle is new, unless its slot has been used too often. -/
theorem Kept.fresh (h : slots.Kept given taken) (patch : Patch)
    (hbound : uses given slots.freeSlot + 1 < 2 ^ 32) :
    (slots.insert patch).2 ∉ given.map Prod.fst := by
  intro hmem
  obtain ⟨entry, hentry, heq⟩ := List.mem_map.mp hmem
  obtain ⟨number, hle, hnumber⟩ := h.numbered entry hentry
  have hsmall : number ≤ uses given slots.freeSlot := by
    rw [heq] at hle
    exact hle
  have hsame : UInt32.ofNat (uses given slots.freeSlot + 1) = UInt32.ofNat number := by
    rw [UInt32.ofNat_add, ← h.generationAt_eq, ← hnumber, heq]
    rfl
  have hlt : number < UInt32.size := Nat.lt_trans (Nat.lt_succ_of_le hsmall) hbound
  have htoNat := congrArg UInt32.toNat hsame
  rw [UInt32.toNat_ofNat_of_lt' hbound, UInt32.toNat_ofNat_of_lt' hlt] at htoNat
  omega

/-- Putting a patch in. -/
theorem Kept.insert (h : slots.Kept given taken) (patch : Patch)
    (hbound : uses given slots.freeSlot + 1 < 2 ^ 32) :
    (slots.insert patch).1.Kept (given ++ [((slots.insert patch).2, patch)]) taken := by
  have hfresh := h.fresh patch hbound
  have huses (slot : Nat) : uses (given ++ [((slots.insert patch).2, patch)]) slot =
      uses given slot + if slots.freeSlot = slot then 1 else 0 := by
    rw [uses_append, uses_singleton, insert_snd]
  have hnot_taken : (slots.insert patch).2 ∉ taken := fun hmem =>
    hfresh (h.given_of_taken _ hmem)
  constructor
  case generationAt_eq =>
    intro slot
    rw [generationAt_insert, huses]
    by_cases heq : slot = slots.freeSlot
    · subst heq
      rw [if_pos rfl, if_pos rfl, UInt32.ofNat_add, h.generationAt_eq]
      rfl
    · rw [if_neg heq, if_neg (Ne.symm heq), h.generationAt_eq, Nat.add_zero]
  case numbered =>
    intro entry hentry
    rw [huses]
    rcases List.mem_append.mp hentry with hold | hnew
    · obtain ⟨number, hle, hnumber⟩ := h.numbered entry hold
      exact ⟨number, by omega, hnumber⟩
    · rw [List.mem_singleton.mp hnew]
      refine ⟨uses given slots.freeSlot + 1, ?_, ?_⟩
      · simp [insert_snd]
      · rw [UInt32.ofNat_add, ← h.generationAt_eq]
        rfl
  case given_nodup =>
    rw [List.map_append, List.nodup_append]
    refine ⟨h.given_nodup, List.pairwise_singleton _ _, ?_⟩
    intro id hid other hnew heq
    rw [heq, List.mem_singleton.mp hnew] at hid
    exact hfresh hid
  case taken_nodup => exact h.taken_nodup
  case given_of_taken =>
    intro id hid
    rw [List.map_append]
    exact List.mem_append_left _ (h.given_of_taken id hid)
  case found =>
    intro entry hentry hnot
    rcases List.mem_append.mp hentry with hold | hnew
    · have hne : entry.1 ≠ (slots.insert patch).2 := fun heq =>
        hfresh (heq ▸ List.mem_map_of_mem hold)
      rw [patch?_insert_of_ne slots patch hne]
      exact h.found entry hold hnot
    · rw [List.mem_singleton.mp hnew]
      exact ⟨patch, patch?_insert slots patch, rfl⟩
  case lost =>
    intro id hid
    have hne : id ≠ (slots.insert patch).2 := fun heq => hnot_taken (heq ▸ hid)
    rw [patch?_insert_of_ne slots patch hne]
    exact h.lost id hid
  case unknown =>
    intro id hid
    rw [List.map_append, List.mem_append, not_or] at hid
    have hne : id ≠ (slots.insert patch).2 := fun heq => hid.2 (List.mem_singleton.mpr heq)
    rw [patch?_insert_of_ne slots patch hne]
    exact h.unknown id hid.1

/-- A handle that finds a patch has been given and not been taken back. -/
theorem Kept.given_of_found (h : slots.Kept given taken) (hpatch : slots.patch? id = some patch) :
    id ∈ given.map Prod.fst ∧ id ∉ taken := by
  constructor
  · by_contra hnot
    rw [h.unknown id hnot] at hpatch
    cases hpatch
  · intro hmem
    rw [h.lost id hmem] at hpatch
    cases hpatch

/-- Taking a patch out. -/
theorem Kept.remove (h : slots.Kept given taken) (hremove : slots.remove? id = some (patch, rest)) :
    rest.Kept given (taken ++ [id]) := by
  obtain ⟨hgiven, hnot_taken⟩ := h.given_of_found (remove?_eq_some_iff.mp hremove).1
  constructor
  case generationAt_eq =>
    intro slot
    rw [generationAt_remove hremove, h.generationAt_eq]
  case numbered => exact h.numbered
  case given_nodup => exact h.given_nodup
  case taken_nodup =>
    rw [List.nodup_append]
    refine ⟨h.taken_nodup, List.pairwise_singleton _ _, ?_⟩
    rintro other hother _ hnew rfl
    exact hnot_taken (List.mem_singleton.mp hnew ▸ hother)
  case given_of_taken =>
    intro other hother
    rcases List.mem_append.mp hother with hold | hnew
    · exact h.given_of_taken other hold
    · exact List.mem_singleton.mp hnew ▸ hgiven
  case found =>
    intro entry hentry hnot
    rw [List.mem_append, not_or] at hnot
    have hne : entry.1 ≠ id := fun heq => hnot.2 (List.mem_singleton.mpr heq)
    rw [patch?_remove_of_ne hremove hne]
    exact h.found entry hentry hnot.1
  case lost =>
    intro other hother
    by_cases heq : other = id
    · exact heq ▸ patch?_remove hremove
    · rw [patch?_remove_of_ne hremove heq]
      rcases List.mem_append.mp hother with hold | hnew
      · exact h.lost other hold
      · exact absurd (List.mem_singleton.mp hnew) heq
  case unknown =>
    intro other hother
    have hne : other ≠ id := fun heq => hother (heq ▸ hgiven)
    rw [patch?_remove_of_ne hremove hne]
    exact h.unknown other hother

/-- What messages do to the objects. -/
theorem Kept.of_outline {slots' : Slots} (h : slots.Kept given taken)
    (houtline : slots'.outline = slots.outline) : slots'.Kept given taken := by
  have hpatch (id : PatchId) :
      (slots'.patch? id).map Patch.outline = (slots.patch? id).map Patch.outline := by
    rw [← patch?_outline, houtline, patch?_outline]
  have hnone (id : PatchId) (hgone : slots.patch? id = none) : slots'.patch? id = none := by
    simpa [hgone] using hpatch id
  constructor
  case generationAt_eq =>
    intro slot
    rw [← generationAt_outline, houtline, generationAt_outline, h.generationAt_eq]
  case numbered => exact h.numbered
  case given_nodup => exact h.given_nodup
  case taken_nodup => exact h.taken_nodup
  case given_of_taken => exact h.given_of_taken
  case found =>
    intro entry hentry hnot
    obtain ⟨patch, hfound, hsame⟩ := h.found entry hentry hnot
    have hmapped := hpatch entry.1
    rw [hfound, Option.map_some, Option.map_eq_some_iff] at hmapped
    obtain ⟨patch', hfound', hsame'⟩ := hmapped
    exact ⟨patch', hfound', hsame'.trans hsame⟩
  case lost => exact fun id hid => hnone id (h.lost id hid)
  case unknown => exact fun id hid => hnone id (h.unknown id hid)

/-- The patches that are open are those put in and not taken out. -/
theorem Kept.mem_map_patches_iff (h : slots.Kept given taken) (id : PatchId) :
    id ∈ slots.patches.map Prod.fst ↔ id ∈ given.map Prod.fst ∧ id ∉ taken := by
  rw [mem_map_patches, Option.isSome_iff_exists]
  constructor
  · rintro ⟨patch, hpatch⟩
    exact h.given_of_found hpatch
  · rintro ⟨hgiven, hnot⟩
    obtain ⟨entry, hentry, rfl⟩ := List.mem_map.mp hgiven
    obtain ⟨patch, hpatch, -⟩ := h.found entry hentry hnot
    exact ⟨patch, hpatch⟩

/-- As many patches are open as have been put in and not been taken out. -/
theorem Kept.patchCount_add (h : slots.Kept given taken) :
    slots.patchCount + taken.length = given.length := by
  have hnodup : (slots.patches.map Prod.fst ++ taken).Nodup := by
    rw [List.nodup_append]
    refine ⟨slots.nodup_map_patches, h.taken_nodup, ?_⟩
    rintro id hid _ htaken rfl
    exact ((h.mem_map_patches_iff id).mp hid).2 htaken
  have hperm : (slots.patches.map Prod.fst ++ taken).Perm (given.map Prod.fst) := by
    apply (List.perm_ext_iff_of_nodup hnodup h.given_nodup).mpr
    intro id
    rw [List.mem_append, h.mem_map_patches_iff]
    constructor
    · rintro (hopen | htaken)
      · exact hopen.1
      · exact h.given_of_taken id htaken
    · intro hgiven
      by_cases htaken : id ∈ taken
      · exact Or.inr htaken
      · exact Or.inl ⟨hgiven, htaken⟩
  simpa [patchCount_eq] using hperm.length_eq

end

end Slots

end Patchbay
