import Patchbay.Patch.Patch

/-!
# Patch slots

An engine keeps its open patches in numbered slots. A closed patch leaves its
slot free for the next one. Each use of a slot has a generation of its own, which
the handle of a patch carries, so a handle never stands for a later patch.
-/

namespace Patchbay

/-- The handle of a loaded patch. -/
structure PatchId where
  slot : Nat
  generation : UInt32
  deriving DecidableEq, Repr, Inhabited

/-- The text of a handle. -/
def PatchId.text (id : PatchId) : String :=
  "patch#" ++ toString id.slot ++ "." ++ toString id.generation

/-- The place of an object among all open patches. -/
structure NodeRef where
  slot : Nat
  object : Nat
  deriving DecidableEq, Repr, Inhabited

/-- A place for a patch, with the generation of its latest use. -/
structure Slot where
  generation : UInt32 := 0
  patch : Option Patch := none
  deriving DecidableEq, Inhabited

/-- The patch slots of an engine. -/
abbrev Slots := List Slot

namespace Slots

/-- The patch in a slot, whatever its generation. -/
def patchAt (slots : Slots) (slot : Nat) : Option Patch := slots[slot]?.bind Slot.patch

/-- The patch a handle stands for, `none` once it has been closed. -/
def patch? (slots : Slots) (id : PatchId) : Option Patch :=
  match slots[id.slot]? with
  | some slot => if slot.generation = id.generation then slot.patch else none
  | none => none

/-- The node at a place. -/
def node? (slots : Slots) (place : NodeRef) : Option Node :=
  (slots.patchAt place.slot).bind fun patch => patch.node? place.object

/-- Replace the node at a place. -/
def setNode (slots : Slots) (place : NodeRef) (node : Node) : Slots :=
  slots.modify place.slot fun slot =>
    { slot with patch := slot.patch.map fun patch => patch.setNode place.object node }

/-- The targets of an outlet, in connection order. -/
def targets (slots : Slots) (place : NodeRef) (outlet : Nat) : List (Nat × Nat) :=
  match slots.patchAt place.slot with
  | some patch => patch.wiring.targets place.object outlet
  | none => []

/-- The lowest slot without a patch, the next new slot if all are in use. -/
def freeSlot (slots : Slots) : Nat :=
  (slots.findIdx? fun slot => slot.patch.isNone).getD slots.length

/-- Put a patch into the lowest free slot, under a new generation. -/
def insert (slots : Slots) (patch : Patch) : Slots × PatchId :=
  let index := slots.freeSlot
  let generation := (slots.getD index {}).generation + 1
  let slot : Slot := { generation, patch := some patch }
  (if index < slots.length then slots.set index slot else slots ++ [slot],
    { slot := index, generation })

/-- Take the patch of a handle out of its slot. -/
def remove? (slots : Slots) (id : PatchId) : Option (Patch × Slots) :=
  (slots.patch? id).map fun patch =>
    (patch, slots.modify id.slot fun slot => { slot with patch := none })

/-- The open patches with their handles, in slot order. -/
def patches (slots : Slots) : List (PatchId × Patch) :=
  slots.zipIdx.filterMap fun (slot, index) =>
    slot.patch.map fun patch => ({ slot := index, generation := slot.generation }, patch)

/-- How many patches are open. -/
def patchCount (slots : Slots) : Nat := slots.countP fun slot => slot.patch.isSome

/-- All objects of the open patches, in slot and object order. -/
def nodes (slots : Slots) : List (NodeRef × Node) :=
  slots.patches.flatMap fun (id, patch) =>
    patch.objects.zipIdx.map fun (object, index) =>
      ({ slot := id.slot, object := index }, object.node)

end Slots

end Patchbay
