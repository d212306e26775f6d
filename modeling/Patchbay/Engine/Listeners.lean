import Patchbay.Engine.Slots

/-!
# Who listens to what

Two tables are kept of the open patches: which objects listen at which tie, and
which objects take incoming MIDI. They change only when a patch is opened or
closed, because no message changes what an object listens to.
-/

namespace Patchbay

/-- The listening objects of the open patches, in slot and object order. -/
structure Listeners where
  atTies : List (Tie × NodeRef) := []
  toMidi : List NodeRef := []
  deriving DecidableEq, Repr

namespace Listeners

/-- The listening objects of the given patches. -/
def ofSlots (slots : Slots) : Listeners where
  atTies := slots.nodes.filterMap fun (place, node) => node.listensAt.map fun tie => (tie, place)
  toMidi := (slots.nodes.filter fun entry => entry.2.isMidiIn).map Prod.fst

/-- The objects that listen at a tie. -/
def listening (listeners : Listeners) (tie : Tie) : List NodeRef :=
  (listeners.atTies.filter fun entry => entry.1 == tie).map Prod.snd

end Listeners

end Patchbay
