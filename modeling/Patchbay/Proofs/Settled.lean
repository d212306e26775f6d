import Patchbay.Proofs.DepthFirst
import Patchbay.Proofs.Session

/-!
# Engines at rest

Between two operations an engine is at rest: its table of listeners is that of its
patches, its stack is empty and no delivery is under way. Every operation leaves it
at rest again, and those that only send messages keep the outline of all objects.
-/

namespace Patchbay
namespace Engine
open DepthFirst
variable {engine : Engine}

/-- Nothing is under way, and the table of listeners is up to date. -/
structure Settled (engine : Engine) : Prop where
  listeners_eq : engine.listeners = Listeners.ofSlots engine.slots
  stack_eq : engine.stack = #[]
  depth_eq : engine.depth = 0

/-- The dispatch an engine starts with. -/
def start (engine : Engine) : Dispatch :=
  { slots := engine.slots, stack := engine.stack, depth := engine.depth }

theorem start_fits (h : engine.Settled) : engine.start.Fits engine.slots 0 := ⟨rfl, h.depth_eq⟩

/-- The objects and calls that the result of an operation shows. -/
def shown (hooks : Hooks) (id : Nat) (done : Engine × List Effect) : Scene :=
  { slots := done.1.slots, calls := hooks.run id done.2 }

/-- An operation shows a scene, and its engine is at rest with all outlines kept. -/
structure Shows (hooks : Hooks) (id : Nat) (engine : Engine) (done : Engine × List Effect)
    (scene : Scene) : Prop where
  shown_eq : shown hooks id done = scene
  settled : done.1.Settled
  outline_eq : done.1.slots.outline = engine.slots.outline

/-! ## Operations that send messages -/

section
variable (hooks : Hooks) (id : Nat)

/-- Work that mirrors a scene shows this scene. -/
theorem dispatch_shows {work : Dispatch → Dispatch} {scene : Scene} (h : engine.Settled)
    (hwork : Dispatch.Mirrors hooks id engine.start (work engine.start) scene) :
    Shows hooks id engine (engine.dispatch work) scene where
  shown_eq := hwork.scene_eq
  settled :=
    { listeners_eq :=
        h.listeners_eq.trans (Listeners.ofSlots_eq_of_outline hwork.outline_eq).symm
      stack_eq := hwork.stack_eq.trans h.stack_eq
      depth_eq := hwork.depth_eq.trans h.depth_eq }
  outline_eq := hwork.outline_eq

theorem send_shows (h : engine.Settled) (tie : Tie) (message : Message) :
    Shows hooks id engine (engine.send tie message)
      (DepthFirst.send hooks id { slots := engine.slots } tie message) := by
  apply dispatch_shows hooks id h
  rw [h.listeners_eq]
  exact Dispatch.send_mirrors (start_fits h) tie message

theorem midi_shows (h : engine.Settled) (event : MidiEvent) :
    Shows hooks id engine (engine.midi event)
      (DepthFirst.midi hooks id { slots := engine.slots } event) := by
  apply dispatch_shows hooks id h
  rw [h.listeners_eq]
  exact Dispatch.midi_mirrors (start_fits h) event

theorem loadbang_shows (h : engine.Settled) (patch : PatchId) :
    Shows hooks id engine (engine.loadbang patch)
      (DepthFirst.loadbang hooks id { slots := engine.slots } patch) := by
  apply dispatch_shows hooks id h
  rw [h.listeners_eq]
  exact Dispatch.loadbang_mirrors rfl h.depth_eq patch

/-- After a block the places of the chain are banged, whatever the block left in the
buffers. -/
theorem perform_shows (h : engine.Settled) (size : Nat) (inputs outputs : List Block) :
    Shows hooks id engine
      ((engine.perform size inputs outputs).1, (engine.perform size inputs outputs).2.2)
      (engine.chain.ticks.foldl
        (fun scene place => DepthFirst.fire hooks id scene place [.outlet 0 .bang])
        { slots := engine.slots }) := by
  let chained : Engine :=
    { engine with chain := (engine.chain.perform engine.slots size inputs outputs).1 }
  have hchained : chained.Settled := ⟨h.listeners_eq, h.stack_eq, h.depth_eq⟩
  have hdone : Shows hooks id chained
      (chained.dispatch fun dispatch => dispatch.bangAll engine.listeners engine.chain.ticks)
      (engine.chain.ticks.foldl
        (fun scene place => DepthFirst.fire hooks id scene place [.outlet 0 .bang])
        { slots := engine.slots }) := by
    apply dispatch_shows hooks id hchained
    rw [h.listeners_eq]
    exact Dispatch.bangAll_mirrors (start_fits hchained) engine.chain.ticks
  exact ⟨hdone.shown_eq, hdone.settled, hdone.outline_eq⟩

end

/-! ## Every operation -/

theorem settled_withSlots (h : engine.Settled) (slots : Slots) :
    (engine.withSlots slots).Settled :=
  ⟨rfl, h.stack_eq, h.depth_eq⟩

theorem settled_remove? (h : engine.Settled) {id : PatchId} {patch : Patch} {rest : Engine}
    (hrest : engine.remove? id = some (patch, rest)) : rest.Settled := by
  obtain ⟨removed, -, heq⟩ := Option.map_eq_some_iff.mp hrest
  cases heq
  exact settled_withSlots h _

theorem slots_rebuildChain (engine : Engine) : engine.rebuildChain.1.slots = engine.slots := by
  unfold rebuildChain
  split <;> rfl

theorem format_rebuildChain (engine : Engine) : engine.rebuildChain.1.format = engine.format := by
  unfold rebuildChain
  split <;> rfl

theorem settled_rebuildChain (h : engine.Settled) : engine.rebuildChain.1.Settled := by
  unfold rebuildChain
  split
  · exact ⟨h.listeners_eq, h.stack_eq, h.depth_eq⟩
  · exact ⟨h.listeners_eq, h.stack_eq, h.depth_eq⟩

/-- A reachable engine is at rest. -/
theorem Reachable.settled (h : engine.Reachable) : engine.Settled := by
  induction h with
  | fresh => exact ⟨rfl, rfl, rfl⟩
  | openPatch patch _ ih => exact settled_rebuildChain (settled_withSlots ih _)
  | closePatch _ hrest ih => exact settled_rebuildChain (settled_remove? ih hrest)
  | prepare _ _ ih =>
    apply settled_rebuildChain
    exact ⟨ih.listeners_eq, ih.stack_eq, ih.depth_eq⟩
  | release _ ih => exact ⟨ih.listeners_eq, ih.stack_eq, ih.depth_eq⟩
  | send tie message _ ih => exact (send_shows {} 0 ih tie message).settled
  | midi event _ ih => exact (midi_shows {} 0 ih event).settled
  | loadbang patch _ ih => exact (loadbang_shows {} 0 ih patch).settled
  | perform _ _ ih => exact (perform_shows {} 0 ih _ _ _).settled

end Engine

end Patchbay
