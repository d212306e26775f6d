import Mathlib.Data.List.Basic
import Patchbay.Proofs.Freshness
import Patchbay.Proofs.Loading

/-!
# Operations are depth first

Whatever has happened to an engine, its operations call the host and leave the
objects as plain recursion says. The engine tells from its tables whom a message
reaches and who fires after a block; the recursion looks at the objects.
-/

namespace Patchbay
namespace Engine

/-- Every operation of a reachable engine shows the scene that plain recursion leads to. -/
theorem Reachable.shows_depthFirst {engine : Engine} (h : engine.Reachable) (hooks : Hooks)
    (id : Nat) :
    (∀ tie message,
      shown hooks id (engine.send tie message) =
        DepthFirst.send hooks id { slots := engine.slots } tie message) ∧
      (∀ event,
        shown hooks id (engine.midi event) =
          DepthFirst.midi hooks id { slots := engine.slots } event) ∧
      (∀ patch,
        shown hooks id (engine.loadbang patch) =
          DepthFirst.loadbang hooks id { slots := engine.slots } patch) ∧
      ∀ size inputs outputs, engine.format.isSome →
        shown hooks id
            ((engine.perform size inputs outputs).1, (engine.perform size inputs outputs).2.2) =
          DepthFirst.tick hooks id { slots := engine.slots } := by
  refine ⟨?_, ?_, ?_, ?_⟩
  · intro tie message
    exact (send_shows hooks id h.settled tie message).shown_eq
  · intro event
    exact (midi_shows hooks id h.settled event).shown_eq
  · intro patch
    exact (loadbang_shows hooks id h.settled patch).shown_eq
  · intro size inputs outputs hprepared
    obtain ⟨format, hformat⟩ := Option.isSome_iff_exists.mp hprepared
    rw [(perform_shows hooks id h.settled size inputs outputs).shown_eq,
      h.inStep.ticks_eq hformat]
    rfl

/-- A session with a patch that feeds a message back to where it came from. -/
def feedback : List HostAction :=
  [.create none,
    .setFiles
      { entries := [(["loop.pd"], .file (.text
          "#N canvas 0 0 9 9 10;\n#X obj 0 0 r a;\n#X obj 0 0 s a;\n#X connect 0 0 1 0;\n"))] },
    .request 0 (.load "/loop.pd" ""),
    .request 0 (.prepare {})]

/-- The dispatcher and the recursion agree where messages run in a circle. -/
theorem shows_depthFirst_feedback :
    ∃ engine : Engine, engine.Reachable ∧ engine.format = some {} ∧
      engine.listeners.listening ⟨"a"⟩ = [{ slot := 0, object := 0 }] ∧
      engine.slots.targets { slot := 0, object := 0 } 0 = [(1, 0)] ∧
      engine.slots.node? { slot := 0, object := 1 } = some (.send ⟨"a"⟩) ∧
      shown {} 0 (engine.send ⟨"a"⟩ .bang) =
        DepthFirst.send {} 0 { slots := engine.slots } ⟨"a"⟩ .bang ∧
      shown {} 0 ((engine.perform 64 [] []).1, (engine.perform 64 [] []).2.2) =
        DepthFirst.tick {} 0 { slots := engine.slots } := by
  have hsession : (({} : Rack).session feedback).any (fun rack =>
      (rack.instance? 0).any fun inst => decide
        (inst.engine.format = some {} ∧
          inst.engine.listeners.listening ⟨"a"⟩ = [{ slot := 0, object := 0 }] ∧
          inst.engine.slots.targets { slot := 0, object := 0 } 0 = [(1, 0)] ∧
          inst.engine.slots.node? { slot := 0, object := 1 } = some (.send ⟨"a"⟩))) = true := by
    rw [Rack.session_of_load feedback 2 ["loop.pd"] rfl rfl rfl rfl (by decide),
      readPatch, readRecords_ofList]
    decide +kernel
  obtain ⟨rack, inst, hrack, hinst, hformat, hlistening, htargets, hnode⟩ :=
    Rack.exists_of_session hsession
  have hreachable := hrack.engine hinst
  obtain ⟨hsend, -, -, htick⟩ := hreachable.shows_depthFirst {} 0
  exact ⟨inst.engine, hreachable, hformat, hlistening, htargets, hnode, hsend ⟨"a"⟩ .bang,
    htick 64 [] [] (by rw [hformat]; rfl)⟩

end Engine

end Patchbay
