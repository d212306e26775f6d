import Mathlib.Data.List.Basic
import Patchbay.Proofs.Checked
import Patchbay.Proofs.Loading
import Patchbay.Proofs.Rendering

/-!
# Blocks in every session

In every session the chain of a live instance fits its patches. A block that the
instance runs therefore goes through without fault, fires what fires after a block
once, and leaves in the host outputs what the signal flow says.
-/

namespace Patchbay

/-- What is true of a block that an engine runs. -/
structure Engine.RunsThrough (engine : Engine) (format : AudioFormat)
    (inputs outputs : List Block) : Prop where
  /-- Every step finds its object, with the ports it has buffers for. -/
  runnable : ∀ step ∈ engine.chain.steps,
    step.Runnable engine.slots engine.chain.buffers.length
  /-- At every point there are all buffers, and each holds a block. -/
  sound : ∀ steps, steps <+: engine.chain.steps →
    (engine.chain.after engine.slots format.blockSize inputs outputs steps).Sound
      engine.chain.buffers.length format.blockSize
  /-- Nothing that is read or written is missing. -/
  checked : Checked.perform engine.chain engine.slots format.blockSize inputs outputs =
    some (engine.chain.perform engine.slots format.blockSize inputs outputs)
  /-- The chain names every object that fires after a block once, and no other. -/
  ticks_once : ∀ place,
    engine.chain.ticks.count place = if engine.slots.node? place = some .tick then 1 else 0
  /-- After the block these objects fire, one after the other. -/
  fires : ∀ hooks id,
    Engine.shown hooks id
        ((engine.perform format.blockSize inputs outputs).1,
          (engine.perform format.blockSize inputs outputs).2.2) =
      engine.chain.ticks.foldl
        (fun scene place => DepthFirst.fire hooks id scene place [.outlet 0 .bang])
        { slots := engine.slots }

/-- An engine in step runs every block through that it admits. -/
theorem Engine.Reachable.runsThrough {engine : Engine} (h : engine.Reachable)
    {format : AudioFormat} {size : Nat} {inputs outputs : List Block}
    (hadmits : engine.Admits format size inputs outputs) :
    engine.RunsThrough format inputs outputs := by
  obtain ⟨hprepared, rfl, hinputs, houtputs⟩ := hadmits
  have hfresh := h.inStep.fresh format hprepared
  refine ⟨fun _ hstep => hfresh.runnable hstep, ?_,
    Checked.perform_eq_some hfresh hinputs houtputs, ?_, ?_⟩
  · intro steps hsteps
    exact Chain.after_sound hfresh hinputs houtputs fun _ hstep => hsteps.subset hstep
  · intro place
    have htick : (∃ node, engine.slots.node? place = some node ∧ node.isTick = true) ↔
        engine.slots.node? place = some .tick := by
      constructor
      · rintro ⟨node, hnode, htick⟩
        cases node <;> simp_all [Node.isTick]
      · intro hnode
        exact ⟨.tick, hnode, rfl⟩
    rw [h.inStep.ticks_eq hprepared, (Slots.placesOf_nodup engine.slots Node.isTick).count]
    simp only [Slots.mem_placesOf, htick]
  · intro hooks id
    exact (Engine.perform_shows hooks id h.settled format.blockSize inputs outputs).shown_eq

namespace Instance
variable {inst : Instance} {pending : List Command} {size : Nat} {inputs outputs : List Block}
  {blocks : List Block}

/-- A block that has been run was admitted once the pending commands were carried out. -/
theorem exists_admits_of_perform
    (h : (inst.perform pending size inputs outputs).result = .ok blocks) :
    ∃ format, inst.engine.format = some format ∧
      (inst.carryOutAll pending).1.engine.Admits format size inputs outputs ∧
      blocks = ((inst.carryOutAll pending).1.engine.perform size inputs outputs).2.1 := by
  unfold perform at h
  split at h
  · cases h
  · obtain ⟨format, hadmits⟩ := checkBlock_eq_ok_iff.mp ‹_›
    exact ⟨format, hadmits.prepared, Admits.afterCommands hadmits pending,
      (Except.ok.inj h).symm⟩

end Instance

/-- In every session the chain of a live instance fits its patches, and whatever block the
instance runs goes through. -/
theorem Rack.Reachable.chain_inStep {rack : Rack} (h : rack.Reachable) {position : Nat}
    {inst : Instance} (hinst : rack.instance? position = some inst) :
    inst.engine.InStep ∧
      ∀ pending size inputs outputs blocks,
        (inst.perform pending size inputs outputs).result = .ok blocks →
          ∃ format, inst.engine.format = some format ∧ format.blockSize = size ∧
            (inst.carryOutAll pending).1.engine.InStep ∧
            (inst.carryOutAll pending).1.engine.RunsThrough format inputs outputs := by
  have hreachable := h.engine hinst
  refine ⟨hreachable.inStep, ?_⟩
  intro pending size inputs outputs blocks hperform
  obtain ⟨format, hprepared, hadmits, -⟩ := Instance.exists_admits_of_perform hperform
  have hcarried := Instance.carryOutAll_reachable pending hreachable
  exact ⟨format, hprepared, hadmits.size_eq.symm, hcarried.inStep, hcarried.runsThrough hadmits⟩

/-- A session with a prepared instance: the two host inputs are multiplied and go to the first
host output, and a `bang~` fires after every block. -/
def ringModulator : List HostAction :=
  [.create none,
    .setFiles
      { entries := [(["ring.pd"], .file (.text (
          "#N canvas 0 0 9 9 10;\n#X obj 0 0 adc~;\n#X obj 0 0 *~;\n#X obj 0 0 dac~;\n" ++
          "#X obj 0 0 bang~;\n#X connect 0 0 1 0;\n#X connect 0 1 1 1;\n" ++
          "#X connect 1 0 2 0;\n")))] },
    .request 0 (.load "/ring.pd" ""),
    .request 0 (.prepare {})]

/-- The blocks of a stereo host that plays silence. -/
def silentStereo : List Block := [Block.silence 64, Block.silence 64]

open SignalFlow in
/-- What the session comes to: a block goes through a chain of the three signal objects and the
object that fires. Of the two host outputs the first has one inlet writing to it and so has the
second, where nothing arrives. -/
theorem exists_of_session_ringModulator :
    ∃ rack : Rack, ∃ inst blocks, rack.Reachable ∧ rack.instance? 0 = some inst ∧
      (inst.perform [] 64 silentStereo silentStereo).result = .ok blocks ∧
      inst.engine.format = some {} ∧
      inst.engine.chain.steps.map ChainStep.place = [⟨0, 0⟩, ⟨0, 1⟩, ⟨0, 2⟩] ∧
      inst.engine.chain.ticks = [⟨0, 3⟩] ∧
      writers inst.engine.slots 0 = [(⟨0, 2⟩, 0)] ∧ writers inst.engine.slots 1 = [(⟨0, 2⟩, 1)] ∧
      inst.engine.slots.feeders ⟨0, 2⟩ 0 = [(⟨0, 1⟩, 0)] ∧
      inst.engine.slots.feeders ⟨0, 2⟩ 1 = [] := by
  have hsession : (({} : Rack).session ringModulator).any (fun rack =>
      (rack.instance? 0).any fun inst => decide
        ((inst.perform [] 64 silentStereo silentStereo).result.toOption.isSome = true ∧
          inst.engine.format = some {} ∧
          inst.engine.chain.steps.map ChainStep.place = [⟨0, 0⟩, ⟨0, 1⟩, ⟨0, 2⟩] ∧
          inst.engine.chain.ticks = [⟨0, 3⟩] ∧
          writers inst.engine.slots 0 = [(⟨0, 2⟩, 0)] ∧
          writers inst.engine.slots 1 = [(⟨0, 2⟩, 1)] ∧
          inst.engine.slots.feeders ⟨0, 2⟩ 0 = [(⟨0, 1⟩, 0)] ∧
          inst.engine.slots.feeders ⟨0, 2⟩ 1 = [])) = true := by
    rw [Rack.session_of_load ringModulator 2 ["ring.pd"] rfl rfl rfl
      (append_eq_ofList (append_eq_ofList rfl rfl) rfl) (by decide), readPatch,
      readRecords_ofList]
    decide +kernel
  obtain ⟨rack, inst, hrack, hinst, hran, hseen⟩ := Rack.exists_of_session hsession
  cases hresult : (inst.perform [] 64 silentStereo silentStereo).result with
  | error failure =>
    rw [hresult] at hran
    cases hran
  | ok blocks => exact ⟨rack, inst, blocks, hrack, hinst, hresult, hseen⟩

/-- The chain of the session has the three signal objects and the object that fires, and a
block goes through. -/
theorem chain_inStep_ringModulator :
    ∃ rack : Rack, ∃ inst blocks, rack.Reachable ∧ rack.instance? 0 = some inst ∧
      (inst.perform [] 64 silentStereo silentStereo).result = .ok blocks ∧
      inst.engine.chain.steps.map ChainStep.place = [⟨0, 0⟩, ⟨0, 1⟩, ⟨0, 2⟩] ∧
      inst.engine.chain.ticks = [⟨0, 3⟩] ∧
      inst.engine.InStep ∧ inst.engine.RunsThrough {} silentStereo silentStereo := by
  obtain ⟨rack, inst, blocks, hrack, hinst, hresult, hformat, hplaces, hticks, -⟩ :=
    exists_of_session_ringModulator
  obtain ⟨hinStep, hruns⟩ := hrack.chain_inStep hinst
  obtain ⟨format, hprepared, -, -, hthrough⟩ := hruns [] 64 _ _ blocks hresult
  obtain rfl : format = {} := by
    rw [hformat] at hprepared
    exact (Option.some.inj hprepared).symm
  exact ⟨rack, inst, blocks, hrack, hinst, hresult, hplaces, hticks, hinStep, hthrough⟩

end Patchbay
