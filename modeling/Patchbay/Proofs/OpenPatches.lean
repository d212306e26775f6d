import Mathlib.Data.List.Basic
import Patchbay.Proofs.Ahead
import Patchbay.Proofs.Handles
import Patchbay.Proofs.Sending

/-!
# What holds of every open patch

A patch comes into an engine as it was read from its text, and from then on it changes
in one way only: an object of it answers a message. A property that reading gives and
that answers keep therefore holds of every patch that is open in any session, and at any
moment of the work in between.

## Implementation notes

Work changes the slots in one kind of step, which `step_slots` names. What is shown of
single objects in the modules after this one goes through that lemma, and never through
the cases of a step.
-/

namespace Patchbay

/-- A property of patches that reading gives, and that the answers of objects keep. -/
structure Patch.Lasting (property : Patch → Prop) : Prop where
  read : ∀ {name path text : String} {dollarZero : Int32} {patch : Patch}
    {diagnostics : List String},
    readPatch name path text dollarZero = .ok (patch, diagnostics) → property patch
  answer : ∀ {patch : Patch}, property patch → ∀ {object : Nat} {node : Node},
    patch.node? object = some node → ∀ inlet message,
      property (patch.setNode object (node.answer inlet message).1)

namespace Slots
variable {property : Patch → Prop} {slots : Slots}

/-- A property of all open patches. -/
def Every (property : Patch → Prop) (slots : Slots) : Prop :=
  ∀ index patch, slots.patchAt index = some patch → property patch

/-- The slots once an object has answered a message. -/
def answered (slots : Slots) (target : NodeRef) (inlet : Nat) (message : Message) : Slots :=
  match slots.node? target with
  | some node => slots.setNode target (node.answer inlet message).1
  | none => slots

theorem Every.answered (lasting : Patch.Lasting property) (h : slots.Every property)
    (target : NodeRef) (inlet : Nat) (message : Message) :
    (slots.answered target inlet message).Every property := by
  unfold Slots.answered
  cases hnode : slots.node? target with
  | none => exact h
  | some node =>
    intro index patch hpatch
    rw [patchAt_setNode] at hpatch
    split at hpatch
    · rename_i hindex
      obtain ⟨old, hold, rfl⟩ := Option.map_eq_some_iff.mp hpatch
      have hobject : old.node? target.object = some node := by
        rw [node?, ← hindex, hold] at hnode
        exact hnode
      exact lasting.answer (h index old hold) hobject inlet message
    · exact h index patch hpatch

theorem Every.insert (h : slots.Every property) {patch : Patch} (hpatch : property patch) :
    (slots.insert patch).1.Every property := by
  intro index found hfound
  rw [patchAt_insert] at hfound
  split at hfound
  · rw [← Option.some.inj hfound]
    exact hpatch
  · exact h index found hfound

theorem Every.remove {id : PatchId} {patch : Patch} {rest : Slots} (h : slots.Every property)
    (hrest : slots.remove? id = some (patch, rest)) : rest.Every property := by
  intro index found hfound
  rw [patchAt_remove hrest] at hfound
  split at hfound
  · cases hfound
  · exact h index found hfound

/-- An object at another place is not touched. -/
theorem node?_setNode (slots : Slots) (target : NodeRef) (node : Node) (place : NodeRef) :
    (slots.setNode target node).node? place =
      if place = target then (slots.node? place).map fun _ => node else slots.node? place := by
  obtain ⟨slot, object⟩ := target
  obtain ⟨slot', object'⟩ := place
  simp only [node?, patchAt_setNode, NodeRef.mk.injEq]
  by_cases hslot : slot' = slot
  · cases slots.patchAt slot' with
    | none => simp
    | some patch =>
      by_cases hobject : object' = object
      · simp [hslot, hobject, Patch.node?, Patch.setNode, Function.comp_def]
      · simp [hslot, hobject, Patch.node?, Patch.setNode, Ne.symm hobject]
  · simp [hslot]

/-- Only the object that answers is changed. -/
theorem node?_answered (slots : Slots) (target : NodeRef) (inlet : Nat) (message : Message)
    (place : NodeRef) :
    (slots.answered target inlet message).node? place =
      if place = target then
        (slots.node? place).map fun node => (node.answer inlet message).1
      else slots.node? place := by
  unfold Slots.answered
  cases hnode : slots.node? target with
  | none =>
    by_cases hplace : place = target
    · simp [hplace, hnode]
    · simp [hplace]
  | some node =>
    rw [node?_setNode]
    by_cases hplace : place = target
    · simp [hplace, hnode]
    · simp [hplace]

end Slots

/-! ## On the way -/

namespace Work

/-- The object that answers in the next step, with the inlet and the message. -/
def asked? : Work → Option (NodeRef × Nat × Message)
  | ⟨dispatch, .deliver target inlet message :: _⟩ =>
    if maxDepth ≤ dispatch.depth then none else some (target, inlet, message)
  | _ => none

theorem slots_answer (dispatch : Dispatch) (target : NodeRef) (inlet : Nat)
    (message : Message) :
    (dispatch.answer target inlet message).slots =
      dispatch.slots.answered target inlet message := by
  unfold Dispatch.answer Slots.answered
  cases dispatch.slots.node? target <;> rfl

/-- A step changes the slots by one answer at most. -/
theorem step_slots (listeners : Listeners) (work : Work) :
    (step listeners work).dispatch.slots =
      match work.asked? with
      | some (target, inlet, message) => work.dispatch.slots.answered target inlet message
      | none => work.dispatch.slots := by
  obtain ⟨dispatch, tasks⟩ := work
  cases tasks with
  | nil => rfl
  | cons task rest =>
    cases task with
    | serve places tie message => cases places <;> rfl
    | offer places event =>
      cases places with
      | nil => rfl
      | cons place places =>
        simp only [step]
        split <;> rfl
    | bang places => cases places <;> rfl
    | spread slot targets message => cases targets <;> rfl
    | deliver target inlet message =>
      simp only [step, asked?]
      split
      · rfl
      · exact slots_answer _ target inlet message
    | flush source height position =>
      simp only [step]
      split
      · cases ‹Emission› <;> rfl
      · rfl
    | _ => rfl

variable {property : Patch → Prop}

theorem step_every (lasting : Patch.Lasting property) (listeners : Listeners) {work : Work}
    (h : work.dispatch.slots.Every property) :
    (step listeners work).dispatch.slots.Every property := by
  rw [step_slots]
  split
  · exact h.answered lasting _ _ _
  · exact h

/-- However far the work has come, a lasting property holds of every open patch. -/
theorem iterate_every (lasting : Patch.Lasting property) (listeners : Listeners) (count : Nat)
    {work : Work} (h : work.dispatch.slots.Every property) :
    ((step listeners)^[count] work).dispatch.slots.Every property := by
  induction count generalizing work with
  | zero => exact h
  | succ count ih => exact ih (step_every lasting listeners h)

end Work

/-! ## Whole operations -/

section
variable {property : Patch → Prop}

/-- A patch file is read as a patch text. -/
theorem Environment.exists_text_of_readPatchFile {environment : Environment} {path : String}
    {patch : Patch} {diagnostics : List String}
    (h : (environment.readPatchFile path).2 = .ok (patch, diagnostics)) :
    ∃ name text dollarZero, readPatch name path text dollarZero = .ok (patch, diagnostics) := by
  unfold readPatchFile at h
  split at h
  · exact ⟨_, _, _, h⟩
  · cases h

theorem Engine.Reaches.every (lasting : Patch.Lasting property) {engine : Engine}
    {tasks : List Task} {done : Engine × List Effect} (hreaches : engine.Reaches tasks done)
    (h : engine.slots.Every property) : done.1.slots.Every property := by
  obtain ⟨count, hcount⟩ := hreaches []
  have hiterate : ((Work.step engine.listeners)^[count]
      ⟨engine.start, tasks ++ []⟩).dispatch.slots.Every property :=
    Work.iterate_every lasting engine.listeners count h
  rw [hcount] at hiterate
  exact hiterate

namespace Instance
variable {inst : Instance}

theorem carryOutAll_every (lasting : Patch.Lasting property) (hreachable : inst.engine.Reachable)
    (h : inst.engine.slots.Every property) (commands : List Command) :
    (inst.carryOutAll commands).1.engine.slots.Every property := by
  obtain ⟨effects, hreaches, -⟩ := carryOutAll_reaches commands hreachable
  exact hreaches.every lasting h

theorem openPatch_every (lasting : Patch.Lasting property) (hreachable : inst.engine.Reachable)
    (h : inst.engine.slots.Every property) {patch : Patch} (hpatch : property patch)
    (diagnostics : List String) :
    (inst.openPatch patch diagnostics).1.engine.slots.Every property := by
  have hopened : (inst.opened patch).engine.slots.Every property := by
    rw [opened, Engine.slots_rebuildChain]
    exact h.insert hpatch
  have hreaches := Engine.loadbang_reaches (hreachable.openPatch patch).settled
    (inst.openPatch patch diagnostics).2.2
  exact hreaches.every lasting hopened

theorem load_every (lasting : Patch.Lasting property) (hreachable : inst.engine.Reachable)
    (h : inst.engine.slots.Every property) (environment : Environment)
    (name directory : String) :
    (inst.load environment name directory).state.2.engine.slots.Every property := by
  cases hload : (inst.load environment name directory).result with
  | error failure =>
    rw [(load_of_error hload).1]
    exact h
  | ok id =>
    obtain ⟨path, patch, diagnostics, -, -, hread, -, hstate, -⟩ := exists_read_of_load hload
    obtain ⟨fileName, text, dollarZero, hpatch⟩ := Environment.exists_text_of_readPatchFile hread
    rw [hstate]
    exact openPatch_every lasting hreachable h (lasting.read hpatch) diagnostics

theorem close_every (h : inst.engine.slots.Every property) (id : PatchId) :
    (inst.close id).state.engine.slots.Every property := by
  unfold close
  cases hclose : inst.engine.remove? id with
  | none => exact h
  | some removed =>
    obtain ⟨⟨patch, rest⟩, hremove, rfl⟩ := Option.map_eq_some_iff.mp hclose
    have hslots : (inst.engine.withSlots rest).rebuildChain.1.slots = rest :=
      Engine.slots_rebuildChain _
    change Slots.Every property (inst.engine.withSlots rest).rebuildChain.1.slots
    rw [hslots]
    exact h.remove hremove

theorem serve_every (lasting : Patch.Lasting property) (hreachable : inst.engine.Reachable)
    (h : inst.engine.slots.Every property) (environment : Environment) (request : Request) :
    (inst.serve environment request).state.2.engine.slots.Every property := by
  cases request with
  | send tie message => exact (Engine.send_reaches hreachable.settled tie message).every lasting h
  | midi event => exact (Engine.midi_reaches hreachable.settled event).every lasting h
  | load name directory => exact load_every lasting hreachable h environment name directory
  | close id => exact close_every h id
  | prepare format =>
    have hslots := inst.slots_prepare format
    rw [← hslots] at h
    exact h
  | _ => exact h

theorem perform_every (lasting : Patch.Lasting property) (hreachable : inst.engine.Reachable)
    (h : inst.engine.slots.Every property) (pending : List Command) (size : Nat)
    (inputs outputs : List Block) :
    (inst.perform pending size inputs outputs).state.engine.slots.Every property := by
  cases hcheck : inst.checkBlock size inputs outputs with
  | error failure =>
    rw [perform_eq_of_error hcheck]
    exact h
  | ok =>
    rw [perform_eq_of_ok hcheck]
    have hcarried := carryOutAll_every lasting hreachable h pending
    have hsettled := (carryOutAll_reachable pending hreachable).settled
    exact (Engine.perform_reaches hsettled size inputs outputs).every lasting hcarried

end Instance

/-- In every session a lasting property holds of every patch that is open. -/
theorem Rack.Reachable.every_open (lasting : Patch.Lasting property) {rack : Rack}
    (h : rack.Reachable) {position : Nat} {inst : Instance}
    (hinst : rack.instance? position = some inst) : inst.engine.slots.Every property := by
  have hlasting : Rack.Lasting fun inst =>
      inst.engine.Reachable ∧ inst.engine.slots.Every property :=
    { fresh := fun _ _ => ⟨.fresh, fun _ _ hpatch => by cases hpatch⟩
      serve := fun _ hinst environment request =>
        ⟨Instance.serve_reachable hinst.1 environment request,
          Instance.serve_every lasting hinst.1 hinst.2 environment request⟩
      perform := fun _ hinst pending size inputs outputs =>
        ⟨Instance.perform_reachable hinst.1 pending size inputs outputs,
          Instance.perform_every lasting hinst.1 hinst.2 pending size inputs outputs⟩
      queue := fun _ hinst _ => hinst }
  exact ((h.every hlasting).instance? hinst).2

end

end Patchbay
