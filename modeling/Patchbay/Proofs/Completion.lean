import Mathlib.Data.List.Basic
import Patchbay.Proofs.Performing
import Patchbay.Proofs.Shelf
import Patchbay.Proofs.Stepwise

/-!
# Operations come to an end

Every operation that sends messages is a list of tasks. Done step by step from the
engine of a live instance, the list runs empty after finitely many steps, and what is
left is the engine and the calls that the operation gives. Deliveries never nest deeper
than `maxDepth`, and afterwards the stack is empty and nothing is nested, whether or
not a message was dropped on the way.
-/

namespace Patchbay
namespace Engine
variable {engine : Engine}

/-- The steps of some tasks lead to the result of an operation, whatever is left to do. -/
def Reaches (engine : Engine) (tasks : List Task) (done : Engine × List Effect) : Prop :=
  ∀ rest, Work.Leads engine.listeners ⟨engine.start, tasks ++ rest⟩
    ⟨{ done.1.start with effects := done.2.toArray }, rest⟩

theorem Reaches.nil (engine : Engine) : engine.Reaches [] (engine, []) := fun _ => Work.Leads.refl _

/-- One list of tasks after another. -/
theorem Reaches.append {tasks tasks' : List Task} {done done' : Engine × List Effect}
    (h : engine.Reaches tasks done) (h' : done.1.Reaches tasks' done')
    (hlisteners : done.1.listeners = engine.listeners) :
    engine.Reaches (tasks ++ tasks') (done'.1, done.2 ++ done'.2) := by
  intro rest
  have hsecond := (h' rest).behind done.2.toArray
  rw [hlisteners] at hsecond
  rw [List.append_assoc]
  simpa [Work.behind, start] using (h (tasks' ++ rest)).trans hsecond

/-- The result of work on the objects of an engine, as a dispatch. -/
theorem start_dispatch (engine : Engine) (work : Dispatch → Dispatch) :
    { (engine.dispatch work).1.start with effects := (engine.dispatch work).2.toArray } =
      work engine.start := by
  simp [dispatch, start]

theorem send_reaches (h : engine.Settled) (tie : Tie) (message : Message) :
    engine.Reaches [.send tie message] (engine.send tie message) := by
  intro rest
  rw [send, start_dispatch, h.listeners_eq]
  exact Work.send_leads tie message (start_fits h) rest

theorem midi_reaches (h : engine.Settled) (event : MidiEvent) :
    engine.Reaches [.midi event] (engine.midi event) := by
  intro rest
  rw [midi, start_dispatch, h.listeners_eq]
  exact (Work.offer_leads _ event (start_fits h) rest).after

theorem loadbang_reaches (h : engine.Settled) (id : PatchId) :
    engine.Reaches [.bang (engine.loadbangs id)] (engine.loadbang id) := by
  intro rest
  rw [loadbang, start_dispatch, h.listeners_eq]
  exact Work.bang_leads _ (start_fits h) rest

/-- A block runs before the tasks of the engine begin, and touches no object. -/
theorem perform_reaches (h : engine.Settled) (size : Nat) (inputs outputs : List Block) :
    engine.Reaches [.bang engine.chain.ticks]
      ((engine.perform size inputs outputs).1, (engine.perform size inputs outputs).2.2) := by
  intro rest
  let chained : Engine :=
    { engine with chain := (engine.chain.perform engine.slots size inputs outputs).1 }
  have hdone : (engine.perform size inputs outputs).1 =
        (chained.dispatch fun dispatch =>
          dispatch.bangAll engine.listeners engine.chain.ticks).1 ∧
      (engine.perform size inputs outputs).2.2 =
        (chained.dispatch fun dispatch =>
          dispatch.bangAll engine.listeners engine.chain.ticks).2 := ⟨rfl, rfl⟩
  rw [hdone.1, hdone.2, start_dispatch, h.listeners_eq]
  exact Work.bang_leads engine.chain.ticks (start_fits h) rest

end Engine

namespace Instance
variable {inst : Instance}

/-- Some tasks, done step by step, come to an end with the instance and the calls that an
operation gives. -/
structure Completes (inst : Instance) (tasks : List Task) (done : Instance × List Call) :
    Prop where
  /-- After finitely many steps no task is left, the stack is empty and nothing is nested. -/
  ends : ∃ effects : List Effect,
    Work.Leads inst.engine.listeners ⟨inst.engine.start, tasks⟩
      ⟨{ slots := done.1.engine.slots, stack := #[], depth := 0, effects := effects.toArray },
        []⟩ ∧
    inst.hooks.run inst.id effects = done.2
  /-- At no moment are too many deliveries nested. -/
  shallow : ∀ count,
    ((Work.step inst.engine.listeners)^[count] ⟨inst.engine.start, tasks⟩).nested ≤ maxDepth
  stack_eq : done.1.engine.stack = #[]
  depth_eq : done.1.engine.depth = 0

/-- Where no task leaves a delivery, an engine at rest begins in balance. -/
theorem balanced_start (h : inst.engine.Settled) {tasks : List Task}
    (htasks : ∀ task ∈ tasks, task.isLeave = false) :
    Work.Balanced ⟨inst.engine.start, tasks⟩ := by
  have hnested : Work.nested ⟨inst.engine.start, tasks⟩ = 0 :=
    List.countP_eq_zero.mpr fun task htask => by simp [htasks task htask]
  exact ⟨h.depth_eq.trans hnested.symm, hnested ▸ Nat.zero_le _⟩

/-- What an engine reaches, its instance completes. -/
theorem completes_of_reaches (h : inst.engine.Settled) {tasks : List Task}
    {engine : Engine} {effects : List Effect} {done : Instance × List Call}
    (hreaches : inst.engine.Reaches tasks (engine, effects)) (hafter : engine.Settled)
    (htasks : ∀ task ∈ tasks, task.isLeave = false) (hengine : done.1.engine = engine)
    (hcalls : inst.hooks.run inst.id effects = done.2) : inst.Completes tasks done where
  ends := by
    have hleads := hreaches []
    rw [List.append_nil] at hleads
    refine ⟨effects, ?_, hcalls⟩
    rw [hengine]
    simpa only [Engine.start, hafter.stack_eq, hafter.depth_eq] using hleads
  shallow := by
    intro count
    exact (Work.iterate_balanced inst.engine.listeners count (balanced_start h htasks)).nested_le
  stack_eq := hengine ▸ hafter.stack_eq
  depth_eq := hengine ▸ hafter.depth_eq

theorem carryOut_reaches (h : inst.engine.Reachable) (command : Command) :
    ∃ effects, inst.engine.Reaches [command.task] ((inst.carryOut command).1.engine, effects) ∧
      inst.hooks.run inst.id effects = (inst.carryOut command).2 := by
  cases command with
  | send tie message => exact ⟨_, Engine.send_reaches h.settled tie message, rfl⟩
  | midi event => exact ⟨_, Engine.midi_reaches h.settled event, rfl⟩

/-- Commands change the objects of an instance and the state of its dispatcher only. -/
theorem exists_carryOutAll_eq (commands : List Command) (inst : Instance) :
    ∃ slots stack depth, (inst.carryOutAll commands).1 =
      { inst with engine := { inst.engine with slots, stack, depth } } := by
  induction commands generalizing inst with
  | nil => exact ⟨_, _, _, rfl⟩
  | cons command rest ih =>
    obtain ⟨slots, stack, depth, hrest⟩ := ih (inst.carryOut command).1
    refine ⟨slots, stack, depth, hrest.trans ?_⟩
    cases command <;> rfl

/-- Commands one after the other, each with all that follows from it. -/
theorem carryOutAll_reaches (commands : List Command) (h : inst.engine.Reachable) :
    ∃ effects, inst.engine.Reaches (commands.map Command.task)
        ((inst.carryOutAll commands).1.engine, effects) ∧
      inst.hooks.run inst.id effects = (inst.carryOutAll commands).2 := by
  induction commands generalizing inst with
  | nil => exact ⟨[], Engine.Reaches.nil inst.engine, rfl⟩
  | cons command rest ih =>
    obtain ⟨first, hfirst, hcalls⟩ := carryOut_reaches h command
    obtain ⟨second, hsecond, hmore⟩ := ih (carryOut_reachable h command)
    obtain ⟨slots, stack, depth, hone⟩ := exists_carryOutAll_eq [command] inst
    have hkept : (inst.carryOut command).1 =
        { inst with engine := { inst.engine with slots, stack, depth } } := hone
    refine ⟨first ++ second, hfirst.append hsecond (by rw [hkept]), ?_⟩
    calc inst.hooks.run inst.id (first ++ second)
        = inst.hooks.run inst.id first ++ inst.hooks.run inst.id second := List.flatMap_append
      _ = (inst.carryOut command).2 ++ ((inst.carryOut command).1.carryOutAll rest).2 := by
        rw [hcalls, ← hmore, hkept]
      _ = (inst.carryOutAll (command :: rest)).2 := rfl

theorem isLeave_task (command : Command) : command.task.isLeave = false := by
  cases command <;> rfl

theorem carryOut_completes (h : inst.engine.Reachable) (command : Command) :
    inst.Completes [command.task] (inst.carryOut command) := by
  obtain ⟨effects, hreaches, hcalls⟩ := carryOut_reaches h command
  refine completes_of_reaches h.settled hreaches (carryOut_reachable h command).settled ?_ rfl
    hcalls
  simp [isLeave_task]

theorem carryOutAll_completes (h : inst.engine.Reachable) (commands : List Command) :
    inst.Completes (commands.map Command.task) (inst.carryOutAll commands) := by
  obtain ⟨effects, hreaches, hcalls⟩ := carryOutAll_reaches commands h
  refine completes_of_reaches h.settled hreaches (carryOutAll_reachable commands h).settled ?_ rfl
    hcalls
  simp [isLeave_task]

/-- The pending commands and what fires after the block are one list of tasks. -/
theorem perform_completes (h : inst.engine.Reachable) {pending : List Command} {size : Nat}
    {inputs outputs blocks : List Block}
    (hdone : (inst.perform pending size inputs outputs).result = .ok blocks) :
    inst.Completes (pending.map Command.task ++ [Task.bang inst.engine.chain.ticks])
      ((inst.perform pending size inputs outputs).state,
        (inst.perform pending size inputs outputs).calls) := by
  obtain ⟨format, -, hadmits, -⟩ := exists_admits_of_perform hdone
  obtain ⟨slots, stack, depth, hkept⟩ := exists_carryOutAll_eq pending inst
  obtain ⟨effects, hfirst, hcalls⟩ := carryOutAll_reaches pending h
  have hcarried := carryOutAll_reachable pending h
  have hsecond := Engine.perform_reaches hcarried.settled size inputs outputs
  have hticks : (inst.carryOutAll pending).1.engine.chain.ticks = inst.engine.chain.ticks := by
    rw [hkept]
  have hreaches := hfirst.append hsecond (by rw [hkept])
  rw [hticks] at hreaches
  rw [perform_eq_of_ok (checkBlock_of_perform hdone)]
  refine completes_of_reaches h.settled hreaches (hcarried.perform hadmits).settled ?_ rfl ?_
  · intro task htask
    rcases List.mem_append.mp htask with hcommand | hbang
    · obtain ⟨command, -, rfl⟩ := List.mem_map.mp hcommand
      exact isLeave_task command
    · rw [List.mem_singleton.mp hbang]
      rfl
  · rw [← hcalls, hkept]
    exact List.flatMap_append

/-- The instance with a patch opened, before anything fires. -/
def opened (inst : Instance) (patch : Patch) : Instance :=
  { inst with engine := (inst.engine.insert patch).1.rebuildChain.1 }

/-- A patch that has just been opened is found by its handle. -/
theorem opened_patch? (inst : Instance) (patch : Patch) (diagnostics : List String) :
    (inst.opened patch).patch? (inst.openPatch patch diagnostics).2.2 = some patch := by
  rw [patch?, opened, Engine.slots_rebuildChain]
  exact inst.engine.slots.patch?_insert patch

/-- What is told of a patch that is opened, before anything fires. -/
def opening (inst : Instance) (patch : Patch) (diagnostics : List String) : List Effect :=
  diagnostics.map (Effect.post .error) ++ (inst.engine.insert patch).1.rebuildChain.2

theorem openPatch_calls (inst : Instance) (patch : Patch) (diagnostics : List String) :
    (inst.openPatch patch diagnostics).2.1 =
      inst.hooks.run inst.id (inst.opening patch diagnostics) ++
        inst.hooks.run inst.id
          ((inst.opened patch).engine.loadbang (inst.openPatch patch diagnostics).2.2).2 :=
  List.flatMap_append

/-- The `loadbang` objects of an opened patch, with all that they lead to. -/
theorem loadbang_completes (h : inst.engine.Reachable) (patch : Patch)
    (diagnostics : List String) :
    (inst.opened patch).Completes
      [.bang ((inst.opened patch).engine.loadbangs (inst.openPatch patch diagnostics).2.2)]
      ((inst.openPatch patch diagnostics).1, inst.hooks.run inst.id
        ((inst.opened patch).engine.loadbang (inst.openPatch patch diagnostics).2.2).2) := by
  have hopened : (inst.opened patch).engine.Reachable := h.openPatch patch
  let id := (inst.openPatch patch diagnostics).2.2
  refine completes_of_reaches hopened.settled (Engine.loadbang_reaches hopened.settled id)
    (hopened.loadbang id).settled ?_ rfl rfl
  intro task htask
  rw [List.mem_singleton.mp htask]
  rfl

/-- What is told of an opened patch comes first, then all that its `loadbang` objects lead to. -/
theorem openPatch_completes (h : inst.engine.Reachable) (patch : Patch)
    (diagnostics : List String) :
    ∃ told fired, (inst.openPatch patch diagnostics).2.1 = told ++ fired ∧
      (inst.opened patch).Completes
        [.bang ((inst.opened patch).engine.loadbangs (inst.openPatch patch diagnostics).2.2)]
        ((inst.openPatch patch diagnostics).1, fired) :=
  ⟨_, _, inst.openPatch_calls patch diagnostics, loadbang_completes h patch diagnostics⟩

end Instance

/-- In every session each operation of a live instance that sends messages comes to an end,
step by step and without nesting too deep, whatever circles its patches make. After every
action the stacks of all live instances are empty, and nothing is nested. -/
theorem Rack.Reachable.operations_complete {rack : Rack} (h : rack.Reachable) {position : Nat}
    {inst : Instance} (hinst : rack.instance? position = some inst) :
    (∀ tie message, inst.Completes [.send tie message] (inst.send tie message)) ∧
      (∀ event, inst.Completes [.midi event] (inst.midi event)) ∧
      (∀ environment name directory id,
        (inst.load environment name directory).result = .ok id →
          ∃ patch told fired logged,
            (inst.load environment name directory).calls = told ++ fired ++ logged ∧
            (inst.opened patch).patch? id = some patch ∧
            (inst.opened patch).Completes [.bang ((inst.opened patch).engine.loadbangs id)]
              ((inst.load environment name directory).state.2, fired)) ∧
      (∀ pending size inputs outputs blocks,
        (inst.perform pending size inputs outputs).result = .ok blocks →
          inst.Completes (pending.map Command.task ++ [.bang inst.engine.chain.ticks])
            ((inst.perform pending size inputs outputs).state,
              (inst.perform pending size inputs outputs).calls)) ∧
      ∀ action done, rack.act action = some done →
        ∀ other after, done.state.instance? other = some after →
          after.engine.stack = #[] ∧ after.engine.depth = 0 := by
  have hreachable := h.engine hinst
  refine ⟨?_, ?_, ?_, ?_, ?_⟩
  · intro tie message
    exact Instance.carryOut_completes hreachable (.send tie message)
  · intro event
    exact Instance.carryOut_completes hreachable (.midi event)
  · intro environment name directory id hload
    obtain ⟨path, patch, diagnostics, logged, -, -, rfl, hstate, hcalls⟩ :=
      Instance.exists_read_of_load hload
    obtain ⟨told, fired, htold, hcompletes⟩ :=
      Instance.openPatch_completes hreachable patch diagnostics
    refine ⟨patch, told, fired, _, by rw [hcalls, htold],
      inst.opened_patch? patch diagnostics, ?_⟩
    rw [hstate]
    exact hcompletes
  · intro pending size inputs outputs blocks hperform
    exact Instance.perform_completes hreachable hperform
  · intro action done hdone other after hafter
    have hsettled := ((h.act hdone).engine hafter).settled
    exact ⟨hsettled.stack_eq, hsettled.depth_eq⟩

/-- A session with a patch whose `s` object is sent elsewhere just before the message that
it has to pass on, so that the message runs in a circle. -/
def closingLoop : List HostAction :=
  [.create none,
    .setFiles
      { entries := [(["loop.pd"], .file (.text
          ("#N canvas 0 0 9 9 10;\n#X obj 0 0 r a;\n#X msg 0 0 symbol a;\n#X obj 0 0 s b;\n" ++
            "#X connect 0 0 1 0;\n#X connect 1 0 2 1;\n#X connect 0 0 2 0;\n")))] },
    .request 0 (.load "/loop.pd" ""),
    .request 0 (.prepare {})]

/-- The circle is closed after nine steps, and the message still comes to an end. -/
theorem operations_complete_closingLoop :
    ∃ rack : Rack, ∃ inst, rack.Reachable ∧ rack.instance? 0 = some inst ∧
      inst.engine.listeners.listening ⟨"a"⟩ = [{ slot := 0, object := 0 }] ∧
      inst.engine.slots.node? { slot := 0, object := 2 } = some (.send ⟨"b"⟩) ∧
      ((Work.step inst.engine.listeners)^[9]
          ⟨inst.engine.start, [.send ⟨"a"⟩ .bang]⟩).dispatch.slots.node?
        { slot := 0, object := 2 } = some (.send ⟨"a"⟩) ∧
      inst.Completes [.send ⟨"a"⟩ .bang] (inst.send ⟨"a"⟩ .bang) := by
  have hsession : (({} : Rack).session closingLoop).any (fun rack =>
      (rack.instance? 0).any fun inst => decide
        (inst.engine.listeners.listening ⟨"a"⟩ = [{ slot := 0, object := 0 }] ∧
          inst.engine.slots.node? { slot := 0, object := 2 } = some (.send ⟨"b"⟩) ∧
          ((Work.step inst.engine.listeners)^[9]
              ⟨inst.engine.start, [.send ⟨"a"⟩ .bang]⟩).dispatch.slots.node?
            { slot := 0, object := 2 } = some (.send ⟨"a"⟩))) = true := by
    rw [Rack.session_of_load closingLoop 2 ["loop.pd"] rfl rfl rfl (append_eq_ofList rfl rfl)
      (by decide), readPatch, readRecords_ofList]
    decide +kernel
  obtain ⟨rack, inst, hrack, hinst, hlistening, hbefore, hafter⟩ :=
    Rack.exists_of_session hsession
  exact ⟨rack, inst, hrack, hinst, hlistening, hbefore, hafter,
    (hrack.operations_complete hinst).1 ⟨"a"⟩ .bang⟩

end Patchbay
