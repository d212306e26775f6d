import Mathlib.Data.List.Basic
import Mathlib.Logic.Function.Basic
import Patchbay.Proofs.Failing
import Patchbay.Proofs.Handles
import Patchbay.Proofs.Sending

/-!
# Bindings as stacks

The sinks that a host binds to the ties of an instance form one stack for each tie. What
remains on a stack is told from the binds and unbinds that have been asked of the instance,
whatever else it has been asked in between, and every message that is sent to a tie, from
wherever, calls the sinks that remain on its stack.

## Implementation notes

An instance keeps all its bindings in one list. `BindingTable` is the same as a table that
has a stack for each tie with a binding, and no entry for any other tie.
-/

namespace Patchbay

theorem filter_eraseP_self {α : Type*} (p : α → Bool) (items : List α) :
    (items.eraseP p).filter p = (items.filter p).tail := by
  induction items with
  | nil => rfl
  | cons item rest ih =>
    cases hitem : p item with
    | true => simp [hitem]
    | false => simp [hitem, ih]

theorem filter_eraseP_of_disjoint {α : Type*} {p q : α → Bool} (h : ∀ item, p item → q item = false)
    (items : List α) : (items.eraseP p).filter q = items.filter q := by
  induction items with
  | nil => rfl
  | cons item rest ih =>
    cases hitem : p item with
    | true => simp [hitem, h item hitem]
    | false => simp [List.filter_cons, hitem, ih]

/-! ## Stacks -/

namespace Hooks
variable (hooks : Hooks) (tie other : Tie) (sink : MessageSink)

theorem bound_bind :
    (hooks.bind tie sink).bound other =
      if tie = other then hooks.bound other ++ [sink] else hooks.bound other := by
  by_cases heq : tie = other
  · simp [bound, bind, heq]
  · simp [bound, bind, heq]

theorem bound_unbind :
    (hooks.unbind tie).1.bound other =
      if tie = other then (hooks.bound other).dropLast else hooks.bound other := by
  by_cases heq : tie = other
  · subst heq
    rw [if_pos rfl, bound, unbind, filter_eraseP_self, List.map_tail, bound,
      List.dropLast_reverse]
  · rw [if_neg heq, bound, unbind, filter_eraseP_of_disjoint, bound]
    intro binding hbinding
    rw [beq_iff_eq] at hbinding
    rw [hbinding, beq_eq_false_iff_ne]
    exact heq

theorem bound_eq_nil_iff :
    hooks.bound tie = [] ↔ ∀ binding ∈ hooks.bindings, binding.1 ≠ tie := by
  simp [bound]

theorem unbind_found : (hooks.unbind tie).2 = !(hooks.bound tie).isEmpty := by
  rw [Bool.eq_iff_iff]
  simp [unbind, bound]

/-- A tie without bindings has nothing to undo. -/
theorem unbind_of_bound_eq_nil (h : hooks.bound tie = []) : hooks.unbind tie = (hooks, false) := by
  rw [bound_eq_nil_iff] at h
  have hkept : hooks.bindings.eraseP (fun binding => binding.1 == tie) = hooks.bindings :=
    List.eraseP_of_forall_not fun binding hbinding => by simpa using h binding hbinding
  have hnone : hooks.bindings.any (fun binding => binding.1 == tie) = false :=
    List.any_eq_false.mpr fun binding hbinding => by simpa using h binding hbinding
  rw [unbind, hkept, hnone]

end Hooks

/-- Stacks of sinks by tie. A tie without bindings has no entry. -/
abbrev BindingTable : Type := Tie → Option (List MessageSink)

namespace BindingTable

/-- Put a sink on the stack of a tie, which may be new. -/
def bind (table : BindingTable) (tie : Tie) (sink : MessageSink) : BindingTable :=
  Function.update table tie (some ((table tie).getD [] ++ [sink]))

/-- Take the latest sink off the stack of a tie, and the entry away with the last one. -/
def unbind (table : BindingTable) (tie : Tie) : BindingTable × Bool :=
  match table tie with
  | some stack =>
    let rest := stack.dropLast
    (Function.update table tie (if rest.isEmpty then none else some rest), !stack.isEmpty)
  | none => (table, false)

/-- How many sinks are bound to a tie. -/
def bindingCount (table : BindingTable) (tie : Tie) : Nat := (table tie).elim 0 List.length

/-- The calls of the sinks on the stack of a tie, from the bottom up. -/
def deliver (table : BindingTable) (tie : Tie) (message : Message) : List Call :=
  ((table tie).getD []).flatMap fun sink => sink.receive tie message

end BindingTable

namespace Hooks
variable (hooks : Hooks) (tie : Tie)

/-- The bindings as a table. -/
def table : BindingTable := fun tie =>
  if (hooks.bound tie).isEmpty then none else some (hooks.bound tie)

theorem table_apply :
    hooks.table tie = if (hooks.bound tie).isEmpty then none else some (hooks.bound tie) :=
  rfl

theorem getD_table : (hooks.table tie).getD [] = hooks.bound tie := by
  rw [table_apply]
  split
  · rename_i hempty
    exact (List.isEmpty_iff.mp hempty).symm
  · rfl

theorem table_bind (sink : MessageSink) :
    (hooks.bind tie sink).table = hooks.table.bind tie sink := by
  funext other
  rw [BindingTable.bind, getD_table, table_apply, bound_bind]
  by_cases heq : tie = other
  · subst heq
    simp
  · rw [Function.update_of_ne (Ne.symm heq), if_neg heq, table_apply]

theorem table_unbind :
    ((hooks.unbind tie).1.table, (hooks.unbind tie).2) = hooks.table.unbind tie := by
  cases hbound : hooks.bound tie with
  | nil =>
    have hnone : hooks.table tie = none := by rw [table_apply, hbound]; rfl
    rw [unbind_of_bound_eq_nil hooks tie hbound, BindingTable.unbind, hnone]
  | cons first rest =>
    have hsome : hooks.table tie = some (first :: rest) := by rw [table_apply, hbound]; rfl
    have hrest : (hooks.unbind tie).1.table = Function.update hooks.table tie
        (if (first :: rest).dropLast.isEmpty then none else some (first :: rest).dropLast) := by
      funext other
      rw [table_apply, bound_unbind]
      by_cases heq : tie = other
      · subst heq
        rw [if_pos rfl, hbound, Function.update_self]
      · rw [if_neg heq, Function.update_of_ne (Ne.symm heq), table_apply]
    rw [BindingTable.unbind, hsome, unbind_found, hbound, hrest]

theorem bindingCount_table : hooks.table.bindingCount tie = hooks.bindingCount tie := by
  rw [BindingTable.bindingCount, bindingCount, table_apply]
  split
  · rename_i hempty
    rw [List.isEmpty_iff.mp hempty]
    rfl
  · rfl

theorem deliver_table (id : Nat) (message : Message) :
    hooks.table.deliver tie message = hooks.calls id (.message tie message) := by
  rw [BindingTable.deliver, getD_table]
  rfl

end Hooks

/-! ## Requests -/

/-- The hooks after a request. -/
def Request.rehook (hooks : Hooks) : Request → Hooks
  | .setConsole sink => { hooks with console := sink }
  | .setMidi sink => { hooks with midi := sink }
  | .bind tie sink => hooks.bind tie sink
  | .unbind tie => (hooks.unbind tie).1
  | _ => hooks

/-- The stack of a tie after a request: a bind puts its sink on top, and an unbind undoes the
latest bind that remains. -/
def Request.restack (tie : Tie) (sinks : List MessageSink) : Request → List MessageSink
  | .bind target sink => if target = tie then sinks ++ [sink] else sinks
  | .unbind target => if target = tie then sinks.dropLast else sinks
  | _ => sinks

/-- The table of stacks after a request. -/
def Request.retable (table : BindingTable) : Request → BindingTable
  | .bind tie sink => table.bind tie sink
  | .unbind tie => (table.unbind tie).1
  | _ => table

/-- The sinks whose binds to a tie remain after some requests, in the order of the binds. -/
def remaining (tie : Tie) (requests : List Request) : List MessageSink :=
  requests.foldl (Request.restack tie) []

/-- The table of stacks after some requests. -/
def tableAfter (requests : List Request) : BindingTable :=
  requests.foldl Request.retable fun _ => none

/-- The requests that turns have made of the instance at a position. -/
def requestsMade (position : Nat) (turns : List Turn) : List Request :=
  turns.filterMap (Turn.requestAt position)

theorem Request.bound_rehook (hooks : Hooks) (tie : Tie) (request : Request) :
    (request.rehook hooks).bound tie = request.restack tie (hooks.bound tie) := by
  cases request with
  | bind target sink => exact hooks.bound_bind target tie sink
  | unbind target => exact hooks.bound_unbind target tie
  | _ => rfl

theorem Request.table_rehook (hooks : Hooks) (request : Request) :
    (request.rehook hooks).table = request.retable hooks.table := by
  cases request with
  | bind target sink => exact hooks.table_bind target sink
  | unbind target => exact congrArg Prod.fst (hooks.table_unbind target)
  | _ => rfl

theorem bound_foldl_rehook (tie : Tie) (requests : List Request) (hooks : Hooks) :
    (requests.foldl Request.rehook hooks).bound tie =
      requests.foldl (Request.restack tie) (hooks.bound tie) := by
  induction requests generalizing hooks with
  | nil => rfl
  | cons request rest ih => rw [List.foldl_cons, ih, Request.bound_rehook, List.foldl_cons]

theorem table_foldl_rehook (requests : List Request) (hooks : Hooks) :
    (requests.foldl Request.rehook hooks).table = requests.foldl Request.retable hooks.table := by
  induction requests generalizing hooks with
  | nil => rfl
  | cons request rest ih => rw [List.foldl_cons, ih, Request.table_rehook, List.foldl_cons]

namespace Instance
variable {inst : Instance}

/-- Only requests that are about hooks change them. -/
theorem hooks_serve (environment : Environment) (inst : Instance) (request : Request) :
    (inst.serve environment request).state.2.hooks = request.rehook inst.hooks := by
  cases request with
  | load name directory =>
    simp only [serve, Outcome.view, load]
    split
    · rfl
    · split <;> rfl
  | close id =>
    simp only [serve, Outcome.within, Outcome.view, close]
    split <;> rfl
  | prepare format =>
    simp only [serve, Outcome.within, Outcome.view, prepare]
    split <;> rfl
  | _ => rfl

theorem hooks_perform (inst : Instance) (pending : List Command) (size : Nat)
    (inputs outputs : List Block) :
    (inst.perform pending size inputs outputs).state.hooks = inst.hooks := by
  cases hcheck : inst.checkBlock size inputs outputs with
  | error failure => rw [perform_eq_of_error hcheck]
  | ok =>
    obtain ⟨slots, stack, depth, hcarried⟩ := exists_carryOutAll_eq pending inst
    have hkept : (inst.carryOutAll pending).1.hooks = inst.hooks := by rw [hcarried]
    rw [perform_eq_of_ok hcheck]
    exact hkept

end Instance

section Turns
variable {position : Nat} {turns : List Turn} {rack : Rack} {inst : Instance}

theorem requestsMade_snoc (turn : Turn) :
    requestsMade position (turns ++ [turn]) =
      requestsMade position turns ++ (turn.requestAt position).toList :=
  filterMap_snoc _ turns turn

/-- The hooks of a live instance are those that its requests have left. -/
theorem Rack.Chronicle.hooks_eq (h : Rack.Chronicle turns rack)
    (hinst : rack.instance? position = some inst) :
    inst.hooks = (requestsMade position turns).foldl Request.rehook {} := by
  induction h generalizing inst with
  | start => cases hinst
  | @next turns rack action done hpast hdone ih =>
    rw [requestsMade_snoc]
    cases Rack.comes_of_act hdone hinst with
    | created hposition =>
      have hnone : requestsMade position turns = [] :=
        List.filterMap_eq_nil_iff.mpr fun turn hturn => requestAt_eq_none
          (hpast.not_addressed (Nat.le_of_eq hposition.symm) turn hturn)
      rw [hnone]
      rfl
    | @served request old _ hold _ =>
      have hrequest : Turn.requestAt position
          { before := rack, action := .request position request, done } = some request :=
        if_pos rfl
      rw [hrequest, Option.toList_some, List.foldl_append, ← ih hold]
      exact Instance.hooks_serve rack.environment old request
    | @performed _ _ _ old _ hold _ =>
      rw [Instance.hooks_perform, ih hold]
      exact congrArg (List.foldl Request.rehook {}) (List.append_nil _).symm
    | @opened _ old _ hold =>
      exact (ih hold).trans (congrArg (List.foldl Request.rehook {}) (List.append_nil _).symm)
    | kept hold haction =>
      have hnone : Turn.requestAt position { before := rack, action, done } = none :=
        requestAt_eq_none haction
      rw [hnone, Option.toList_none, List.append_nil]
      exact ih hold

end Turns

/-! ## Calls that no message sink gets -/

theorem Call.isMessage_of_isLog {call : Call} (h : call.isLog) : call.isMessage = false := by
  cases call <;> first | rfl | cases h

/-- Effects that bring the host no message call no message sink. -/
theorem Hooks.isMessage_of_mem_run {hooks : Hooks} {id : Nat} {effects : List Effect}
    (h : ∀ effect ∈ effects, effect.sent? = none) :
    ∀ call ∈ hooks.run id effects, call.isMessage = false := by
  have hnone : (hooks.run id effects).filter Call.isMessage = [] := by
    rw [filter_isMessage_run, List.filterMap_eq_nil_iff.mpr h]
    rfl
  intro call hcall
  exact Bool.eq_false_iff.mpr (List.filter_eq_nil_iff.mp hnone call hcall)

/-- Building a chain brings the host no message. -/
theorem Engine.sent?_of_mem_rebuildChain {engine : Engine} {effect : Effect}
    (h : effect ∈ engine.rebuildChain.2) : effect.sent? = none := by
  unfold rebuildChain at h
  split at h
  · rcases List.mem_append.mp h with hpost | hlog
    · split at hpost
      · rw [List.mem_singleton.mp hpost]
        rfl
      · cases hpost
    · rw [List.mem_singleton.mp hlog]
      rfl
  · cases h

/-- Bringing the chain up to date calls no message sink, nor does a line of the log after it. -/
theorem Hooks.isMessage_of_mem_rebuilt {hooks : Hooks} {id : Nat} {engine : Engine} {line : Call}
    (hline : line.isLog) :
    ∀ call ∈ hooks.run id engine.rebuildChain.2 ++ [line], call.isMessage = false := by
  intro call hcall
  rcases List.mem_append.mp hcall with hchain | hlogged
  · exact isMessage_of_mem_run (fun _ heffect => Engine.sent?_of_mem_rebuildChain heffect) call
      hchain
  · rw [List.mem_singleton.mp hlogged]
    exact Call.isMessage_of_isLog hline

/-- What is told when a patch is opened, before anything fires, is no message. -/
theorem Engine.sent?_of_mem_told {engine : Engine} {diagnostics : List String} {effect : Effect}
    (h : effect ∈ diagnostics.map (Effect.post .error) ++ engine.rebuildChain.2) :
    effect.sent? = none := by
  rcases List.mem_append.mp h with hpost | hchain
  · obtain ⟨text, -, rfl⟩ := List.mem_map.mp hpost
    rfl
  · exact sent?_of_mem_rebuildChain hchain

/-! ## What becomes of sends -/

/-- Work on some tasks: it is done to the end and delivers its sends to the sinks, and of all
calls that are made only its own are calls of message sinks. -/
def Instance.Performs (start : Instance) (tasks : List Task) (sinks : Tie → List MessageSink)
    (after : Instance) (calls : List Call) : Prop :=
  ∃ earlier own later, calls = earlier ++ own ++ later ∧
    (∀ call ∈ earlier ++ later, call.isMessage = false) ∧
    start.Completes tasks (after, own) ∧ start.Delivers tasks own sinks

/-- What an action sets the objects of an instance to work on: the instance as the work
begins, and the tasks. -/
inductive Rack.Starts (rack : Rack) (position : Nat) (inst : Instance) :
    HostAction → Except Failure Reply → Instance → List Task → Prop
  | send {tie : Tie} {message : Message} {result : Except Failure Reply} :
      Starts rack position inst (.request position (.send tie message)) result inst
        [.send tie message]
  | midi {event : MidiEvent} {result : Except Failure Reply} :
      Starts rack position inst (.request position (.midi event)) result inst [.midi event]
  | load {name directory : String} {id : PatchId} {patch : Patch}
      (hread : rack.environment.patchNamed? name directory = some patch) :
      Starts rack position inst (.request position (.load name directory)) (.ok (.handle id))
        (inst.opened patch) [.bang ((inst.opened patch).engine.loadbangs id)]
  | perform {size : Nat} {inputs outputs blocks : List Block} :
      Starts rack position inst (.perform position size inputs outputs) (.ok (.outputs blocks))
        inst ((rack.pending inst).map Command.task ++ [.bang inst.engine.chain.ticks])

theorem Instance.performs_of_completes {start : Instance} (h : start.engine.Settled)
    {tasks : List Task} {after : Instance} {calls : List Call}
    (hleave : ∀ task ∈ tasks, task.isLeave = false)
    (hunder : ∀ task ∈ tasks, task.under? = none) (hdone : start.Completes tasks (after, calls)) :
    start.Performs tasks start.hooks.bound after calls :=
  ⟨[], calls, [], (List.append_nil _).symm, nofun, hdone,
    delivers_of_completes h hleave hunder hdone⟩

theorem exists_ok_of_map_eq_ok {α β : Type} {result : Except Failure α} {view : α → β} {value : β}
    (h : result.map view = .ok value) : ∃ given, result = .ok given ∧ view given = value := by
  cases result with
  | error failure => cases h
  | ok given => exact ⟨given, rfl, Except.ok.inj h⟩

theorem Command.under?_task (command : Command) : command.task.under? = none := by
  cases command <;> rfl

/-- What holds of commands and of firing holds of all that a block sets to work. -/
theorem forall_mem_blockTasks {property : Task → Prop}
    (hcommand : ∀ command : Command, property command.task)
    (hbang : ∀ places, property (.bang places)) (commands : List Command) (places : List NodeRef) :
    ∀ task ∈ commands.map Command.task ++ [Task.bang places], property task := by
  intro task htask
  rcases List.mem_append.mp htask with hpending | hfires
  · obtain ⟨command, -, rfl⟩ := List.mem_map.mp hpending
    exact hcommand command
  · rw [List.mem_singleton.mp hfires]
    exact hbang places

/-- A load fires the `loadbang` objects of the patch that it has read. -/
theorem Instance.load_performs {inst : Instance} (h : inst.engine.Reachable)
    {environment : Environment} {name directory : String} {id : PatchId} {patch : Patch}
    (hload : (inst.load environment name directory).result = .ok id)
    (hread : environment.patchNamed? name directory = some patch) :
    (inst.opened patch).Performs [.bang ((inst.opened patch).engine.loadbangs id)]
      inst.hooks.bound (inst.load environment name directory).state.2
      (inst.load environment name directory).calls := by
  obtain ⟨path, found, diagnostics, logged, hpath, hfound, rfl, hstate, hcalls⟩ :=
    exists_read_of_load hload
  obtain rfl : patch = found := by
    rw [Environment.patchNamed?_eq hpath hfound] at hread
    exact (Option.some.inj hread).symm
  have hopened : (inst.opened patch).engine.Reachable := h.openPatch patch
  have hcompletes := loadbang_completes h patch diagnostics
  refine ⟨inst.hooks.run inst.id (inst.opening patch diagnostics),
    inst.hooks.run inst.id
      ((inst.opened patch).engine.loadbang (inst.openPatch patch diagnostics).2.2).2,
    [inst.logLine .info logged], ?_, ?_, ?_, ?_⟩
  · exact hcalls.trans (by rw [inst.openPatch_calls patch diagnostics])
  · intro call hcall
    rcases List.mem_append.mp hcall with htold | hlogged
    · exact Hooks.isMessage_of_mem_run
        (fun effect heffect => Engine.sent?_of_mem_told heffect) call htold
    · rw [List.mem_singleton.mp hlogged]
      rfl
  · rw [hstate]
    exact hcompletes
  · exact delivers_of_completes hopened.settled (by simp [Task.isLeave]) (by simp [Task.under?])
      hcompletes

namespace Rack
variable {rack after : Rack} {position : Nat} {inst : Instance}

/-- A request is served by the instance that it is made of. -/
theorem served_of_act {request : Request} {done : Outcome Rack Reply}
    (h : rack.act (.request position request) = some done)
    (hinst : rack.instance? position = some inst) :
    done.calls = (inst.serve rack.environment request).calls ∧
      done.result = (inst.serve rack.environment request).result ∧
      done.state.instance? position = some (inst.serve rack.environment request).state.2 := by
  obtain ⟨same, hsame, rfl⟩ := Option.map_eq_some_iff.mp h
  obtain rfl : inst = same := Option.some.inj (hinst.symm.trans hsame)
  exact ⟨rfl, rfl, instance?_of_live_set hinst (live_setInstance hinst _)⟩

/-- A block is run by the instance that it is run on. -/
theorem performed_of_act {size : Nat} {inputs outputs : List Block} {done : Outcome Rack Reply}
    (h : rack.act (.perform position size inputs outputs) = some done)
    (hinst : rack.instance? position = some inst) :
    done.calls = (inst.perform (rack.pending inst) size inputs outputs).calls ∧
      done.result = (inst.perform (rack.pending inst) size inputs outputs).result.map .outputs ∧
      done.state.instance? position =
        some (inst.perform (rack.pending inst) size inputs outputs).state := by
  obtain ⟨ran, hran, rfl⟩ := Option.map_eq_some_iff.mp h
  cases perform_changes hran with
  | performed hsame hlive hqueues hresult =>
    obtain rfl := Option.some.inj (hinst.symm.trans hsame)
    refine ⟨?_, hresult, instance?_of_live_set hinst hlive⟩
    rw [perform_eq hinst] at hran
    cases hran
    rfl
  | upkeep haction => cases haction

/-- The work that an action starts is done to the end, and delivers its sends to the sinks
that are bound. -/
theorem performs_of_starts (h : rack.Reachable) (hinst : rack.instance? position = some inst)
    {action : HostAction} {done : Outcome Rack Reply} {start : Instance} {tasks : List Task}
    (hact : rack.act action = some done)
    (hstarts : rack.Starts position inst action done.result start tasks) :
    ∃ after, done.state.instance? position = some after ∧
      start.Performs tasks inst.hooks.bound after done.calls := by
  have hreachable := h.engine hinst
  generalize hresult : done.result = result at hstarts
  cases hstarts with
  | @send tie message _ =>
    obtain ⟨hcalls, -, hafter⟩ := served_of_act hact hinst
    refine ⟨_, hafter, ?_⟩
    rw [hcalls]
    exact Instance.performs_of_completes hreachable.settled (by simp [Task.isLeave])
      (by simp [Task.under?]) (Instance.carryOut_completes hreachable (.send tie message))
  | @midi event _ =>
    obtain ⟨hcalls, -, hafter⟩ := served_of_act hact hinst
    refine ⟨_, hafter, ?_⟩
    rw [hcalls]
    exact Instance.performs_of_completes hreachable.settled (by simp [Task.isLeave])
      (by simp [Task.under?]) (Instance.carryOut_completes hreachable (.midi event))
  | @load name directory id patch hread =>
    obtain ⟨hcalls, hserved, hafter⟩ := served_of_act hact hinst
    have hload : (inst.load rack.environment name directory).result = .ok id := by
      obtain ⟨given, hgiven, hview⟩ := exists_ok_of_map_eq_ok (hserved.symm.trans hresult)
      cases hview
      exact hgiven
    refine ⟨_, hafter, ?_⟩
    rw [hcalls]
    exact Instance.load_performs hreachable hload hread
  | @perform size inputs outputs blocks =>
    obtain ⟨hcalls, hran, hafter⟩ := performed_of_act hact hinst
    have hblocks : (inst.perform (rack.pending inst) size inputs outputs).result =
        .ok blocks := by
      obtain ⟨given, hgiven, hview⟩ := exists_ok_of_map_eq_ok (hran.symm.trans hresult)
      cases hview
      exact hgiven
    refine ⟨_, hafter, ?_⟩
    rw [hcalls]
    exact Instance.performs_of_completes hreachable.settled
      (forall_mem_blockTasks Instance.isLeave_task (fun _ => rfl) _ _)
      (forall_mem_blockTasks Command.under?_task (fun _ => rfl) _ _)
      (Instance.perform_completes hreachable hblocks)

/-! ### Everything else -/

theorem isMessage_of_mem_dropUnused {call : Call} (h : call ∈ (rack.dropUnused position).2) :
    call.isMessage = false := by
  unfold dropUnused at h
  split at h
  · split at h
    · rw [List.mem_singleton.mp h]
      rfl
    · cases h
  · cases h

theorem isMessage_of_mem_setCurrent {selection : Option Nat} {call : Call}
    (h : call ∈ (rack.setCurrent selection).2) : call.isMessage = false := by
  unfold setCurrent at h
  split at h
  · exact isMessage_of_mem_dropUnused h
  · cases h

theorem isMessage_of_mem_free {done : Outcome Rack Unit} (h : rack.free position = some done)
    {call : Call} (hcall : call ∈ done.calls) : call.isMessage = false := by
  obtain ⟨shared, -, rfl⟩ := Option.map_eq_some_iff.mp h
  split at hcall
  · rw [List.mem_singleton.mp hcall]
    rfl
  · split at hcall
    · rcases List.mem_cons.mp hcall with rfl | hdropped
      · rfl
      · exact isMessage_of_mem_dropUnused hdropped
    · rw [List.mem_singleton.mp hcall]
      rfl

theorem isMessage_of_mem_tryFree {done : Outcome Rack Unit}
    (h : rack.tryFree position = some done) {call : Call} (hcall : call ∈ done.calls) :
    call.isMessage = false := by
  obtain ⟨freed, hfreed, rfl⟩ := Option.map_eq_some_iff.mp h
  split at hcall
  · exact isMessage_of_mem_free hfreed hcall
  · rcases List.mem_append.mp hcall with hfree | hdropped
    · exact isMessage_of_mem_free hfreed hfree
    · exact isMessage_of_mem_dropUnused hdropped

end Rack

/-- A request that sends no messages makes no call of a message sink. -/
theorem Instance.serve_quiet (inst : Instance) (rack : Rack) (position : Nat)
    (request : Request) :
    (∃ start tasks, rack.Starts position inst (.request position request)
      (inst.serve rack.environment request).result start tasks) ∨
      ∀ call ∈ (inst.serve rack.environment request).calls, call.isMessage = false := by
  cases request with
  | send tie message => exact .inl ⟨_, _, .send⟩
  | midi event => exact .inl ⟨_, _, .midi⟩
  | post level text => exact .inr fun call hcall => Hooks.isMessage_of_mem_post hcall
  | load name directory =>
    simp only [serve, Outcome.view]
    cases hload : (inst.load rack.environment name directory).result with
    | ok id =>
      obtain ⟨path, patch, diagnostics, logged, hpath, hread, -, -, -⟩ := exists_read_of_load hload
      exact .inl ⟨_, _, .load (Environment.patchNamed?_eq hpath hread)⟩
    | error failure =>
      exact .inr fun call hcall => Call.isMessage_of_isLog ((load_of_error hload).2 call hcall)
  | close id =>
    right
    intro call hcall
    simp only [serve, Outcome.within, Outcome.view, close] at hcall
    split at hcall
    · cases hcall
    · exact Hooks.isMessage_of_mem_rebuilt rfl call hcall
  | prepare format =>
    right
    intro call hcall
    simp only [serve, Outcome.within, Outcome.view, prepare] at hcall
    split at hcall
    · rw [List.mem_singleton.mp hcall]
      rfl
    · simp only [settle, Engine.prepare] at hcall
      exact Hooks.isMessage_of_mem_rebuilt rfl call hcall
  | release =>
    right
    intro call hcall
    simp only [serve, Outcome.within, Outcome.ofChange, release] at hcall
    split at hcall
    · rw [List.mem_singleton.mp hcall]
      rfl
    · cases hcall
  | _ => exact .inr (List.forall_mem_nil _)

namespace Rack
variable {rack : Rack} {position : Nat} {inst : Instance}

/-- An action that is addressed to no instance makes no call of a message sink. -/
theorem quiet_of_unaddressed {action : HostAction} {done : Outcome Rack Reply}
    (hact : rack.act action = some done) (haction : action.position? = none) :
    ∀ call ∈ done.calls, call.isMessage = false := by
  cases action with
  | request | perform | openQueue => cases haction
  | create extension =>
    cases hact
    intro call hcall
    rcases List.mem_pair.mp hcall with rfl | rfl <;> rfl
  | enqueue queue command =>
    simp only [act, Option.ite_none_right_eq_some, Option.some.injEq] at hact
    obtain ⟨-, rfl⟩ := hact
    unfold enqueue
    cases (rack.queues[queue]?).bind fun queue => queue.push? command <;>
      exact List.forall_mem_nil _
  | select selection =>
    cases selection with
    | none =>
      cases hact
      exact fun call hcall => isMessage_of_mem_setCurrent hcall
    | some target =>
      simp only [act, Option.ite_none_right_eq_some, Option.some.injEq] at hact
      obtain ⟨-, rfl⟩ := hact
      exact fun call hcall => isMessage_of_mem_setCurrent hcall
  | hold target =>
    simp only [act, Option.ite_none_right_eq_some, Option.some.injEq] at hact
    obtain ⟨-, rfl⟩ := hact
    exact List.forall_mem_nil _
  | letGo target count =>
    simp only [act, Option.ite_none_right_eq_some, Option.some.injEq] at hact
    obtain ⟨-, rfl⟩ := hact
    exact fun call hcall => isMessage_of_mem_dropUnused hcall
  | free target =>
    simp only [act, Option.ite_none_right_eq_some] at hact
    obtain ⟨freed, hfreed, rfl⟩ := Option.map_eq_some_iff.mp hact.2
    exact fun call hcall => isMessage_of_mem_free hfreed hcall
  | tryFree target =>
    simp only [act, Option.ite_none_right_eq_some] at hact
    obtain ⟨freed, hfreed, rfl⟩ := Option.map_eq_some_iff.mp hact.2
    exact fun call hcall => isMessage_of_mem_tryFree hfreed hcall
  | openHistory | clearHistory | setFiles =>
    cases hact
    exact List.forall_mem_nil _
  | addSearchPath | clearSearchPath =>
    cases hact
    intro call hcall
    rw [List.mem_singleton.mp hcall]
    rfl

/-- An action that concerns no other instance either sets the objects of this one to work, or
makes no call of a message sink. -/
theorem starts_or_quiet (hinst : rack.instance? position = some inst) {action : HostAction}
    {done : Outcome Rack Reply} (hact : rack.act action = some done)
    (haction : ∀ target, action.position? = some target → target = position) :
    (∃ start tasks, rack.Starts position inst action done.result start tasks) ∨
      ∀ call ∈ done.calls, call.isMessage = false := by
  cases action with
  | request target request =>
    obtain rfl := haction target rfl
    obtain ⟨hcalls, hresult, -⟩ := served_of_act hact hinst
    rw [hcalls, hresult]
    exact inst.serve_quiet rack target request
  | perform target size inputs outputs =>
    obtain rfl := haction target rfl
    obtain ⟨hcalls, hresult, -⟩ := performed_of_act hact hinst
    rw [hcalls, hresult]
    cases hdone : (inst.perform (rack.pending inst) size inputs outputs).result with
    | ok blocks => exact .inl ⟨_, _, .perform⟩
    | error failure =>
      right
      rw [Instance.perform_eq_of_error (Instance.checkBlock_of_error hdone)]
      intro call hcall
      split at hcall
      · rw [List.mem_singleton.mp hcall]
        rfl
      · cases hcall
  | openQueue target capacity =>
    obtain ⟨opened, -, rfl⟩ := Option.map_eq_some_iff.mp hact
    exact .inr (List.forall_mem_nil _)
  | _ => exact .inr (quiet_of_unaddressed hact rfl)

/-! ### Stacks in sessions -/

/-- The bindings of an instance are stacks, one for each tie, which the requests made of it
have left. -/
structure Stacks (rack : Rack) (position : Nat) (inst : Instance) (requests : List Request) :
    Prop where
  bound_eq : ∀ tie, inst.hooks.bound tie = remaining tie requests
  bindingCount_eq : ∀ tie, inst.hooks.bindingCount tie = (remaining tie requests).length
  /-- A table that has a stack for each tie with a binding says the same. -/
  table_eq : inst.hooks.table = tableAfter requests
  /-- Undoing takes the latest sink off one stack and changes nothing else. It reports whether
  there was one. -/
  unbind_undoes : ∀ tie, ∃ hooks : Hooks,
    rack.act (.request position (.unbind tie)) =
        some ((rack.setInstance position { inst with hooks }).settled
          (.flag !(remaining tie requests).isEmpty)) ∧
      hooks.console = inst.hooks.console ∧ hooks.midi = inst.hooks.midi ∧
      ∀ other, hooks.bound other =
        if tie = other then (remaining other requests).dropLast else remaining other requests
  unbind_of_none : ∀ tie, remaining tie requests = [] →
    rack.act (.request position (.unbind tie)) = some (rack.settled (.flag false))
  /-- A message to nobody changes nothing and calls nothing. -/
  send_of_none : ∀ tie message, remaining tie requests = [] →
    DepthFirst.receivers inst.engine.slots tie = [] →
      rack.act (.request position (.send tie message)) = some rack.settled
  /-- Whatever sends messages delivers them to the sinks that remain. -/
  delivers : ∀ action done start tasks, rack.act action = some done →
    rack.Starts position inst action done.result start tasks →
      ∃ after, done.state.instance? position = some after ∧
        start.Performs tasks (fun tie => remaining tie requests) after done.calls
  /-- Nothing else calls a message sink on behalf of this instance. -/
  quiet : ∀ action done, rack.act action = some done →
    (∀ target, action.position? = some target → target = position) →
      (∃ start tasks, rack.Starts position inst action done.result start tasks) ∨
        ∀ call ∈ done.calls, call.isMessage = false

theorem act_unbind (hinst : rack.instance? position = some inst) (tie : Tie) :
    rack.act (.request position (.unbind tie)) =
      some ((rack.setInstance position { inst with hooks := (inst.hooks.unbind tie).1 }).settled
        (.flag (inst.hooks.unbind tie).2)) := by
  rw [act, run, hinst]
  rfl

/-- A message to a tie without receivers and sinks is lost. -/
theorem send_eq_self (h : inst.engine.Settled) {tie : Tie} (message : Message)
    (hbound : inst.hooks.bound tie = [])
    (hreceivers : DepthFirst.receivers inst.engine.slots tie = []) :
    inst.send tie message = (inst, []) := by
  have hlistening : inst.engine.listeners.listening tie = [] := by
    rw [h.listeners_eq, Listeners.listening_ofSlots]
    exact hreceivers
  have hsend : inst.engine.send tie message = (inst.engine, [.message tie message]) := by
    simp only [Engine.send, Engine.dispatch, Dispatch.send, Dispatch.sendTo, hlistening,
      List.foldl_nil]
    rfl
  simp only [Instance.send, Instance.settle, hsend, Hooks.run, List.flatMap_singleton,
    Hooks.calls, hbound, List.flatMap_nil]

/-- In every session the bindings of a live instance are independent stacks. -/
theorem Chronicle.bindings_stack {turns : List Turn} (h : Chronicle turns rack)
    (hinst : rack.instance? position = some inst) :
    rack.Stacks position inst (requestsMade position turns) := by
  have hhooks := h.hooks_eq hinst
  have hbound : ∀ tie, inst.hooks.bound tie = remaining tie (requestsMade position turns) := by
    intro tie
    rw [hhooks, bound_foldl_rehook]
    rfl
  have hsinks : inst.hooks.bound = fun tie => remaining tie (requestsMade position turns) :=
    funext hbound
  exact
    { bound_eq := hbound
      bindingCount_eq := fun tie => congrArg List.length (hbound tie)
      table_eq := by
        rw [hhooks, table_foldl_rehook]
        rfl
      unbind_undoes := by
        intro tie
        refine ⟨(inst.hooks.unbind tie).1, ?_, rfl, rfl, ?_⟩
        · rw [act_unbind hinst, Hooks.unbind_found, hbound]
        · intro other
          rw [Hooks.bound_unbind, hbound]
      unbind_of_none := by
        intro tie hnone
        rw [← hbound] at hnone
        rw [act_unbind hinst, Hooks.unbind_of_bound_eq_nil inst.hooks tie hnone,
          setInstance_self hinst]
      send_of_none := by
        intro tie message hnone hreceivers
        rw [← hbound] at hnone
        have hsame := send_eq_self (h.reachable.engine hinst).settled message hnone hreceivers
        rw [act, run, hinst, Option.map_some]
        simp only [Instance.serve, Outcome.ofChange, Outcome.within, hsame]
        rw [show ({ rack with environment := rack.environment } : Rack).setInstance position inst =
          rack from setInstance_self hinst]
        rfl
      delivers := by
        intro action done start tasks hact hstarts
        rw [← hsinks]
        exact performs_of_starts h.reachable hinst hact hstarts
      quiet := fun _ _ hact haction => starts_or_quiet hinst hact haction }

/-- A session that binds a sink twice to the tie that a patch passes its messages on to, and
undoes a third bind. -/
def boundTwice : List HostAction :=
  [.create none,
    .setFiles
      { entries := [(["through.pd"], .file (.text
          ("#N canvas 0 0 9 9 10;\n#X obj 0 0 r a;\n#X obj 0 0 s b;\n" ++
            "#X connect 0 0 1 0;\n")))] },
    .request 0 (.load "/through.pd" ""),
    .request 0 (.bind ⟨"b"⟩ (.raw "inner")),
    .request 0 (.bind ⟨"a"⟩ (.raw "outer")),
    .request 0 (.bind ⟨"b"⟩ (.raw "inner")),
    .request 0 (.bind ⟨"b"⟩ (.raw "undone")),
    .request 0 (.unbind ⟨"b"⟩),
    .request 0 (.send ⟨"a"⟩ .bang)]

/-- The sink that is bound twice is called twice, before the sink of the tie that the message
was sent to. -/
theorem bindings_stack_boundTwice :
    ∃ turns, ∃ rack : Rack, ∃ inst, Chronicle turns rack ∧ rack.instance? 0 = some inst ∧
      remaining ⟨"a"⟩ (requestsMade 0 turns) = [.raw "outer"] ∧
      remaining ⟨"b"⟩ (requestsMade 0 turns) = [.raw "inner", .raw "inner"] ∧
      (turns.getLast?.map fun turn => turn.done.calls) =
        some [.message "inner" ⟨"b"⟩ .bang, .message "inner" ⟨"b"⟩ .bang,
          .message "outer" ⟨"a"⟩ .bang] ∧
      rack.Stacks 0 inst (requestsMade 0 turns) := by
  have hsession : (({} : Rack).session boundTwice).any (fun rack =>
      (rack.instance? 0).any fun _ => decide
        (remaining ⟨"a"⟩ (requestsMade 0 (({} : Rack).turns boundTwice)) = [.raw "outer"] ∧
          remaining ⟨"b"⟩ (requestsMade 0 (({} : Rack).turns boundTwice)) =
            [.raw "inner", .raw "inner"] ∧
          ((({} : Rack).turns boundTwice).getLast?.map fun turn => turn.done.calls) =
            some [.message "inner" ⟨"b"⟩ .bang, .message "inner" ⟨"b"⟩ .bang,
              .message "outer" ⟨"a"⟩ .bang])) = true := by
    decide +kernel
  obtain ⟨rack, hrack, hfound⟩ := (Option.any_eq_true _ _).mp hsession
  obtain ⟨inst, hinst, hlists⟩ := (Option.any_eq_true _ _).mp hfound
  obtain ⟨houter, hinner, hcalls⟩ := of_decide_eq_true hlists
  have hchronicle := Chronicle.start.session hrack
  exact ⟨_, rack, inst, hchronicle, hinst, houter, hinner, hcalls,
    hchronicle.bindings_stack hinst⟩

end Rack

end Patchbay
