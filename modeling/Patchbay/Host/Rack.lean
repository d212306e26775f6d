import Patchbay.Host.Instance

/-!
# Racks

A rack holds everything a process has: the shared environment, the instances with
the number of handles the host keeps on each, the selection, the command queues
and the console histories. An instance lives as long as a handle or the selection
refers to it.

## Implementation notes

Instances, queues and histories are addressed by their position. The place of an
instance that is gone stays empty, so a position never stands for two instances.
-/

namespace Patchbay

/-- An instance with the number of handles the host keeps on it. -/
structure SharedInstance where
  inst : Instance
  handles : Nat := 1

/-- The state of a process. -/
structure Rack where
  environment : Environment := {}
  instances : List (Option SharedInstance) := []
  /-- The position of the selected instance. -/
  current : Option Nat := none
  queues : List CommandQueue := []
  histories : List History := []

namespace Rack

/-- A live instance with its handles. -/
def shared? (rack : Rack) (position : Nat) : Option SharedInstance :=
  (rack.instances[position]?).join

/-- A live instance. -/
def instance? (rack : Rack) (position : Nat) : Option Instance :=
  (rack.shared? position).map SharedInstance.inst

/-- Replace what stands at a position. -/
def setShared (rack : Rack) (position : Nat) (shared : Option SharedInstance) : Rack :=
  { rack with instances := rack.instances.set position shared }

/-- Replace a live instance, keeping its handles. -/
def setInstance (rack : Rack) (position : Nat) (inst : Instance) : Rack :=
  { rack with
    instances := rack.instances.modify position
      (Option.map fun shared => { shared with inst }) }

/-- Enter what calls record into the histories. -/
def record (rack : Rack) (calls : List Call) : Rack :=
  { rack with
    histories := calls.foldl
      (fun histories call =>
        match call with
        | .record index post => histories.modify index fun history => history.add post
        | _ => histories) rack.histories }

/-! ## Instances -/

/-- Make an instance, with one handle on it. -/
def create (rack : Rack) (extension : Option Int) : Rack × Nat × List Call :=
  let environment := rack.environment
  let id := environment.nextInstance
  ({ rack with
      environment := { environment with nextInstance := id + 1 }
      instances := rack.instances ++ [some { inst := { id, extension } }] },
    rack.instances.length,
    [.log .debug ("zpd " ++ version.text ++ " environment initialized"),
      .log .debug s!"Instance {id}: created"])

/-- Run an operation on an instance and the environment, `none` if there is no
such instance. -/
def run {α : Type} (rack : Rack) (position : Nat)
    (operation : Environment → Instance → Outcome (Environment × Instance) α) :
    Option (Outcome Rack α) :=
  (rack.instance? position).map fun inst =>
    let done := operation rack.environment inst
    let (environment, inst) := done.state
    { state := ({ rack with environment }.setInstance position inst).record done.calls
      calls := done.calls
      result := done.result }

/-- Run an operation on an instance alone. -/
def runAlone {α : Type} (rack : Rack) (position : Nat)
    (operation : Instance → Outcome Instance α) : Option (Outcome Rack α) :=
  rack.run position fun environment inst =>
    let done := operation inst
    { state := (environment, done.state), calls := done.calls, result := done.result }

/-- Change an instance in a way that cannot fail. -/
def change (rack : Rack) (position : Nat) (operation : Instance → Instance × List Call) :
    Option (Outcome Rack Unit) :=
  rack.runAlone position fun inst =>
    let (inst, calls) := operation inst
    { state := inst, calls, result := .ok () }

/-! ## Selection and handles -/

/-- Let go of the queue an instance took from. -/
def abandonQueue (rack : Rack) (queue : Option Nat) : Rack :=
  match queue with
  | some index => { rack with queues := rack.queues.modify index CommandQueue.abandon }
  | none => rack

/-- Drop an instance that neither a handle nor the selection refers to. -/
def dropUnused (rack : Rack) (position : Nat) : Rack × List Call :=
  match rack.shared? position with
  | some shared =>
    if shared.handles = 0 ∧ rack.current ≠ some position then
      ((rack.setShared position none).abandonQueue shared.inst.queue,
        [shared.inst.logLine .debug "dropped"])
    else (rack, [])
  | none => (rack, [])

/-- Change the selection; the instance selected before may be dropped. -/
def setCurrent (rack : Rack) (selection : Option Nat) : Rack × List Call :=
  match rack.current with
  | some old => { rack with current := selection }.dropUnused old
  | none => ({ rack with current := selection }, [])

/-- Do something with the selected instance, `none` if no instance is selected. -/
def withCurrent {α : Type} (rack : Rack) (operation : Rack → Nat → α) : Option α :=
  rack.current.map (operation rack)

/-- Select an instance and do something with it. -/
def withSelected {α : Type} (rack : Rack) (position : Nat) (operation : Rack → Nat → α) :
    α × List Call :=
  let (rack, calls) := rack.setCurrent (some position)
  (operation rack position, calls)

/-- Keep one more handle on an instance. -/
def hold (rack : Rack) (position : Nat) : Rack :=
  { rack with
    instances := rack.instances.modify position
      (Option.map fun shared => { shared with handles := shared.handles + 1 }) }

/-- Give up some handles on an instance. -/
def letGo (rack : Rack) (position count : Nat) : Rack × List Call :=
  { rack with
    instances := rack.instances.modify position
      (Option.map fun shared => { shared with handles := shared.handles - count }) }.dropUnused
    position

/-- Free an instance by way of one handle on it. It must not be selected, and the
handle has to be the only one; otherwise nothing changes. -/
def free (rack : Rack) (position : Nat) : Option (Outcome Rack Unit) :=
  (rack.shared? position).map fun shared =>
    if rack.current = some position then
      { state := rack
        calls := [.log .error "free: instance is still selected as current"]
        result := .error .instanceSelected }
    else if shared.handles = 1 then
      let (rack, calls) := rack.letGo position 1
      let id := shared.inst.id
      { state := rack
        calls := .log .debug s!"free: instance {id} released" :: calls
        result := .ok () }
    else
      { state := rack
        calls := [.log .error "free: instance is still in use"]
        result := .error .instanceBusy }

/-- Free an instance, or at least give up the handle it was asked with. -/
def tryFree (rack : Rack) (position : Nat) : Option (Outcome Rack Unit) :=
  (rack.free position).map fun done =>
    match done.result with
    | .ok () => done
    | .error failure =>
      let (rack, calls) := done.state.letGo position 1
      { state := rack, calls := done.calls ++ calls, result := .error failure }

/-! ## Queues -/

/-- Open a queue into an instance in place of the one it had. -/
def openQueue (rack : Rack) (position capacity : Nat) : Option (Rack × Nat) :=
  (rack.instance? position).map fun inst =>
    let rack := rack.abandonQueue inst.queue
    let index := rack.queues.length
    ({ rack with queues := rack.queues ++ [CommandQueue.ofCapacity capacity] }.setInstance position
        { inst with queue := some index },
      index)

/-- Put a command into a queue. -/
def enqueue (rack : Rack) (queue : Nat) (command : Command) : Outcome Rack Unit :=
  match (rack.queues[queue]?).bind fun queue => queue.push? command with
  | some filled => { state := { rack with queues := rack.queues.set queue filled }, result := .ok () }
  | none => { state := rack, result := .error .queueFull }

/-- The commands waiting for an instance. -/
def pending (rack : Rack) (inst : Instance) : List Command :=
  match inst.queue.bind fun index => rack.queues[index]? with
  | some queue => queue.pending
  | none => []

/-- The rack after an instance has taken its pending commands. -/
def drain (rack : Rack) (inst : Instance) : Rack :=
  match inst.queue with
  | some index => { rack with queues := rack.queues.modify index CommandQueue.drained }
  | none => rack

/-- Run one block on an instance, which first takes its pending commands. -/
def perform (rack : Rack) (position size : Nat) (inputs outputs : List Block) :
    Option (Outcome Rack (List Block)) :=
  match rack.instance? position with
  | none => none
  | some inst =>
    (rack.runAlone position fun inst =>
        inst.perform (rack.pending inst) size inputs outputs).map fun done =>
      match done.result with
      | .ok _ => { done with state := done.state.drain inst }
      | .error _ => done

/-! ## Histories -/

/-- Start an empty history. -/
def openHistory (rack : Rack) : Rack × Nat :=
  ({ rack with histories := rack.histories ++ [{}] }, rack.histories.length)

/-- Forget the posts of a history. -/
def clearHistory (rack : Rack) (index : Nat) : Rack :=
  { rack with histories := rack.histories.modify index fun _ => {} }

end Rack

end Patchbay
