import Patchbay.Numbered.Named
import Patchbay.Proofs.Chronicle

/-!
# Processes

A process is a rack of numbers together with the tables that all its instances share. A host
names ties and symbols in what it asks for, and they are numbered when it asks. In between it may
number any names it likes. What it sees of all this can be told by names, and set against what
is seen of a rack of names, where nothing is numbered.

## Implementation notes

Whatever a host sees is kept together with the tables of its time: names are read when they are
seen, so later names cannot change what was read.
-/

/-! ## Questions and errands -/

namespace Patchbay

/-- What a host asks of an instance without changing it. -/
inductive Query where
  | bindingCount (tie : Tie)
  | patches
  | patch (id : PatchId)
  | tieFor (id : PatchId) (ending : String)
  /-- The instance's number, its data and how it is prepared. -/
  | standing

/-- What a host is told in return. -/
inductive Answer where
  | count (value : Nat)
  | patches (found : List (PatchId × Patch))
  | patch (found : Option Patch)
  | tie (found : Option Tie)
  | standing (id : Nat) (extension : Option Int) (format : Option AudioFormat) (sampleRate : Nat)

/-- What an instance answers. -/
def Instance.answer (inst : Instance) : Query → Answer
  | .bindingCount tie => .count (inst.hooks.bindingCount tie)
  | .patches => .patches inst.engine.slots.patches
  | .patch id => .patch (inst.patch? id)
  | .tieFor id ending => .tie ((inst.patch? id).map fun patch => patch.tieFor ending)
  | .standing => .standing inst.id inst.extension inst.engine.format inst.sampleRate

/-- One thing a host does with a process. -/
inductive Errand where
  /-- Number a name. -/
  | intern (use : NameUse)
  | ask (position : Nat) (query : Query)
  | act (action : HostAction)

/-- Whether an errand is only to number a name. -/
def Errand.isIntern : Errand → Bool
  | intern _ => true
  | ask .. | act _ => false

/-- What a host sees of a rack. -/
inductive Sight where
  | turn (taken : Turn)
  | answer (told : Option Answer)

/-- What a host sees of a rack of names, which need no numbers. -/
def Rack.sights (rack : Rack) : List Errand → List Sight
  | [] => []
  | .intern _ :: rest => rack.sights rest
  | .ask position query :: rest =>
    .answer ((rack.instance? position).map fun inst => inst.answer query) :: rack.sights rest
  | .act action :: rest =>
    match rack.act action with
    | some done => .turn { before := rack, action, done } :: done.state.sights rest
    | none => []

end Patchbay

namespace Patchbay.Numbered

/-! ## Requests -/

/-- The outcome for an instance as one for the instance and the environment. -/
def Outcome.within {α : Type} (done : Outcome Instance α) (environment : Environment) :
    Outcome (Environment × Instance) α :=
  { state := (environment, done.state), calls := done.calls, result := done.result }

/-- The outcome of a change that cannot fail. -/
def Outcome.ofChange {State : Type} (changed : State × List Call) : Outcome State Reply :=
  { state := changed.1, calls := changed.2, result := .ok .done }

/-- Serve a request, whose names are numbered first. -/
def Instance.serve (environment : Environment) (inst : Instance) :
    Request → Numbering (Outcome (Environment × Instance) Reply)
  | .setConsole sink =>
    let changed : Instance := { inst with hooks := { inst.hooks with console := sink } }
    return (Outcome.ofChange (changed, [])).within environment
  | .setMidi sink =>
    let changed : Instance := { inst with hooks := { inst.hooks with midi := sink } }
    return (Outcome.ofChange (changed, [])).within environment
  | .bind tie sink => do
    let tie ← Numbering.tie tie.name
    return (Outcome.ofChange ({ inst with hooks := inst.hooks.bind tie sink }, [])).within
      environment
  | .unbind tie => do
    let tie ← Numbering.tie tie.name
    let (hooks, found) := inst.hooks.unbind tie
    return { state := (environment, { inst with hooks }), result := .ok (.flag found) }
  | .setExtension extension =>
    return (Outcome.ofChange ({ inst with extension }, [])).within environment
  | .post level text => return (Outcome.ofChange (inst, inst.post level text)).within environment
  | .send tie message => do
    let tie ← Numbering.tie tie.name
    let message ← Message.ofNamed message
    let changed ← inst.send tie message
    return (Outcome.ofChange changed).within environment
  | .midi event => do
    let changed ← inst.midi event
    return (Outcome.ofChange changed).within environment
  | .load name directory => do
    let done ← inst.load environment name directory
    return done.view .handle
  | .close id => return ((inst.close id).view fun _ => .done).within environment
  | .prepare format => return ((inst.prepare format).view fun _ => .done).within environment
  | .release => return (Outcome.ofChange inst.release).within environment

namespace Rack

/-- The outcome of an action that the rack always takes. -/
def settled (rack : Rack) (reply : Reply := .done) (calls : List Call := []) :
    Outcome Rack Reply :=
  { state := rack, calls, result := .ok reply }

/-- Take an action, `none` where a host cannot. -/
def act (rack : Rack) : HostAction → Numbering (Option (Outcome Rack Reply))
  | .create extension =>
    let (rack, position, calls) := rack.create extension
    return some (rack.settled (.index position) calls)
  | .request position request =>
    rack.run position fun environment inst => inst.serve environment request
  | .perform position size inputs outputs => do
    let done ← rack.perform position size inputs outputs
    return done.map fun done => done.view .outputs
  | .openQueue position capacity =>
    return (rack.openQueue position capacity).map fun (rack, queue) =>
      rack.settled (.index queue)
  | .enqueue queue command =>
    if queue < rack.queues.length then do
      let command ← Command.ofNamed command
      return some ((rack.enqueue queue command).view fun _ => .done)
    else return none
  | .select (some position) =>
    if (rack.shared? position).isSome then
      let (rack, calls) := rack.setCurrent (some position)
      return some (rack.settled .done calls)
    else return none
  | .select none =>
    let (rack, calls) := rack.setCurrent none
    return some (rack.settled .done calls)
  | .hold position =>
    return if (rack.shared? position).isSome then some (rack.hold position).settled else none
  | .letGo position count =>
    if count ≤ rack.handles position then
      let (rack, calls) := rack.letGo position count
      return some (rack.settled .done calls)
    else return none
  | .free position =>
    return if 0 < rack.handles position then
      (rack.free position).map fun done => done.view fun _ => .done
    else none
  | .tryFree position =>
    return if 0 < rack.handles position then
      (rack.tryFree position).map fun done => done.view fun _ => .done
    else none
  | .openHistory =>
    let (rack, history) := rack.openHistory
    return some (rack.settled (.index history))
  | .clearHistory history => return some (rack.clearHistory history).settled
  | .setFiles files =>
    return some { rack with environment := { rack.environment with files } }.settled
  | .addSearchPath directory =>
    let (environment, calls) := rack.environment.addSearchPath directory
    return some ({ rack with environment }.settled .done (calls.map .plain))
  | .clearSearchPath =>
    let (environment, calls) := rack.environment.clearSearchPath
    return some ({ rack with environment }.settled .done (calls.map .plain))

end Rack

/-! ## Questions -/

/-- What a host is told in return for a question. -/
inductive Answer where
  | count (value : Nat)
  | patches (found : List (PatchId × Patch))
  | patch (found : Option Patch)
  | tie (found : Option Tie)
  | standing (id : Nat) (extension : Option Int) (format : Option AudioFormat) (sampleRate : Nat)

/-- An answer by name. -/
def Answer.named (reading : Reading) : Answer → Patchbay.Answer
  | .count value => .count value
  | .patches found => .patches (Numbered.named reading found)
  | .patch found => .patch (Numbered.named reading found)
  | .tie found => .tie (Numbered.named reading found)
  | .standing id extension format sampleRate => .standing id extension format sampleRate

instance : Named Answer Patchbay.Answer := ⟨Answer.named⟩

/-- What an instance answers. The names in a question are numbered first. -/
def Instance.answer (inst : Instance) : Query → Numbering Answer
  | .bindingCount tie => do
    let tie ← Numbering.tie tie.name
    return .count (inst.hooks.bound tie).length
  | .patches => return .patches inst.engine.slots.patches
  | .patch id => return .patch (inst.engine.slots.patch? id)
  | .tieFor id ending =>
    match inst.engine.slots.patch? id with
    | some patch => do
      let tie ← Numbering.tie (toString patch.dollarZero ++ ending)
      return .tie (some tie)
    | none => return .tie none
  | .standing => return .standing inst.id inst.extension inst.engine.format inst.sampleRate

/-- What the instance at a position answers, if there is one. -/
def Rack.answer (rack : Rack) (position : Nat) (query : Query) : Numbering (Option Answer) :=
  match rack.instance? position with
  | some inst => do
    let answer ← inst.answer query
    return some answer
  | none => return none

/-! ## Sessions -/

/-- The state of a process. -/
structure Process where
  tables : Tables := {}
  rack : Rack := {}

/-- What a host sees of a process, with the tables by which it is read. -/
inductive Sight where
  /-- An action, with the process before it, its outcome and the tables after it. -/
  | turn (before : Process) (action : HostAction) (done : Outcome Rack Reply) (tables : Tables)
  | answer (told : Option Answer) (tables : Tables)

/-- What a host sees, read by names. -/
def Sight.named : Sight → Patchbay.Sight
  | .turn before action done tables =>
    .turn
      { before := Numbered.named before.tables.reading before.rack
        action
        done := Numbered.named tables.reading done }
  | .answer told tables => .answer (Numbered.named tables.reading told)

/-- What a host sees of a process in a session, as far as it can take its actions, and the
tables at the end. -/
def Process.course (process : Process) : List Errand → List Sight × Tables
  | [] => ([], process.tables)
  | .intern use :: rest => course { process with tables := process.tables.note use } rest
  | .ask position query :: rest =>
    let asked := (process.rack.answer position query).run process.tables
    let seen := course { process with tables := asked.2 } rest
    (.answer asked.1 asked.2 :: seen.1, seen.2)
  | .act action :: rest =>
    let ran := (process.rack.act action).run process.tables
    match ran.1 with
    | some done =>
      let seen := course { tables := ran.2, rack := done.state } rest
      (.turn process action done ran.2 :: seen.1, seen.2)
    | none => ([], ran.2)

end Patchbay.Numbered
