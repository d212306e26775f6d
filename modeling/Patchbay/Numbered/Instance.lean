import Patchbay.Host.Instance
import Patchbay.Numbered.Engine

/-!
# Instances of numbers

The hooks of a host and the commands in a queue as a process has them: sinks are bound to the
numbers of ties. Whatever concerns no names is done as for instances of names.
-/

namespace Patchbay.Numbered

/-! ## Hooks -/

/-- One call of a sink, or one line of the program's log. -/
inductive Call where
  /-- A call that carries no names. -/
  | plain (call : Patchbay.Call)
  | message (label : String) (tie : Tie) (message : Message)
  | kindMessage (label : String) (tie : Tie) (message : Message)
  deriving DecidableEq

/-- A line of the program's log. -/
def Call.log (level : LogLevel) (text : String) : Call := .plain (.log level text)

/-- The calls a message sink receives for a message. -/
def receive (tie : Tie) (message : Message) : MessageSink → List Call
  | .raw label => [.message label tie message]
  | .kinds label wanted =>
    if wanted.contains message.kind then [.kindMessage label tie message] else []

/-- What an instance calls back into. -/
structure Hooks where
  console : Option ConsoleSink := none
  midi : Option MidiSink := none
  /-- Bound sinks, newest first. -/
  bindings : List (Tie × MessageSink) := []
  deriving DecidableEq

namespace Hooks

/-- Bind one more sink to a tie. -/
def bind (hooks : Hooks) (tie : Tie) (sink : MessageSink) : Hooks :=
  { hooks with bindings := (tie, sink) :: hooks.bindings }

/-- The sinks bound to a tie, oldest first. -/
def bound (hooks : Hooks) (tie : Tie) : List MessageSink :=
  ((hooks.bindings.filter fun binding => binding.1 == tie).map Prod.snd).reverse

/-- Undo the latest binding of a tie, if it has one. -/
def unbind (hooks : Hooks) (tie : Tie) : Hooks × Bool :=
  ({ hooks with bindings := hooks.bindings.eraseP fun binding => binding.1 == tie },
    hooks.bindings.any fun binding => binding.1 == tie)

/-- The calls a post makes on behalf of instance `id`. -/
def post (hooks : Hooks) (id : Nat) (level : ConsoleLevel) (text : String) : List Call :=
  match hooks.console with
  | some sink => (sink.receive level text).map .plain
  | none => [.log level.logLevel s!"[zpd {id}] {text}"]

/-- The calls an effect of instance `id` makes. -/
def calls (hooks : Hooks) (id : Nat) : Effect → List Call
  | .post level text => hooks.post id level text
  | .midi event => ((hooks.midi.map fun sink => sink.receive event).getD []).map .plain
  | .message tie message => (hooks.bound tie).flatMap (receive tie message)
  | .log level text => [.log level text]

/-- The calls a run of effects makes. -/
def run (hooks : Hooks) (id : Nat) (effects : List Effect) : List Call :=
  effects.flatMap (hooks.calls id)

end Hooks

/-! ## Command queues -/

/-- Something for an instance to do at the next block. -/
inductive Command where
  | send (tie : Tie) (message : Message)
  | midi (event : MidiEvent)
  deriving DecidableEq

/-- Number the names in a command. -/
def Command.ofNamed : Patchbay.Command → Numbering Command
  | .send tie message => do
    let tie ← Numbering.tie tie.name
    let message ← Message.ofNamed message
    return .send tie message
  | .midi event => return .midi event

/-- A bounded queue of commands, oldest first. -/
structure CommandQueue where
  capacity : Nat
  pending : List Command := []
  abandoned : Bool := false
  deriving DecidableEq

namespace CommandQueue

/-- An empty queue for at least one command. -/
def ofCapacity (capacity : Nat) : CommandQueue := { capacity := max capacity 1 }

/-- Add a command, `none` if the queue is full. -/
def push? (queue : CommandQueue) (command : Command) : Option CommandQueue :=
  if queue.pending.length < queue.capacity then
    some { queue with pending := queue.pending ++ [command] }
  else none

/-- The queue after all commands have been taken. -/
def drained (queue : CommandQueue) : CommandQueue := { queue with pending := [] }

/-- The queue after its instance has let go of it. -/
def abandon (queue : CommandQueue) : CommandQueue := { queue with abandoned := true }

end CommandQueue

/-! ## Instances -/

/-- An operation's new state, the calls it made, and its result. -/
structure Outcome (State Value : Type) where
  state : State
  calls : List Call := []
  result : Except Failure Value

/-- The same outcome with another view of its value. -/
def Outcome.view {State α β : Type} (done : Outcome State α) (view : α → β) : Outcome State β :=
  { state := done.state, calls := done.calls, result := done.result.map view }

/-- One isolated engine with its hooks. -/
structure Instance where
  id : Nat
  engine : Engine := {}
  hooks : Hooks := {}
  queue : Option Nat := none
  extension : Option Int := none
  sampleRate : Nat := defaultSampleRate

/-- Read a patch file, with the diagnostics of its text. -/
def readPatchFile (environment : Environment) (path : String) :
    Numbering (Environment × Except Failure (Patch × List String)) :=
  match environment.files.readText? path with
  | some text => do
    let dollarZero := environment.nextDollarZero
    let done ← readPatch ((Path.fileName? path).getD "") path text dollarZero
    return ({ environment with nextDollarZero := dollarZero + 1 }, done)
  | none =>
    return (environment, .error (.patchOpenFailed path "stream did not contain valid UTF-8"))

namespace Instance

/-- The instance with a new state of its engine, and the calls of the effects. -/
def settle (inst : Instance) (done : Engine × List Effect) : Instance × List Call :=
  ({ inst with engine := done.1 }, inst.hooks.run inst.id done.2)

/-- A line of the log that starts with the instance's number. -/
def logLine (inst : Instance) (level : LogLevel) (text : String) : Call :=
  .log level ("Instance " ++ toString inst.id ++ ": " ++ text)

/-- A console post. -/
def post (inst : Instance) (level : ConsoleLevel) (text : String) : List Call :=
  inst.hooks.post inst.id level text

/-- Send a message to a tie. -/
def send (inst : Instance) (tie : Tie) (message : Message) :
    Numbering (Instance × List Call) := do
  let done ← inst.engine.send tie message
  return inst.settle done

/-- Feed a MIDI event to the MIDI inputs. -/
def midi (inst : Instance) (event : MidiEvent) : Numbering (Instance × List Call) := do
  let done ← inst.engine.midi event
  return inst.settle done

/-- Carry out a queued command. -/
def carryOut (inst : Instance) : Command → Numbering (Instance × List Call)
  | .send tie message => inst.send tie message
  | .midi event => inst.midi event

/-- Carry out queued commands in order. -/
def carryOutAll (inst : Instance) : List Command → Numbering (Instance × List Call)
  | [] => return (inst, [])
  | command :: rest => do
    let (inst, calls) ← inst.carryOut command
    let (inst, more) ← inst.carryOutAll rest
    return (inst, calls ++ more)

/-- Take a patch into the engine: report its diagnostics, bring the signal chain
up to date and fire its `loadbang` objects. -/
def openPatch (inst : Instance) (patch : Patch) (diagnostics : List String) :
    Numbering (Instance × List Call × PatchId) := do
  let (engine, id) := inst.engine.insert patch
  let (engine, chainEffects) := engine.rebuildChain
  let (engine, bangEffects) ← engine.loadbang id
  let reports := diagnostics.map fun text => Effect.post .error text
  let (inst, calls) := inst.settle (engine, reports ++ chainEffects ++ bangEffects)
  return (inst, calls, id)

/-- Load a patch, found by name in a directory or on the search path. -/
def load (environment : Environment) (inst : Instance) (name directory : String) :
    Numbering (Outcome (Environment × Instance) PatchId) :=
  match environment.searchPath.resolve? environment.files name directory with
  | none => pure
    { state := (environment, inst)
      calls := [inst.logLine .warn
        s!"patch {name} not found (search dir '{directory}')"]
      result := .error (.patchNotFound name directory) }
  | some path => do
    let (environment, done) ← readPatchFile environment path
    match done with
    | .error failure => return { state := (environment, inst), result := .error failure }
    | .ok (patch, diagnostics) =>
      let (inst, calls, id) ← inst.openPatch patch diagnostics
      let dollarZero := patch.dollarZero
      pure
        { state := (environment, inst)
          calls := calls ++
            [inst.logLine .info s!"opened patch {name} ($0={dollarZero}) from {path}"]
          result := .ok id }

/-- Close a patch. -/
def close (inst : Instance) (id : PatchId) : Outcome Instance Unit :=
  match inst.engine.remove? id with
  | none => { state := inst, result := .error .stalePatch }
  | some (patch, engine) =>
    let (inst, calls) := inst.settle engine.rebuildChain
    { state := inst
      calls := calls ++ [inst.logLine .info ("closed patch " ++ patch.name)]
      result := .ok () }

/-- Prepare for a format. -/
def prepare (inst : Instance) (format : AudioFormat) : Outcome Instance Unit :=
  match format.validate with
  | .error failure =>
    { state := inst
      calls := [inst.logLine .error failure.message]
      result := .error failure }
  | .ok () =>
    let ⟨inputs, outputs, sampleRate, blockSize⟩ := format
    let (inst, calls) := inst.settle (inst.engine.prepare format)
    { state := { inst with sampleRate }
      calls := calls ++ [inst.logLine .info
        s!"DSP prepared ({inputs} in, {outputs} out, {sampleRate} Hz, block {blockSize})"]
      result := .ok () }

/-- Stop being prepared; harmless if not prepared. -/
def release (inst : Instance) : Instance × List Call :=
  ({ inst with engine := inst.engine.release },
    if inst.engine.format.isSome then [inst.logLine .info "DSP released"] else [])

/-- Whether a block can be run: the instance is prepared for this block size and
every host buffer is long enough. -/
def checkBlock (inst : Instance) (size : Nat) (inputs outputs : List Block) :
    Except Failure Unit :=
  match inst.engine.format with
  | none => .error .notPrepared
  | some format =>
    if size ≠ format.blockSize then .error (.blockSizeMismatch format.blockSize size)
    else
      match Patchbay.Instance.checkLengths size inputs with
      | .error failure => .error failure
      | .ok () => Patchbay.Instance.checkLengths size outputs

/-- Run one block: first the pending commands, then the audio, then everything
that fires after a block. -/
def perform (inst : Instance) (pending : List Command) (size : Nat)
    (inputs outputs : List Block) : Numbering (Outcome Instance (List Block)) :=
  match inst.checkBlock size inputs outputs with
  | .error failure => pure
    { state := inst
      calls := if failure = .notPrepared then
          [inst.logLine .error "perform called before prepare"]
        else []
      result := .error failure }
  | .ok () => do
    let (inst, commandCalls) ← inst.carryOutAll pending
    let (engine, outputs, effects) ← inst.engine.perform size inputs outputs
    let (inst, blockCalls) := inst.settle (engine, effects)
    return { state := inst, calls := commandCalls ++ blockCalls, result := .ok outputs }

end Instance

end Patchbay.Numbered
