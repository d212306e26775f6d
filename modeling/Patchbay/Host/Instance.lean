import Patchbay.Engine.Engine
import Patchbay.Host.Environment
import Patchbay.Host.Queue

/-!
# Instances

An instance is an engine together with the hooks of its host. Nothing in it is
shared with other instances. An operation that fails leaves the instance as it
was and calls no sink; what it has to say goes to the program's log.
-/

namespace Patchbay

/-- One isolated engine with its hooks. -/
structure Instance where
  id : Nat
  engine : Engine := {}
  hooks : Hooks := {}
  /-- The number of the queue that commands are taken from. -/
  queue : Option Nat := none
  /-- Data the host keeps with the instance. -/
  extension : Option Int := none
  /-- The rate of the latest preparation, kept when prepared no longer. -/
  sampleRate : Nat := defaultSampleRate

namespace Instance

/-- The instance with a new state of its engine, and the calls of the effects. -/
def settle (inst : Instance) (done : Engine × List Effect) : Instance × List Call :=
  ({ inst with engine := done.1 }, inst.hooks.run inst.id done.2)

/-- A line of the log that starts with the instance's number. -/
def logLine (inst : Instance) (level : LogLevel) (text : String) : Call :=
  .log level ("Instance " ++ toString inst.id ++ ": " ++ text)

/-! ## Messages -/

/-- A console post. -/
def post (inst : Instance) (level : ConsoleLevel) (text : String) : List Call :=
  inst.hooks.post inst.id level text

/-- Send a message to a tie: first to the objects that listen there, then to the
sinks bound to it. -/
def send (inst : Instance) (tie : Tie) (message : Message) : Instance × List Call :=
  inst.settle (inst.engine.send tie message)

/-- Feed a MIDI event to the MIDI inputs. -/
def midi (inst : Instance) (event : MidiEvent) : Instance × List Call :=
  inst.settle (inst.engine.midi event)

/-- Carry out a queued command. -/
def carryOut (inst : Instance) : Command → Instance × List Call
  | .send tie message => inst.send tie message
  | .midi event => inst.midi event

/-- Carry out queued commands in order. -/
def carryOutAll (inst : Instance) : List Command → Instance × List Call
  | [] => (inst, [])
  | command :: rest =>
    let (inst, calls) := inst.carryOut command
    let (inst, more) := inst.carryOutAll rest
    (inst, calls ++ more)

/-! ## Patches -/

/-- Take a patch into the engine: report its diagnostics, bring the signal chain
up to date and fire its `loadbang` objects. -/
def openPatch (inst : Instance) (patch : Patch) (diagnostics : List String) :
    Instance × List Call × PatchId :=
  let (engine, id) := inst.engine.insert patch
  let (engine, chainEffects) := engine.rebuildChain
  let (engine, bangEffects) := engine.loadbang id
  let reports := diagnostics.map fun text => Effect.post .error text
  let (inst, calls) := inst.settle (engine, reports ++ chainEffects ++ bangEffects)
  (inst, calls, id)

/-- Load a patch, found by name in a directory or on the search path. -/
def load (environment : Environment) (inst : Instance) (name directory : String) :
    Outcome (Environment × Instance) PatchId :=
  match environment.searchPath.resolve? environment.files name directory with
  | none =>
    { state := (environment, inst)
      calls := [inst.logLine .warn
        s!"patch {name} not found (search dir '{directory}')"]
      result := .error (.patchNotFound name directory) }
  | some path =>
    match environment.readPatchFile path with
    | (environment, .error failure) =>
      { state := (environment, inst), result := .error failure }
    | (environment, .ok (patch, diagnostics)) =>
      let (inst, calls, id) := inst.openPatch patch diagnostics
      let dollarZero := patch.dollarZero
      { state := (environment, inst)
        calls := calls ++
          [inst.logLine .info s!"opened patch {name} ($0={dollarZero}) from {path}"]
        result := .ok id }

/-- Close a patch. -/
def close (inst : Instance) (id : PatchId) : Outcome Instance Unit :=
  match inst.engine.remove? id with
  | none => { state := inst, result := .error .stalePatch }
  | some (patch, engine) =>
    let (inst, calls) := inst.settle engine.rebuildChain
    { state := inst
      calls := calls ++ [inst.logLine .info ("closed patch " ++ patch.name)]
      result := .ok () }

/-- The patch a handle stands for, `none` once it has been closed. -/
def patch? (inst : Instance) (id : PatchId) : Option Patch :=
  inst.engine.slots.patch? id

/-! ## Audio -/

/-- Prepare for a format. -/
def prepare (inst : Instance) (format : AudioFormat) : Outcome Instance Unit :=
  match format.validate with
  | .error failure =>
    { state := inst
      calls := [inst.logLine .error failure.message]
      result := .error failure }
  | .ok () =>
    let ⟨inputs, outputs, sampleRate, blockSize⟩ := format
    let (inst, calls) := inst.settle (inst.engine.prepare format)
    { state := { inst with sampleRate }
      calls := calls ++ [inst.logLine .info
        s!"DSP prepared ({inputs} in, {outputs} out, {sampleRate} Hz, block {blockSize})"]
      result := .ok () }

/-- Stop being prepared; harmless if not prepared. -/
def release (inst : Instance) : Instance × List Call :=
  ({ inst with engine := inst.engine.release },
    if inst.engine.format.isSome then [inst.logLine .info "DSP released"] else [])

/-- The first block that is shorter than `size`, as a failure. -/
def checkLengths (size : Nat) (blocks : List Block) : Except Failure Unit :=
  match blocks.zipIdx.find? fun (block, _) => decide (block.length < size) with
  | some (block, channel) => .error (.bufferTooShort channel size block.length)
  | none => .ok ()

/-- Whether a block can be run: the instance is prepared for this block size and
every host buffer is long enough. -/
def checkBlock (inst : Instance) (size : Nat) (inputs outputs : List Block) :
    Except Failure Unit :=
  match inst.engine.format with
  | none => .error .notPrepared
  | some format =>
    if size ≠ format.blockSize then .error (.blockSizeMismatch format.blockSize size)
    else
      match checkLengths size inputs with
      | .error failure => .error failure
      | .ok () => checkLengths size outputs

/-- Run one block: first the pending commands, then the audio, then everything
that fires after a block. The result is the content of the host outputs. -/
def perform (inst : Instance) (pending : List Command) (size : Nat)
    (inputs outputs : List Block) : Outcome Instance (List Block) :=
  match inst.checkBlock size inputs outputs with
  | .error failure =>
    { state := inst
      calls := if failure = .notPrepared then
          [inst.logLine .error "perform called before prepare"]
        else []
      result := .error failure }
  | .ok () =>
    let (inst, commandCalls) := inst.carryOutAll pending
    let (engine, outputs, effects) := inst.engine.perform size inputs outputs
    let (inst, blockCalls) := inst.settle (engine, effects)
    { state := inst, calls := commandCalls ++ blockCalls, result := .ok outputs }

end Instance

end Patchbay
