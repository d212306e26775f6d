import Mathlib.Data.List.Basic
import Patchbay.Host.Rack

/-!
# Sessions

A session is whatever a host does with a process, one action after another, on any
number of instances. The racks that sessions lead to are the reachable ones, and
the engines inside them go through a few kinds of change only. An invariant of
engines is shown along those changes and then holds in every session.

## Implementation notes

An action that a host cannot take in a state has no outcome there: it needs the
instance to be alive, or a handle to give up.
-/

namespace Patchbay

/-! ## What hosts do -/

/-- What a host asks of one instance. -/
inductive Request where
  | setConsole (sink : Option ConsoleSink)
  | setMidi (sink : Option MidiSink)
  | bind (tie : Tie) (sink : MessageSink)
  | unbind (tie : Tie)
  | setExtension (extension : Option Int)
  | post (level : ConsoleLevel) (text : String)
  | send (tie : Tie) (message : Message)
  | midi (event : MidiEvent)
  | load (name directory : String)
  | close (id : PatchId)
  | prepare (format : AudioFormat)
  | release

/-- What a host is told in return. -/
inductive Reply where
  | done
  | flag (value : Bool)
  | index (value : Nat)
  | handle (id : PatchId)
  | outputs (blocks : List Block)

/-- The same outcome with another view of its value. -/
def Outcome.view {State α β : Type} (done : Outcome State α) (view : α → β) : Outcome State β :=
  { state := done.state, calls := done.calls, result := done.result.map view }

/-- The outcome for an instance as one for the instance and the environment. -/
def Outcome.within {α : Type} (done : Outcome Instance α) (environment : Environment) :
    Outcome (Environment × Instance) α :=
  { state := (environment, done.state), calls := done.calls, result := done.result }

/-- The outcome of a change that cannot fail. -/
def Outcome.ofChange {State : Type} (changed : State × List Call) : Outcome State Reply :=
  { state := changed.1, calls := changed.2, result := .ok .done }

/-- Serve a request. -/
def Instance.serve (environment : Environment) (inst : Instance) :
    Request → Outcome (Environment × Instance) Reply
  | .setConsole sink =>
    (Outcome.ofChange ({ inst with hooks := { inst.hooks with console := sink } }, [])).within
      environment
  | .setMidi sink =>
    (Outcome.ofChange ({ inst with hooks := { inst.hooks with midi := sink } }, [])).within
      environment
  | .bind tie sink =>
    (Outcome.ofChange ({ inst with hooks := inst.hooks.bind tie sink }, [])).within environment
  | .unbind tie =>
    let (hooks, found) := inst.hooks.unbind tie
    { state := (environment, { inst with hooks }), result := .ok (.flag found) }
  | .setExtension extension =>
    (Outcome.ofChange ({ inst with extension }, [])).within environment
  | .post level text => (Outcome.ofChange (inst, inst.post level text)).within environment
  | .send tie message => (Outcome.ofChange (inst.send tie message)).within environment
  | .midi event => (Outcome.ofChange (inst.midi event)).within environment
  | .load name directory => (inst.load environment name directory).view .handle
  | .close id => ((inst.close id).view fun _ => .done).within environment
  | .prepare format => ((inst.prepare format).view fun _ => .done).within environment
  | .release => (Outcome.ofChange inst.release).within environment

/-- One thing a host does. -/
inductive HostAction where
  | create (extension : Option Int)
  | request (position : Nat) (request : Request)
  | perform (position size : Nat) (inputs outputs : List Block)
  | openQueue (position capacity : Nat)
  | enqueue (queue : Nat) (command : Command)
  | select (selection : Option Nat)
  | hold (position : Nat)
  | letGo (position count : Nat)
  | free (position : Nat)
  | tryFree (position : Nat)
  | openHistory
  | clearHistory (history : Nat)
  | setFiles (files : FileTree)
  | addSearchPath (directory : String)
  | clearSearchPath

namespace Rack

/-- The outcome of an action that the rack always takes. -/
def settled (rack : Rack) (reply : Reply := .done) (calls : List Call := []) :
    Outcome Rack Reply :=
  { state := rack, calls, result := .ok reply }

/-- How many handles the host keeps on a live instance. -/
def handles (rack : Rack) (position : Nat) : Nat :=
  ((rack.shared? position).map SharedInstance.handles).getD 0

/-- Take an action, `none` where a host cannot. -/
def act (rack : Rack) : HostAction → Option (Outcome Rack Reply)
  | .create extension =>
    let (rack, position, calls) := rack.create extension
    some (rack.settled (.index position) calls)
  | .request position request =>
    rack.run position fun environment inst => inst.serve environment request
  | .perform position size inputs outputs =>
    (rack.perform position size inputs outputs).map fun done => done.view .outputs
  | .openQueue position capacity =>
    (rack.openQueue position capacity).map fun (rack, queue) => rack.settled (.index queue)
  | .enqueue queue command =>
    if queue < rack.queues.length then
      some ((rack.enqueue queue command).view fun _ => .done)
    else none
  | .select (some position) =>
    if (rack.shared? position).isSome then
      let (rack, calls) := rack.setCurrent (some position)
      some (rack.settled .done calls)
    else none
  | .select none =>
    let (rack, calls) := rack.setCurrent none
    some (rack.settled .done calls)
  | .hold position =>
    if (rack.shared? position).isSome then some (rack.hold position).settled else none
  | .letGo position count =>
    if count ≤ rack.handles position then
      let (rack, calls) := rack.letGo position count
      some (rack.settled .done calls)
    else none
  | .free position =>
    if 0 < rack.handles position then
      (rack.free position).map fun done => done.view fun _ => .done
    else none
  | .tryFree position =>
    if 0 < rack.handles position then
      (rack.tryFree position).map fun done => done.view fun _ => .done
    else none
  | .openHistory =>
    let (rack, history) := rack.openHistory
    some (rack.settled (.index history))
  | .clearHistory history => some (rack.clearHistory history).settled
  | .setFiles files =>
    some { rack with environment := { rack.environment with files } }.settled
  | .addSearchPath directory =>
    let (environment, calls) := rack.environment.addSearchPath directory
    some ({ rack with environment }.settled .done calls)
  | .clearSearchPath =>
    let (environment, calls) := rack.environment.clearSearchPath
    some ({ rack with environment }.settled .done calls)

/-- The racks that sessions lead to. -/
inductive Reachable : Rack → Prop
  | fresh : Reachable {}
  | act {rack : Rack} {action : HostAction} {done : Outcome Rack Reply} :
      Reachable rack → rack.act action = some done → Reachable done.state

/-- Take actions one after the other, `none` as soon as a host cannot. -/
def session (rack : Rack) : List HostAction → Option Rack
  | [] => some rack
  | action :: rest => (rack.act action).bind fun done => done.state.session rest

theorem session_append (rack : Rack) (first second : List HostAction) :
    rack.session (first ++ second) = (rack.session first).bind fun rack => rack.session second := by
  induction first generalizing rack with
  | nil => rfl
  | cons action rest ih =>
    simp only [List.cons_append, session, ih, Option.bind_assoc]

theorem Reachable.session {rack final : Rack} (h : rack.Reachable) {actions : List HostAction}
    (hfinal : rack.session actions = some final) : final.Reachable := by
  induction actions generalizing rack with
  | nil =>
    cases hfinal
    exact h
  | cons action rest ih =>
    obtain ⟨done, hdone, hrest⟩ := Option.bind_eq_some_iff.mp hfinal
    exact ih (h.act hdone) hrest

/-- A rack is reachable exactly if a session leads to it. -/
theorem reachable_iff {rack : Rack} :
    rack.Reachable ↔ ∃ actions, ({} : Rack).session actions = some rack := by
  constructor
  · intro h
    induction h with
    | fresh => exact ⟨[], rfl⟩
    | @act rack action done _ hdone ih =>
      obtain ⟨actions, hactions⟩ := ih
      refine ⟨actions ++ [action], ?_⟩
      rw [session_append, hactions, Option.bind_some, Rack.session, hdone]
      rfl
  · rintro ⟨actions, hactions⟩
    exact Reachable.fresh.session hactions

/-- A session that ends with an instance of some property ends in a reachable rack. -/
theorem exists_of_session {actions : List HostAction} {position : Nat}
    {property : Instance → Prop} [DecidablePred property]
    (h : (({} : Rack).session actions).any (fun rack =>
      (rack.instance? position).any fun inst => decide (property inst)) = true) :
    ∃ rack : Rack, ∃ inst, rack.Reachable ∧ rack.instance? position = some inst ∧
      property inst := by
  obtain ⟨rack, hrack, hfound⟩ := (Option.any_eq_true _ _).mp h
  obtain ⟨inst, hinst, hproperty⟩ := (Option.any_eq_true _ _).mp hfound
  exact ⟨rack, inst, Reachable.fresh.session hrack, hinst, of_decide_eq_true hproperty⟩

end Rack

/-! ## What happens to engines -/

namespace Engine

/-- A block may be run: the engine is prepared for this block size, and every host
buffer holds a block. -/
structure Admits (engine : Engine) (format : AudioFormat) (size : Nat)
    (inputs outputs : List Block) : Prop where
  prepared : engine.format = some format
  size_eq : size = format.blockSize
  inputs_long : ∀ block ∈ inputs, size ≤ block.length
  outputs_long : ∀ block ∈ outputs, size ≤ block.length

/-- The states an engine goes through. -/
inductive Reachable : Engine → Prop
  | fresh : Reachable {}
  | openPatch {engine : Engine} (patch : Patch) :
      Reachable engine → Reachable (engine.insert patch).1.rebuildChain.1
  | closePatch {engine rest : Engine} {id : PatchId} {patch : Patch} :
      Reachable engine → engine.remove? id = some (patch, rest) → Reachable rest.rebuildChain.1
  | prepare {engine : Engine} {format : AudioFormat} :
      Reachable engine → format.validate = .ok () → Reachable (engine.prepare format).1
  | release {engine : Engine} : Reachable engine → Reachable engine.release
  | send {engine : Engine} (tie : Tie) (message : Message) :
      Reachable engine → Reachable (engine.send tie message).1
  | midi {engine : Engine} (event : MidiEvent) :
      Reachable engine → Reachable (engine.midi event).1
  | loadbang {engine : Engine} (id : PatchId) :
      Reachable engine → Reachable (engine.loadbang id).1
  | perform {engine : Engine} {format : AudioFormat} {size : Nat} {inputs outputs : List Block} :
      Reachable engine → engine.Admits format size inputs outputs →
        Reachable (engine.perform size inputs outputs).1

end Engine

/-! ## Instances -/

/-- Whether a call is a line of the program's log, which no sink receives. -/
def Call.isLog : Call → Bool
  | .log .. => true
  | _ => false

/-- The environment after a load that failed: a file that was read and is no patch has
used up a number. -/
def Environment.afterFailure (environment : Environment) : Failure → Environment
  | .invalidPatch .. => { environment with nextDollarZero := environment.nextDollarZero + 1 }
  | _ => environment

theorem exists_invalidPatch_of_readPatch {name path text : String} {dollarZero : Int32}
    {failure : Failure} (h : readPatch name path text dollarZero = .error failure) :
    ∃ line reason, failure = .invalidPatch path line reason := by
  unfold readPatch at h
  split at h
  · cases h
    exact ⟨_, _, rfl⟩
  · split at h
    · cases h
      exact ⟨_, _, rfl⟩
    · cases h

theorem Environment.readPatchFile_of_error {environment : Environment} {path : String}
    {failure : Failure} (h : (environment.readPatchFile path).2 = .error failure) :
    (environment.readPatchFile path).1 = environment.afterFailure failure := by
  unfold readPatchFile at h ⊢
  split at h
  · obtain ⟨line, reason, rfl⟩ := exists_invalidPatch_of_readPatch h
    rfl
  · cases h
    rfl

namespace Instance
variable {inst : Instance}

theorem checkLengths_eq_ok_iff {size : Nat} {blocks : List Block} :
    checkLengths size blocks = .ok () ↔ ∀ block ∈ blocks, size ≤ block.length := by
  unfold checkLengths
  split
  · rename_i block channel hfound
    have hshort : block.length < size := by simpa using List.find?_some hfound
    have hmem : block ∈ blocks :=
      List.fst_mem_of_mem_zipIdx (List.mem_of_find?_eq_some hfound)
    constructor
    · intro h
      cases h
    · intro h
      exact absurd (h block hmem) (Nat.not_le_of_lt hshort)
  · rename_i hnone
    rw [List.find?_eq_none] at hnone
    constructor
    · intro _ block hblock
      obtain ⟨index, hindex⟩ := List.mem_iff_getElem?.mp hblock
      simpa using hnone (block, index) (List.mk_mem_zipIdx_iff_getElem?.mpr hindex)
    · intro _
      rfl

/-- A block can be run exactly if the engine admits it. -/
theorem checkBlock_eq_ok_iff {size : Nat} {inputs outputs : List Block} :
    inst.checkBlock size inputs outputs = .ok () ↔
      ∃ format, inst.engine.Admits format size inputs outputs := by
  unfold checkBlock
  cases hformat : inst.engine.format with
  | none =>
    simp only [reduceCtorEq, false_iff]
    rintro ⟨format, h⟩
    simp [h.prepared] at hformat
  | some format =>
    have hadmits : (∃ format, inst.engine.Admits format size inputs outputs) ↔
        size = format.blockSize ∧ checkLengths size inputs = .ok () ∧
          checkLengths size outputs = .ok () := by
      simp only [checkLengths_eq_ok_iff]
      constructor
      · rintro ⟨format', h⟩
        obtain rfl : format = format' := by
          simpa [hformat] using h.prepared
        exact ⟨h.size_eq, h.inputs_long, h.outputs_long⟩
      · rintro ⟨hsize, hinputs, houtputs⟩
        exact ⟨format, hformat, hsize, hinputs, houtputs⟩
    rw [hadmits]
    by_cases hsize : size = format.blockSize
    · simp only [hsize, ne_eq, not_true_eq_false, ↓reduceIte, true_and]
      cases hinputs : checkLengths format.blockSize inputs with
      | error failure => simp
      | ok => simp
    · simp [hsize]

/-- A block and what fires after it, without the commands that come before. -/
def block (inst : Instance) (size : Nat) (inputs outputs : List Block) :
    Outcome Instance (List Block) :=
  let (engine, blocks, effects) := inst.engine.perform size inputs outputs
  { state := { inst with engine }, calls := inst.hooks.run inst.id effects, result := .ok blocks }

/-- A block that is turned away changes nothing. -/
theorem perform_eq_of_error {size : Nat} {inputs outputs : List Block} {failure : Failure}
    (h : inst.checkBlock size inputs outputs = .error failure) (pending : List Command) :
    inst.perform pending size inputs outputs =
      { state := inst
        calls := if failure = .notPrepared then
            [inst.logLine .error "perform called before prepare"]
          else []
        result := .error failure } := by
  simp only [perform, h]

/-- A block that can be run runs after the pending commands. -/
theorem perform_eq_of_ok {size : Nat} {inputs outputs : List Block}
    (h : inst.checkBlock size inputs outputs = .ok ()) (pending : List Command) :
    inst.perform pending size inputs outputs =
      { (inst.carryOutAll pending).1.block size inputs outputs with
        calls := (inst.carryOutAll pending).2 ++
          ((inst.carryOutAll pending).1.block size inputs outputs).calls } := by
  simp only [perform, h, block, settle]

theorem checkBlock_of_perform {pending : List Command} {size : Nat}
    {inputs outputs blocks : List Block}
    (h : (inst.perform pending size inputs outputs).result = .ok blocks) :
    inst.checkBlock size inputs outputs = .ok () := by
  cases hcheck : inst.checkBlock size inputs outputs with
  | ok => rfl
  | error failure =>
    rw [perform_eq_of_error hcheck] at h
    cases h

theorem checkBlock_of_error {pending : List Command} {size : Nat} {inputs outputs : List Block}
    {failure : Failure} (h : (inst.perform pending size inputs outputs).result = .error failure) :
    inst.checkBlock size inputs outputs = .error failure := by
  cases hcheck : inst.checkBlock size inputs outputs with
  | ok =>
    rw [perform_eq_of_ok hcheck] at h
    cases h
  | error found =>
    rw [perform_eq_of_error hcheck] at h
    cases h
    rfl

/-- A load that succeeds has read a patch, and opens it. -/
theorem exists_read_of_load {environment : Environment} {name directory : String} {id : PatchId}
    (h : (inst.load environment name directory).result = .ok id) :
    ∃ path patch diagnostics logged,
      environment.searchPath.resolve? environment.files name directory = some path ∧
      (environment.readPatchFile path).2 = .ok (patch, diagnostics) ∧
      (inst.openPatch patch diagnostics).2.2 = id ∧
      (inst.load environment name directory).state =
        ((environment.readPatchFile path).1, (inst.openPatch patch diagnostics).1) ∧
      (inst.load environment name directory).calls =
        (inst.openPatch patch diagnostics).2.1 ++ [inst.logLine .info logged] := by
  unfold load at h ⊢
  split at h
  · cases h
  · rename_i path hpath
    split at h
    · cases h
    · rename_i after patch diagnostics hread
      let dollarZero := patch.dollarZero
      exact ⟨path, patch, diagnostics, s!"opened patch {name} ($0={dollarZero}) from {path}",
        hpath, congrArg Prod.snd hread, Except.ok.inj h, congrArg (·.1, _) hread.symm, rfl⟩

/-- A load that fails leaves the instance as it was. -/
theorem load_of_error {environment : Environment} {name directory : String} {failure : Failure}
    (h : (inst.load environment name directory).result = .error failure) :
    (inst.load environment name directory).state = (environment.afterFailure failure, inst) ∧
      ∀ call ∈ (inst.load environment name directory).calls, call.isLog := by
  unfold load at h ⊢
  split
  · rename_i hpath
    simp only [hpath, Except.error.injEq] at h
    subst h
    exact ⟨rfl, by simp [logLine, Call.isLog]⟩
  · rename_i path hpath
    simp only [hpath] at h
    split at h
    · rename_i after reason hread
      cases h
      have hafter : after = environment.afterFailure failure := by
        rw [← Environment.readPatchFile_of_error (congrArg Prod.snd hread), hread]
      simp [hafter]
    · cases h

theorem close_of_error {id : PatchId} {failure : Failure}
    (h : (inst.close id).result = .error failure) :
    inst.close id = { state := inst, result := .error .stalePatch } := by
  unfold close at h ⊢
  split
  · rfl
  · rename_i hsome
    simp [hsome] at h

theorem prepare_of_error {format : AudioFormat} {failure : Failure}
    (h : (inst.prepare format).result = .error failure) :
    inst.prepare format =
      { state := inst
        calls := [inst.logLine .error failure.message]
        result := .error failure } := by
  unfold prepare at h ⊢
  split
  · rename_i found hfound
    simp only [hfound, Except.error.injEq] at h
    rw [h]
  · rename_i hvalid
    simp [hvalid] at h

theorem openPatch_reachable (h : inst.engine.Reachable) (patch : Patch)
    (diagnostics : List String) : (inst.openPatch patch diagnostics).1.engine.Reachable :=
  (h.openPatch patch).loadbang _

theorem carryOut_reachable (h : inst.engine.Reachable) (command : Command) :
    (inst.carryOut command).1.engine.Reachable := by
  cases command with
  | send tie message => exact h.send tie message
  | midi event => exact h.midi event

theorem carryOutAll_reachable (commands : List Command) (h : inst.engine.Reachable) :
    (inst.carryOutAll commands).1.engine.Reachable := by
  induction commands generalizing inst with
  | nil => exact h
  | cons command rest ih => exact ih (carryOut_reachable h command)

theorem load_reachable (h : inst.engine.Reachable) (environment : Environment)
    (name directory : String) :
    (inst.load environment name directory).state.2.engine.Reachable := by
  unfold load
  split
  · exact h
  · split
    · exact h
    · exact openPatch_reachable h _ _

theorem close_reachable (h : inst.engine.Reachable) (id : PatchId) :
    (inst.close id).state.engine.Reachable := by
  unfold close
  split
  · exact h
  · exact h.closePatch ‹_›

theorem prepare_reachable (h : inst.engine.Reachable) (format : AudioFormat) :
    (inst.prepare format).state.engine.Reachable := by
  unfold prepare
  split
  · exact h
  · exact h.prepare ‹_›

/-- Commands change the state of objects and nothing about the preparation. -/
theorem carryOutAll_format (commands : List Command) :
    (inst.carryOutAll commands).1.engine.format = inst.engine.format := by
  induction commands generalizing inst with
  | nil => rfl
  | cons command rest ih =>
    have hfirst : (inst.carryOut command).1.engine.format = inst.engine.format := by
      cases command <;> rfl
    exact ih.trans hfirst

theorem Admits.afterCommands {format : AudioFormat} {size : Nat} {inputs outputs : List Block}
    (h : inst.engine.Admits format size inputs outputs) (commands : List Command) :
    (inst.carryOutAll commands).1.engine.Admits format size inputs outputs :=
  { h with prepared := (carryOutAll_format commands).trans h.prepared }

theorem perform_reachable (h : inst.engine.Reachable) (pending : List Command) (size : Nat)
    (inputs outputs : List Block) :
    (inst.perform pending size inputs outputs).state.engine.Reachable := by
  unfold perform
  split
  · exact h
  · obtain ⟨format, hadmits⟩ := checkBlock_eq_ok_iff.mp ‹_›
    exact (carryOutAll_reachable pending h).perform (Admits.afterCommands hadmits pending)

theorem serve_reachable (h : inst.engine.Reachable) (environment : Environment)
    (request : Request) : (inst.serve environment request).state.2.engine.Reachable := by
  cases request with
  | send tie message => exact h.send tie message
  | midi event => exact h.midi event
  | load name directory => exact load_reachable h environment name directory
  | close id => exact close_reachable h id
  | prepare format => exact prepare_reachable h format
  | release => exact h.release
  | _ => exact h

end Instance

/-! ## Racks -/

namespace Rack

/-- Every live instance has a property. -/
def Every (property : Instance → Prop) (rack : Rack) : Prop :=
  ∀ shared, some shared ∈ rack.instances → property shared.inst

section
variable {property : Instance → Prop} {rack : Rack}

theorem Every.shared? (h : rack.Every property) {position : Nat} {shared : SharedInstance}
    (hshared : rack.shared? position = some shared) : property shared.inst := by
  rw [Rack.shared?, Option.join_eq_some_iff] at hshared
  exact h shared (List.mem_of_getElem? hshared)

theorem Every.instance? (h : rack.Every property) {position : Nat} {inst : Instance}
    (hinst : rack.instance? position = some inst) : property inst := by
  obtain ⟨shared, hshared, rfl⟩ := Option.map_eq_some_iff.mp hinst
  exact h.shared? hshared

/-- Changing one instance into one with the property keeps the property everywhere. -/
theorem every_modify {instances : List (Option SharedInstance)} {position : Nat}
    {change : SharedInstance → SharedInstance}
    (h : ∀ shared, some shared ∈ instances → property shared.inst)
    (hchange : ∀ shared, property shared.inst → property (change shared).inst) :
    ∀ shared, some shared ∈ instances.modify position (Option.map change) →
      property shared.inst := by
  intro shared hshared
  obtain ⟨index, hindex⟩ := List.mem_iff_getElem?.mp hshared
  rw [List.getElem?_modify] at hindex
  obtain ⟨before, hbefore, hafter⟩ := Option.map_eq_some_iff.mp hindex
  have hmem := List.mem_of_getElem? hbefore
  split at hafter
  · obtain ⟨old, rfl, rfl⟩ := Option.map_eq_some_iff.mp hafter
    exact hchange old (h old hmem)
  · exact h shared (hafter ▸ hmem)

theorem Every.setInstance (h : rack.Every property) (position : Nat) {inst : Instance}
    (hinst : property inst) : (rack.setInstance position inst).Every property :=
  every_modify h fun _ _ => hinst

theorem Every.hold (h : rack.Every property) (position : Nat) :
    (rack.hold position).Every property :=
  every_modify h fun _ hshared => hshared

theorem Every.abandonQueue (h : rack.Every property) (queue : Option Nat) :
    (rack.abandonQueue queue).Every property := by
  cases queue with
  | none => exact h
  | some index => exact h

theorem Every.clear (h : rack.Every property) (position : Nat) :
    (rack.setShared position none).Every property := by
  intro shared hshared
  rcases List.mem_or_eq_of_mem_set hshared with hmem | heq
  · exact h shared hmem
  · cases heq

theorem Every.dropUnused (h : rack.Every property) (position : Nat) :
    (rack.dropUnused position).1.Every property := by
  unfold Rack.dropUnused
  split
  · split
    · exact (h.clear position).abandonQueue _
    · exact h
  · exact h

theorem Every.letGo (h : rack.Every property) (position count : Nat) :
    (rack.letGo position count).1.Every property := by
  apply Every.dropUnused
  exact every_modify h fun _ hshared => hshared

theorem Every.setCurrent (h : rack.Every property) (selection : Option Nat) :
    (rack.setCurrent selection).1.Every property := by
  unfold Rack.setCurrent
  split
  · have hselected : Every property { rack with current := selection } := h
    exact hselected.dropUnused _
  · exact h

theorem Every.create (h : rack.Every property) {extension : Option Int}
    (hfresh : ∀ id, property { id, extension }) : (rack.create extension).1.Every property := by
  intro shared hshared
  rcases List.mem_append.mp hshared with hmem | hmem
  · exact h shared hmem
  · cases List.mem_singleton.mp hmem
    exact hfresh _

theorem Every.run {α : Type} {position : Nat}
    {operation : Environment → Instance → Outcome (Environment × Instance) α}
    {done : Outcome Rack α} (h : rack.Every property)
    (hoperation : ∀ inst, property inst →
      property (operation rack.environment inst).state.2)
    (hdone : rack.run position operation = some done) : done.state.Every property := by
  obtain ⟨inst, hinst, rfl⟩ := Option.map_eq_some_iff.mp hdone
  have henvironment : Every property
      { rack with environment := (operation rack.environment inst).state.1 } := h
  exact henvironment.setInstance position (hoperation inst (h.instance? hinst))

theorem Every.perform {position size : Nat} {inputs outputs : List Block}
    {done : Outcome Rack (List Block)} (h : rack.Every property)
    (hperform : ∀ inst, property inst → ∀ pending,
      property (inst.perform pending size inputs outputs).state)
    (hdone : rack.perform position size inputs outputs = some done) :
    done.state.Every property := by
  unfold Rack.perform at hdone
  split at hdone
  · cases hdone
  · obtain ⟨ran, hran, rfl⟩ := Option.map_eq_some_iff.mp hdone
    have hstate : ran.state.Every property :=
      h.run (fun inst hinst => hperform inst hinst _) hran
    split
    · unfold Rack.drain
      split
      · exact hstate
      · exact hstate
    · exact hstate

theorem Every.openQueue {position capacity : Nat} {opened : Rack × Nat}
    (h : rack.Every property)
    (hqueue : ∀ inst, property inst → ∀ queue, property { inst with queue })
    (hdone : rack.openQueue position capacity = some opened) : opened.1.Every property := by
  obtain ⟨inst, hinst, rfl⟩ := Option.map_eq_some_iff.mp hdone
  have habandoned := h.abandonQueue inst.queue
  have hgrown : Every property
      { rack.abandonQueue inst.queue with
        queues := (rack.abandonQueue inst.queue).queues ++ [.ofCapacity capacity] } := habandoned
  exact hgrown.setInstance position (hqueue inst (h.instance? hinst) _)

theorem Every.free {position : Nat} {done : Outcome Rack Unit} (h : rack.Every property)
    (hdone : rack.free position = some done) : done.state.Every property := by
  obtain ⟨shared, -, rfl⟩ := Option.map_eq_some_iff.mp hdone
  split
  · exact h
  · split
    · exact h.letGo position 1
    · exact h

theorem Every.tryFree {position : Nat} {done : Outcome Rack Unit} (h : rack.Every property)
    (hdone : rack.tryFree position = some done) : done.state.Every property := by
  obtain ⟨freed, hfreed, rfl⟩ := Option.map_eq_some_iff.mp hdone
  have hstate := h.free hfreed
  split
  · exact hstate
  · exact hstate.letGo position 1

theorem Every.enqueue (h : rack.Every property) (queue : Nat) (command : Command) :
    (rack.enqueue queue command).state.Every property := by
  unfold Rack.enqueue
  split
  · exact h
  · exact h

end

/-- What an instance shows in every session, if it shows it when it is new and whatever
it is asked. -/
structure Lasting (property : Instance → Prop) : Prop where
  fresh : ∀ id extension, property { id, extension }
  serve : ∀ inst, property inst → ∀ environment request,
    property (inst.serve environment request).state.2
  perform : ∀ inst, property inst → ∀ pending size inputs outputs,
    property (inst.perform pending size inputs outputs).state
  queue : ∀ inst, property inst → ∀ queue, property { inst with queue }

/-- An action keeps a lasting property of all live instances. -/
theorem act_every {property : Instance → Prop} (lasting : Lasting property) {rack : Rack}
    (h : rack.Every property) {action : HostAction} {done : Outcome Rack Reply}
    (hdone : rack.act action = some done) : done.state.Every property := by
  cases action with
  | create extension =>
    cases hdone
    exact h.create fun id => lasting.fresh id extension
  | request position request =>
    have hrun : rack.run position (fun environment inst => inst.serve environment request) =
        some done := hdone
    exact h.run (fun inst hinst => lasting.serve inst hinst _ request) hrun
  | perform position size inputs outputs =>
    obtain ⟨ran, hran, rfl⟩ := Option.map_eq_some_iff.mp hdone
    exact h.perform (fun inst hinst pending => lasting.perform inst hinst pending _ _ _) hran
  | openQueue position capacity =>
    obtain ⟨opened, hopened, rfl⟩ := Option.map_eq_some_iff.mp hdone
    exact h.openQueue lasting.queue hopened
  | enqueue queue command =>
    simp only [act, Option.ite_none_right_eq_some, Option.some.injEq] at hdone
    obtain ⟨-, rfl⟩ := hdone
    exact h.enqueue queue command
  | select selection =>
    cases selection with
    | none =>
      cases hdone
      exact h.setCurrent none
    | some position =>
      simp only [act, Option.ite_none_right_eq_some, Option.some.injEq] at hdone
      obtain ⟨-, rfl⟩ := hdone
      exact h.setCurrent (some position)
  | hold position =>
    simp only [act, Option.ite_none_right_eq_some, Option.some.injEq] at hdone
    obtain ⟨-, rfl⟩ := hdone
    exact h.hold position
  | letGo position count =>
    simp only [act, Option.ite_none_right_eq_some, Option.some.injEq] at hdone
    obtain ⟨-, rfl⟩ := hdone
    exact h.letGo position count
  | free position =>
    simp only [act, Option.ite_none_right_eq_some] at hdone
    obtain ⟨freed, hfreed, rfl⟩ := Option.map_eq_some_iff.mp hdone.2
    exact h.free hfreed
  | tryFree position =>
    simp only [act, Option.ite_none_right_eq_some] at hdone
    obtain ⟨freed, hfreed, rfl⟩ := Option.map_eq_some_iff.mp hdone.2
    exact h.tryFree hfreed
  | openHistory => cases hdone; exact h
  | clearHistory history => cases hdone; exact h
  | setFiles files => cases hdone; exact h
  | addSearchPath directory => cases hdone; exact h
  | clearSearchPath => cases hdone; exact h

/-- A lasting property holds of every live instance in every session. -/
theorem Reachable.every {property : Instance → Prop} (lasting : Lasting property) {rack : Rack}
    (h : rack.Reachable) : rack.Every property := by
  induction h with
  | fresh =>
    intro shared hshared
    cases hshared
  | act _ hdone ih => exact act_every lasting ih hdone

theorem lasting_engine_reachable : Lasting fun inst => inst.engine.Reachable where
  fresh := fun _ _ => .fresh
  serve := fun _ hinst environment request => Instance.serve_reachable hinst environment request
  perform := fun _ hinst pending size inputs outputs =>
    Instance.perform_reachable hinst pending size inputs outputs
  queue := fun _ hinst _ => hinst

/-- The engine of a live instance has been through the changes engines go through. -/
theorem Reachable.engine {rack : Rack} (h : rack.Reachable) {position : Nat} {inst : Instance}
    (hinst : rack.instance? position = some inst) : inst.engine.Reachable :=
  (h.every lasting_engine_reachable).instance? hinst

end Rack

end Patchbay
