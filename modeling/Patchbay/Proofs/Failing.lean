import Mathlib.Data.List.Basic
import Patchbay.Patch.Naming
import Patchbay.Proofs.Chronicle
import Patchbay.Proofs.Completion

/-!
# Operations that fail

Loading, closing, preparing and running a block can fail, in several places each. Every
way out comes before every effect: a failed operation leaves the whole process as it
was, tells no sink, and at most uses up the number of a patch.

## Implementation notes

A process is more than its rack. The names in use are numbered for all instances, and
the host lends its output buffers to the blocks it runs. Both are set beside the rack
here, with the names that an operation uses read off the texts it reads and the steps
it takes.
-/

namespace Patchbay

/-! ## Names used by messages -/

/-- The name that an object uses when it answers a message: a `send` takes a new one. -/
def Node.answerUses (inlet : Nat) (message : Message) : Node → List NameUse
  | .send _ =>
    if inlet = 1 then
      match message with
      | .symbol name => [.tie ⟨name.name⟩]
      | _ => []
    else []
  | _ => []

namespace Work

/-- The names used by the next step. -/
def nameUses (work : Work) : List NameUse :=
  match work.tasks with
  | .deliver target inlet message :: _ =>
    if maxDepth ≤ work.dispatch.depth then []
    else ((work.dispatch.slots.node? target).map (Node.answerUses inlet message)).getD []
  | _ => []

/-- The names used by some number of steps, in order. -/
def usesOf (listeners : Listeners) : Nat → Work → List NameUse
  | 0, _ => []
  | count + 1, work => work.nameUses ++ usesOf listeners count (step listeners work)

end Work

/-- The names that some tasks use until none of them is left. -/
def Engine.TasksUse (engine : Engine) (tasks : List Task) (uses : List NameUse) : Prop :=
  ∃ count,
    ((Work.step engine.listeners)^[count] ⟨engine.start, tasks⟩).tasks = [] ∧
      uses = Work.usesOf engine.listeners count ⟨engine.start, tasks⟩

/-! ## Operations of a process -/

/-- What a host can ask of an instance in vain. -/
inductive Operation where
  | load (name directory : String)
  | close (id : PatchId)
  | prepare (format : AudioFormat)
  | perform (size : Nat) (inputs : List Block)

/-- A rack, the numbers of the names in use and the output buffers of the host. -/
structure Process where
  rack : Rack
  tables : NameTables
  outputs : List Block

namespace Operation

/-- The operation as an action of the host. -/
def action (position : Nat) (outputs : List Block) : Operation → HostAction
  | load name directory => .request position (.load name directory)
  | close id => .request position (.close id)
  | prepare format => .request position (.prepare format)
  | perform size inputs => .perform position size inputs outputs

/-- The names that loading uses: those of the text that is read, then those of the messages
that `loadbang` objects send. -/
def LoadUses (environment : Environment) (inst : Instance) (name directory : String)
    (uses : List NameUse) : Prop :=
  match environment.searchPath.resolve? environment.files name directory with
  | none => uses = []
  | some path =>
    match (environment.readPatchFile path).2 with
    | .error _ => uses = environment.readingUses path
    | .ok (patch, _) =>
      let engine := (inst.opened patch).engine
      ∃ fired, engine.TasksUse [.bang (engine.loadbangs (inst.engine.insert patch).2)] fired ∧
        uses = environment.readingUses path ++ fired

/-- The names that a block uses: those of the messages before and after the audio. -/
def PerformUses (inst : Instance) (pending : List Command) (size : Nat)
    (inputs outputs : List Block) (uses : List NameUse) : Prop :=
  match inst.checkBlock size inputs outputs with
  | .error _ => uses = []
  | .ok () =>
    inst.engine.TasksUse (pending.map Command.task ++ [.bang inst.engine.chain.ticks]) uses

/-- The names that an operation of an instance uses. -/
def Uses (process : Process) (inst : Instance) : Operation → List NameUse → Prop
  | load name directory => LoadUses process.rack.environment inst name directory
  | close _ | prepare _ => fun uses => uses = []
  | perform size inputs =>
    PerformUses inst (process.rack.pending inst) size inputs process.outputs

end Operation

/-- The content of output buffers after an action: a block that was run has written them. -/
def Outcome.buffers {State : Type} (done : Outcome State Reply) (outputs : List Block) :
    List Block :=
  match done.result with
  | .ok (.outputs blocks) => blocks
  | _ => outputs

/-- An operation of the instance at a position, with its outcome and the process after it. -/
structure Process.Runs (process : Process) (position : Nat) (operation : Operation)
    (done : Outcome Rack Reply) (after : Process) : Prop where
  act_eq : process.rack.act (operation.action position process.outputs) = some done
  rack_eq : after.rack = done.state
  tables_eq : ∃ inst uses, process.rack.instance? position = some inst ∧
    operation.Uses process inst uses ∧ after.tables = process.tables.noteAll uses
  outputs_eq : after.outputs = done.buffers process.outputs

/-! ## Every operation has an end -/

theorem Instance.Completes.exists_uses {inst : Instance} {tasks : List Task}
    {done : Instance × List Call} (h : inst.Completes tasks done) :
    ∃ uses, inst.engine.TasksUse tasks uses := by
  obtain ⟨effects, ⟨count, hcount⟩, -⟩ := h.ends
  exact ⟨_, count, congrArg Work.tasks hcount, rfl⟩

/-- In every session an operation of a live instance uses some names. -/
theorem Operation.exists_uses {process : Process} (h : process.rack.Reachable) {position : Nat}
    {inst : Instance} (hinst : process.rack.instance? position = some inst)
    (operation : Operation) : ∃ uses, operation.Uses process inst uses := by
  have hreachable := h.engine hinst
  cases operation with
  | load name directory =>
    simp only [Uses, LoadUses]
    split
    · exact ⟨[], rfl⟩
    · split
      · exact ⟨_, rfl⟩
      · rename_i patch diagnostics _
        obtain ⟨told, fired, -, hcompletes⟩ :=
          Instance.openPatch_completes hreachable patch diagnostics
        obtain ⟨uses, huses⟩ := hcompletes.exists_uses
        exact ⟨_, uses, huses, rfl⟩
  | close id => exact ⟨[], rfl⟩
  | prepare format => exact ⟨[], rfl⟩
  | perform size inputs =>
    simp only [Uses, PerformUses]
    split
    · exact ⟨[], rfl⟩
    · rename_i hcheck
      have hperform := Instance.perform_eq_of_ok hcheck (process.rack.pending inst)
      exact (Instance.perform_completes hreachable
        (congrArg Outcome.result hperform)).exists_uses

/-- In every session an operation that a host can take leads somewhere. -/
theorem Process.exists_runs {process : Process} (h : process.rack.Reachable) {position : Nat}
    {operation : Operation} {done : Outcome Rack Reply}
    (hact : process.rack.act (operation.action position process.outputs) = some done) :
    ∃ after, process.Runs position operation done after := by
  have haddressed :
      (operation.action position process.outputs).position? = some position := by
    cases operation <;> rfl
  obtain ⟨inst, hinst⟩ := (Rack.act_changes hact).exists_instance haddressed
  obtain ⟨uses, huses⟩ := operation.exists_uses h hinst
  exact ⟨⟨done.state, process.tables.noteAll uses, done.buffers process.outputs⟩, hact, rfl,
    ⟨inst, uses, hinst, huses, rfl⟩, rfl⟩

/-! ## Every failure comes before every effect -/

theorem readingUses_of_error {name path text : String} {dollarZero : Int32} {failure : Failure}
    (h : readPatch name path text dollarZero = .error failure) :
    readingUses name text dollarZero = [] := by
  unfold readPatch at h
  unfold readingUses
  split
  · rfl
  · rename_i header records hrecords
    rw [hrecords] at h
    split
    · rfl
    · rename_i hheader
      simp only [hheader] at h
      cases h

theorem Environment.readingUses_of_error {environment : Environment} {path : String}
    {failure : Failure} (h : (environment.readPatchFile path).2 = .error failure) :
    environment.readingUses path = [] := by
  unfold readPatchFile at h
  unfold Environment.readingUses
  split
  · rename_i text htext
    rw [htext] at h
    exact Patchbay.readingUses_of_error h
  · rfl

theorem AudioFormat.afterFailure_of_validate {format : AudioFormat} {failure : Failure}
    (h : format.validate = .error failure) (environment : Environment) :
    environment.afterFailure failure = environment := by
  unfold validate at h
  simp only at h
  split at h
  · cases h
    rfl
  · split at h
    · cases h
      rfl
    · split at h
      · cases h
        rfl
      · cases h

namespace Instance
variable {inst : Instance} {size : Nat} {inputs outputs blocks : List Block} {failure : Failure}

theorem afterFailure_of_checkLengths (h : checkLengths size blocks = .error failure)
    (environment : Environment) : environment.afterFailure failure = environment := by
  unfold checkLengths at h
  split at h
  · cases h
    rfl
  · cases h

theorem afterFailure_of_checkBlock (h : inst.checkBlock size inputs outputs = .error failure)
    (environment : Environment) : environment.afterFailure failure = environment := by
  unfold checkBlock at h
  split at h
  · cases h
    rfl
  · split at h
    · cases h
      rfl
    · split at h
      · rename_i hinputs
        cases h
        exact afterFailure_of_checkLengths hinputs environment
      · exact afterFailure_of_checkLengths h environment

theorem validate_of_error {format : AudioFormat}
    (h : (inst.prepare format).result = .error failure) : format.validate = .error failure := by
  cases hvalid : format.validate with
  | error found =>
    simp only [prepare, hvalid] at h
    cases h
    rfl
  | ok =>
    simp only [prepare, hvalid] at h
    cases h

end Instance

theorem Operation.loadUses_of_error {environment : Environment} {inst : Instance}
    {name directory : String} {failure : Failure}
    (h : (inst.load environment name directory).result = .error failure) (uses : List NameUse) :
    LoadUses environment inst name directory uses ↔ uses = [] := by
  unfold LoadUses
  cases hpath : environment.searchPath.resolve? environment.files name directory with
  | none => rfl
  | some path =>
    rcases hread : environment.readPatchFile path with ⟨after, found | read⟩
    · simp only [hread, Environment.readingUses_of_error (congrArg Prod.snd hread)]
    · simp only [Instance.load, hpath, hread] at h
      cases h

/-- Changing an item into itself changes nothing. -/
theorem modify_eq_of_fixed {α : Type*} {items : List α} {index : Nat} {change : α → α}
    (h : ∀ item, items[index]? = some item → change item = item) :
    items.modify index change = items := by
  apply List.ext_getElem?
  intro other
  rw [List.getElem?_modify]
  by_cases heq : index = other
  · subst heq
    cases hitem : items[index]? with
    | none => rfl
    | some item => simp [h item hitem]
  · simp [heq]

namespace Rack
variable {rack : Rack} {position : Nat} {inst : Instance}

theorem setInstance_self (h : rack.instance? position = some inst) :
    rack.setInstance position inst = rack := by
  have hshared : rack.instances.modify position
      (Option.map fun shared => { shared with inst }) = rack.instances := by
    apply modify_eq_of_fixed
    intro stands hstands
    rw [instance?, shared?, hstands] at h
    cases stands with
    | none => rfl
    | some shared =>
      cases h
      rfl
  rw [setInstance, hshared]

/-- Lines of the log enter no history. -/
theorem record_of_isLog {calls : List Call} (h : ∀ call ∈ calls, call.isLog) :
    rack.record calls = rack := by
  induction calls with
  | nil => rfl
  | cons call rest ih =>
    have hone : rack.record [call] = rack := by
      have hcall := h call List.mem_cons_self
      cases call <;> first | rfl | cases hcall
    calc rack.record (call :: rest)
        = (rack.record [call]).record rest := rfl
      _ = rack.record rest := by rw [hone]
      _ = rack := ih fun other hother => h other (List.mem_cons_of_mem call hother)

/-- A request that leaves the instance alone and only writes to the log. -/
theorem act_request_of_same {request : Request} {done : Outcome Rack Reply}
    {environment : Environment} (h : rack.act (.request position request) = some done)
    (hinst : rack.instance? position = some inst)
    (hstate : (inst.serve rack.environment request).state = (environment, inst))
    (hcalls : ∀ call ∈ (inst.serve rack.environment request).calls, call.isLog) :
    done.state = { rack with environment } ∧ ∀ call ∈ done.calls, call.isLog := by
  obtain ⟨same, hsame, rfl⟩ := Option.map_eq_some_iff.mp h
  obtain rfl : inst = same := Option.some.inj (hinst.symm.trans hsame)
  refine ⟨?_, hcalls⟩
  have hset : ({ rack with environment } : Rack).setInstance position inst =
      { rack with environment } := setInstance_self hinst
  simp only [hstate, hset]
  exact record_of_isLog hcalls

/-- A block that fails. -/
theorem act_perform_of_error {size : Nat} {inputs outputs : List Block}
    {done : Outcome Rack Reply} {failure : Failure}
    (h : rack.act (.perform position size inputs outputs) = some done)
    (hinst : rack.instance? position = some inst)
    (hfail : (inst.perform (rack.pending inst) size inputs outputs).result = .error failure) :
    done.state = rack ∧ ∀ call ∈ done.calls, call.isLog := by
  obtain ⟨ran, hran, rfl⟩ := Option.map_eq_some_iff.mp h
  have hcheck := Instance.checkBlock_of_error hfail
  rw [perform_eq hinst, Instance.perform_eq_of_error hcheck] at hran
  cases hran
  have hcalls : ∀ call ∈ (if failure = .notPrepared then
      [inst.logLine .error "perform called before prepare"] else []), call.isLog := by
    intro call hcall
    split at hcall
    · rw [List.mem_singleton.mp hcall]
      rfl
    · cases hcall
  refine ⟨?_, hcalls⟩
  have hset : (rack.setInstance position inst).record _ = _ := record_of_isLog hcalls
  exact hset.trans (setInstance_self hinst)

end Rack

theorem map_eq_error {α β : Type} {result : Except Failure α} {view : α → β} {failure : Failure}
    (h : result.map view = .error failure) : result = .error failure := by
  cases result with
  | error found =>
    cases h
    rfl
  | ok value => cases h

/-- What a failure looks like, at the instance that it happens to. -/
theorem Operation.of_error {process : Process} {position : Nat} {operation : Operation}
    {done : Outcome Rack Reply} {failure : Failure}
    (hact : process.rack.act (operation.action position process.outputs) = some done)
    (hfail : done.result = .error failure) :
    ∃ inst, process.rack.instance? position = some inst ∧
      (done.state = { process.rack with
          environment := process.rack.environment.afterFailure failure } ∧
        ∀ call ∈ done.calls, call.isLog) ∧
      ∀ uses, operation.Uses process inst uses ↔ uses = [] := by
  cases operation with
  | load name directory =>
    obtain ⟨inst, hinst, hdone⟩ := Option.map_eq_some_iff.mp hact
    have hload : (inst.load process.rack.environment name directory).result = .error failure := by
      rw [← hdone] at hfail
      exact map_eq_error hfail
    obtain ⟨hstate, hcalls⟩ := Instance.load_of_error hload
    exact ⟨inst, hinst, Rack.act_request_of_same hact hinst hstate hcalls,
      loadUses_of_error hload⟩
  | close id =>
    obtain ⟨inst, hinst, hdone⟩ := Option.map_eq_some_iff.mp hact
    have hclose : (inst.close id).result = .error failure := by
      rw [← hdone] at hfail
      exact map_eq_error hfail
    have hsame := Instance.close_of_error hclose
    obtain rfl : failure = .stalePatch :=
      Except.error.inj (hclose.symm.trans (congrArg Outcome.result hsame))
    refine ⟨inst, hinst, Rack.act_request_of_same hact hinst ?_ ?_, fun _ => Iff.rfl⟩
    · exact congrArg (Prod.mk _) (congrArg Outcome.state hsame)
    · intro call hcall
      have hcalls : (inst.close id).calls = [] := congrArg Outcome.calls hsame
      exact absurd (hcalls ▸ hcall) List.not_mem_nil
  | prepare format =>
    obtain ⟨inst, hinst, hdone⟩ := Option.map_eq_some_iff.mp hact
    have hprepare : (inst.prepare format).result = .error failure := by
      rw [← hdone] at hfail
      exact map_eq_error hfail
    have hsame := Instance.prepare_of_error hprepare
    have henvironment := AudioFormat.afterFailure_of_validate
      (Instance.validate_of_error hprepare) process.rack.environment
    rw [henvironment]
    refine ⟨inst, hinst, Rack.act_request_of_same hact hinst ?_ ?_, fun _ => Iff.rfl⟩
    · exact congrArg (Prod.mk _) (congrArg Outcome.state hsame)
    · intro call hcall
      have hcalls : (inst.prepare format).calls = [inst.logLine .error failure.message] :=
        congrArg Outcome.calls hsame
      have hmem : call ∈ (inst.prepare format).calls := hcall
      rw [hcalls, List.mem_singleton] at hmem
      rw [hmem]
      rfl
  | perform size inputs =>
    obtain ⟨ran, hran, hdone⟩ := Option.map_eq_some_iff.mp hact
    cases hinst : process.rack.instance? position with
    | none =>
      rw [Rack.perform, hinst] at hran
      cases hran
    | some inst =>
      have hperform : (inst.perform (process.rack.pending inst) size inputs
          process.outputs).result = .error failure := by
        rw [Rack.perform_eq hinst] at hran
        cases hran
        rw [← hdone] at hfail
        exact map_eq_error hfail
      have hcheck := Instance.checkBlock_of_error hperform
      have henvironment := Instance.afterFailure_of_checkBlock hcheck process.rack.environment
      rw [henvironment]
      refine ⟨inst, rfl, Rack.act_perform_of_error hact hinst hperform, ?_⟩
      intro uses
      simp only [Uses, PerformUses, hcheck]

/-- An operation that fails leaves the process as it was, tells no sink, and uses up the
number of a patch only if a file was no patch. -/
theorem Process.runs_iff_of_error {process : Process} {position : Nat} {operation : Operation}
    {done : Outcome Rack Reply} {failure : Failure}
    (hact : process.rack.act (operation.action position process.outputs) = some done)
    (hfail : done.result = .error failure) :
    (∀ after, process.Runs position operation done after ↔
      after = { process with
        rack := { process.rack with
          environment := process.rack.environment.afterFailure failure } }) ∧
      ∀ call ∈ done.calls, call.isLog := by
  obtain ⟨inst, hinst, ⟨hstate, hcalls⟩, huses⟩ := Operation.of_error hact hfail
  refine ⟨?_, hcalls⟩
  have hbuffers : done.buffers process.outputs = process.outputs := by
    rw [Outcome.buffers, hfail]
  intro after
  constructor
  · intro h
    obtain ⟨same, uses, hsame, hsome, htables⟩ := h.tables_eq
    obtain rfl : inst = same := Option.some.inj (hinst.symm.trans hsame)
    rw [(huses uses).mp hsome] at htables
    obtain ⟨rack, tables, outputs⟩ := after
    have hrack : rack = _ := h.rack_eq.trans hstate
    have houtputs : outputs = _ := h.outputs_eq.trans hbuffers
    subst hrack houtputs
    cases htables
    rfl
  · rintro rfl
    exact ⟨hact, hstate.symm, ⟨inst, [], hinst, (huses []).mpr rfl, rfl⟩, hbuffers.symm⟩

/-- The failure that an outcome tells of. -/
def Outcome.failure? {State Value : Type} (done : Outcome State Value) : Option Failure :=
  match done.result with
  | .error failure => some failure
  | .ok _ => none

theorem Outcome.failure?_eq_some_iff {State Value : Type} {done : Outcome State Value}
    {failure : Failure} : done.failure? = some failure ↔ done.result = .error failure := by
  unfold failure?
  cases done.result <;> simp

/-- A session with a prepared instance, a command that waits for it and a file that is no
patch. -/
def waiting : List HostAction :=
  [.create none,
    .setFiles { entries := [(["bad.pd"], .file (.text "\n#X obj 0 0 r a;\n"))] },
    .openQueue 0 4,
    .enqueue 0 (.send ⟨"a"⟩ .bang),
    .request 0 (.prepare {})]

/-- Loading the file fails and uses up a number, running a block fails and does not. -/
theorem runs_iff_of_error_waiting :
    ∃ rack loaded performed, ∃ outputs : List Block, rack.Reachable ∧
      rack.queues.map CommandQueue.pending = [[.send ⟨"a"⟩ .bang]] ∧
      loaded.result = .error (.invalidPatch "/bad.pd" 2 "missing canvas header") ∧
      (∀ after, Process.Runs ⟨rack, .initial, outputs⟩ 0 (.load "/bad.pd" "") loaded after ↔
        after = ⟨{ rack with environment :=
          { rack.environment with nextDollarZero := rack.environment.nextDollarZero + 1 } },
          .initial, outputs⟩) ∧
      performed.result = .error (.bufferTooShort 0 64 2) ∧
      ∀ after, Process.Runs ⟨rack, .initial, outputs⟩ 0 (.perform 64 []) performed after ↔
        after = ⟨rack, .initial, outputs⟩ := by
  have hsession : (({} : Rack).session waiting).any (fun rack => decide
      (rack.queues.map CommandQueue.pending = [[.send ⟨"a"⟩ .bang]] ∧
        ((rack.act (.request 0 (.load "/bad.pd" ""))).bind Outcome.failure?) =
          some (.invalidPatch "/bad.pd" 2 "missing canvas header") ∧
        ((rack.act (.perform 0 64 [] [[1, 2]])).bind Outcome.failure?) =
          some (.bufferTooShort 0 64 2))) = true := by
    decide
  obtain ⟨rack, hrack, hfound⟩ := (Option.any_eq_true _ _).mp hsession
  obtain ⟨hpending, hload, hperform⟩ := of_decide_eq_true hfound
  obtain ⟨loaded, hloaded, hfailed⟩ := Option.bind_eq_some_iff.mp hload
  obtain ⟨performed, hperformed, hshort⟩ := Option.bind_eq_some_iff.mp hperform
  rw [Outcome.failure?_eq_some_iff] at hfailed hshort
  let process : Process := ⟨rack, .initial, [[1, 2]]⟩
  have hloads : process.rack.act
      ((Operation.load "/bad.pd" "").action 0 process.outputs) = some loaded := hloaded
  have hperforms : process.rack.act
      ((Operation.perform 64 []).action 0 process.outputs) = some performed := hperformed
  exact ⟨rack, loaded, performed, [[1, 2]], Rack.Reachable.fresh.session hrack, hpending, hfailed,
    (Process.runs_iff_of_error hloads hfailed).1, hshort,
    (Process.runs_iff_of_error hperforms hshort).1⟩

end Patchbay
