import Mathlib.Data.List.Basic
import Patchbay.Proofs.Failing
import Patchbay.Proofs.Handles

/-!
# Being prepared

An instance is prepared for the format of its latest successful preparation, unless it has
been released since. This is told from the chronicle of the session, whatever else happened
in it. The format that is in force and the lengths of the host buffers decide whether a
block is run, and which failure turns it away.
-/

namespace Patchbay

/-- The format that a request has prepared an instance for. -/
def Request.prepared? : Request → Except Failure Reply → Option AudioFormat
  | .prepare format, .ok _ => some format
  | _, _ => none

/-- Whether a request releases an instance. -/
def Request.isRelease : Request → Bool
  | .release => true
  | _ => false

namespace Turn

/-- The format that a turn has prepared the instance at a position for. -/
def prepared? (position : Nat) (turn : Turn) : Option AudioFormat :=
  (turn.requestAt position).bind fun request => request.prepared? turn.done.result

/-- Whether a turn has released the instance at a position. -/
def releases (position : Nat) (turn : Turn) : Bool :=
  (turn.requestAt position).any Request.isRelease

end Turn

/-- The latest successful preparation of the instance at a position was for a format, and no
release has come after it. -/
def InForce (position : Nat) (turns : List Turn) (format : AudioFormat) : Prop :=
  ∃ past turn later, turns = past ++ turn :: later ∧ turn.prepared? position = some format ∧
    ∀ other ∈ later, other.prepared? position = none ∧ other.releases position = false

/-- A buffer is the first of some that holds less than a block. -/
def FirstShort (size : Nat) (blocks : List Block) (channel actual : Nat) : Prop :=
  ∃ block, blocks[channel]? = some block ∧ block.length = actual ∧ actual < size ∧
    ∀ earlier < channel, ∀ other, blocks[earlier]? = some other → size ≤ other.length

/-- There is only one first block that is too short. -/
theorem FirstShort.unique {size : Nat} {blocks : List Block} {channel other actual found : Nat}
    (h : FirstShort size blocks channel actual) (hother : FirstShort size blocks other found) :
    channel = other ∧ actual = found := by
  obtain ⟨block, hblock, rfl, hshort, hbefore⟩ := h
  obtain ⟨block', hblock', rfl, hshort', hbefore'⟩ := hother
  rcases Nat.lt_trichotomy channel other with hlt | rfl | hlt
  · exact absurd (hbefore' channel hlt block hblock) (Nat.not_le.mpr hshort)
  · cases hblock.symm.trans hblock'
    exact ⟨rfl, rfl⟩
  · exact absurd (hbefore other hlt block' hblock') (Nat.not_le.mpr hshort')

/-- The failure that turns a block away. -/
inductive Rejection (inForce : AudioFormat → Prop) (size : Nat) (inputs outputs : List Block) :
    Failure → Prop
  | notPrepared (h : ∀ format, ¬ inForce format) :
      Rejection inForce size inputs outputs .notPrepared
  | blockSize {format : AudioFormat} (h : inForce format) (hsize : size ≠ format.blockSize) :
      Rejection inForce size inputs outputs (.blockSizeMismatch format.blockSize size)
  | input {format : AudioFormat} {channel actual : Nat} (h : inForce format)
      (hsize : size = format.blockSize) (hshort : FirstShort size inputs channel actual) :
      Rejection inForce size inputs outputs (.bufferTooShort channel size actual)
  | output {format : AudioFormat} {channel actual : Nat} (h : inForce format)
      (hsize : size = format.blockSize) (hinputs : ∀ block ∈ inputs, size ≤ block.length)
      (hshort : FirstShort size outputs channel actual) :
      Rejection inForce size inputs outputs (.bufferTooShort channel size actual)

/-! ## The format in force -/

section
variable {position : Nat} {turns : List Turn} {turn : Turn} {format : AudioFormat}

/-- One more turn puts a format in force, or leaves the one that was. -/
theorem inForce_snoc :
    InForce position (turns ++ [turn]) format ↔
      turn.prepared? position = some format ∨
        turn.prepared? position = none ∧ turn.releases position = false ∧
          InForce position turns format := by
  constructor
  · rintro ⟨past, first, later, hturns, hprepared, hlater⟩
    rcases List.eq_nil_or_concat later with rfl | ⟨before, last, rfl⟩
    · obtain ⟨-, hlast⟩ := List.append_inj' hturns rfl
      rw [List.singleton_inj.mp hlast]
      exact .inl hprepared
    · rw [List.concat_eq_append, ← List.cons_append, ← List.append_assoc] at hturns
      obtain ⟨hbefore, hlast⟩ := List.append_inj' hturns rfl
      rw [List.concat_eq_append] at hlater
      rw [List.singleton_inj.mp hlast]
      obtain ⟨hnone, hkept⟩ := hlater last (by simp)
      exact .inr ⟨hnone, hkept, past, first, before, hbefore, hprepared,
        fun other hother => hlater other (List.mem_append_left _ hother)⟩
  · rintro (hprepared | ⟨hnone, hkept, past, first, later, rfl, hprepared, hlater⟩)
    · exact ⟨turns, turn, [], rfl, hprepared, by simp⟩
    · refine ⟨past, first, later ++ [turn], by simp, hprepared, ?_⟩
      intro other hother
      rcases List.mem_append.mp hother with hbefore | hlast
      · exact hlater other hbefore
      · rw [List.mem_singleton.mp hlast]
        exact ⟨hnone, hkept⟩

/-- A turn that makes no request of an instance neither prepares nor releases it. -/
theorem Turn.prepared?_of_no_request (h : turn.requestAt position = none) :
    turn.prepared? position = none ∧ turn.releases position = false := by
  rw [prepared?, releases, h]
  exact ⟨rfl, rfl⟩

end

namespace Instance
variable {inst : Instance} {environment : Environment} {request : Request}

theorem format_settle_rebuildChain (engine : Engine) :
    engine.rebuildChain.1.format = engine.format := by
  unfold Engine.rebuildChain
  split <;> rfl

theorem format_load (environment : Environment) (inst : Instance) (name directory : String) :
    (inst.load environment name directory).state.2.engine.format = inst.engine.format ∧
      (inst.load environment name directory).state.2.sampleRate = inst.sampleRate := by
  unfold load
  split
  · exact ⟨rfl, rfl⟩
  · split
    · exact ⟨rfl, rfl⟩
    · exact ⟨format_settle_rebuildChain _, rfl⟩

theorem format_close (inst : Instance) (id : PatchId) :
    (inst.close id).state.engine.format = inst.engine.format ∧
      (inst.close id).state.sampleRate = inst.sampleRate := by
  unfold close
  cases hclose : inst.engine.remove? id with
  | none => exact ⟨rfl, rfl⟩
  | some removed =>
    obtain ⟨⟨patch, rest⟩, -, rfl⟩ := Option.map_eq_some_iff.mp hclose
    exact ⟨format_settle_rebuildChain _, rfl⟩

/-- Preparing puts its format in force, unless it is turned away. -/
theorem format_prepare (inst : Instance) (format : AudioFormat) :
    (inst.prepare format).state.engine.format =
        (if (inst.prepare format).result = .ok () then some format else inst.engine.format) ∧
      (inst.prepare format).state.sampleRate =
        (if (inst.prepare format).result = .ok () then format.sampleRate else inst.sampleRate) := by
  unfold prepare
  split
  · exact ⟨rfl, rfl⟩
  · exact ⟨format_settle_rebuildChain _, rfl⟩

/-- What a request does to the preparation of an instance. -/
theorem format_serve (inst : Instance) (environment : Environment) (request : Request) :
    (inst.serve environment request).state.2.engine.format =
        (if request.isRelease then none
        else (request.prepared? (inst.serve environment request).result).or inst.engine.format) ∧
      (inst.serve environment request).state.2.sampleRate =
        ((request.prepared? (inst.serve environment request).result).map
          AudioFormat.sampleRate).getD inst.sampleRate := by
  cases request with
  | load name directory => exact inst.format_load environment name directory
  | close id => exact inst.format_close id
  | prepare format =>
    obtain ⟨hformat, hrate⟩ := inst.format_prepare format
    simp only [serve, Outcome.within, Outcome.view, hformat, hrate, Request.isRelease,
      Bool.false_eq_true, if_false]
    cases (inst.prepare format).result <;> exact ⟨rfl, rfl⟩
  | _ => exact ⟨rfl, rfl⟩

theorem format_perform (inst : Instance) (pending : List Command) (size : Nat)
    (inputs outputs : List Block) :
    (inst.perform pending size inputs outputs).state.engine.format = inst.engine.format ∧
      (inst.perform pending size inputs outputs).state.sampleRate = inst.sampleRate := by
  cases hcheck : inst.checkBlock size inputs outputs with
  | error failure =>
    rw [perform_eq_of_error hcheck]
    exact ⟨rfl, rfl⟩
  | ok =>
    rw [perform_eq_of_ok hcheck]
    obtain ⟨slots, stack, depth, hkept⟩ := exists_carryOutAll_eq pending inst
    rw [hkept]
    exact ⟨rfl, rfl⟩

/-! ## Blocks that are turned away -/

/-- Buffers are turned away at the first one that is too short. -/
theorem exists_firstShort_of_checkLengths {size : Nat} {blocks : List Block} {failure : Failure}
    (h : checkLengths size blocks = .error failure) :
    ∃ channel actual, FirstShort size blocks channel actual ∧
      failure = .bufferTooShort channel size actual := by
  unfold checkLengths at h
  split at h
  · rename_i block channel hfound
    cases h
    obtain ⟨hshort, index, hindex, hget, hbefore⟩ := List.find?_eq_some_iff_getElem.mp hfound
    rw [List.getElem_zipIdx, Prod.mk.injEq, Nat.zero_add] at hget
    obtain ⟨rfl, rfl⟩ := hget
    refine ⟨index, _, ⟨_, List.getElem?_eq_getElem _, rfl, of_decide_eq_true hshort, ?_⟩, rfl⟩
    intro earlier hearlier other hother
    have hlong := hbefore earlier hearlier
    rw [List.getElem_zipIdx] at hlong
    obtain ⟨hlt, rfl⟩ := List.getElem?_eq_some_iff.mp hother
    simpa using hlong
  · cases h

theorem checkLengths_eq_error_iff {size : Nat} {blocks : List Block} {failure : Failure} :
    checkLengths size blocks = .error failure ↔
      ∃ channel actual, FirstShort size blocks channel actual ∧
        failure = .bufferTooShort channel size actual := by
  refine ⟨exists_firstShort_of_checkLengths, ?_⟩
  rintro ⟨channel, actual, hfirst, rfl⟩
  cases hcheck : checkLengths size blocks with
  | ok =>
    obtain ⟨block, hblock, rfl, hshort, -⟩ := hfirst
    exact absurd (checkLengths_eq_ok_iff.mp hcheck block (List.mem_of_getElem? hblock))
      (Nat.not_le.mpr hshort)
  | error failure =>
    obtain ⟨other, found, hother, rfl⟩ := exists_firstShort_of_checkLengths hcheck
    obtain ⟨rfl, rfl⟩ := hfirst.unique hother
    rfl

section
variable {inForce : AudioFormat → Prop} {size : Nat} {inputs outputs : List Block}
  {failure : Failure}

theorem rejection_of_checkBlock {format : AudioFormat}
    (hprepared : inst.engine.format = some format) (hforce : inForce format)
    (h : inst.checkBlock size inputs outputs = .error failure) :
    Rejection inForce size inputs outputs failure := by
  simp only [checkBlock, hprepared] at h
  split at h
  · rename_i hsize
    cases h
    exact .blockSize hforce hsize
  · rename_i hsize
    rw [ne_eq, not_not] at hsize
    split at h
    · rename_i hinputs
      obtain ⟨channel, actual, hshort, rfl⟩ := checkLengths_eq_error_iff.mp hinputs
      cases h
      exact .input hforce hsize hshort
    · rename_i hinputs
      obtain ⟨channel, actual, hshort, rfl⟩ := checkLengths_eq_error_iff.mp h
      exact .output hforce hsize (checkLengths_eq_ok_iff.mp hinputs) hshort

theorem checkBlock_of_rejection {format : AudioFormat}
    (hprepared : inst.engine.format = some format)
    (hforce : ∀ other, inForce other ↔ other = format)
    (h : Rejection inForce size inputs outputs failure) :
    inst.checkBlock size inputs outputs = .error failure := by
  simp only [checkBlock, hprepared]
  cases h with
  | notPrepared hnone => exact absurd ((hforce format).mpr rfl) (hnone format)
  | blockSize hother hsize =>
    rw [(hforce _).mp hother] at hsize ⊢
    rw [if_pos hsize]
  | input hother hsize hshort =>
    rw [(hforce _).mp hother] at hsize
    have hinputs := checkLengths_eq_error_iff.mpr ⟨_, _, hshort, rfl⟩
    rw [if_neg (not_not.mpr hsize), hinputs]
  | output hother hsize hlong hshort =>
    rw [(hforce _).mp hother] at hsize
    have hinputs := checkLengths_eq_ok_iff.mpr hlong
    have houtputs := checkLengths_eq_error_iff.mpr ⟨_, _, hshort, rfl⟩
    rw [if_neg (not_not.mpr hsize), hinputs]
    exact houtputs

/-- What is wrong with a block is told by the format in force and the host buffers alone. -/
theorem checkBlock_eq_error_iff
    (hformat : ∀ format, inst.engine.format = some format ↔ inForce format) :
    inst.checkBlock size inputs outputs = .error failure ↔
      Rejection inForce size inputs outputs failure := by
  cases hprepared : inst.engine.format with
  | none =>
    have hnone : ∀ format, ¬ inForce format := by
      intro format hforce
      rw [(hformat format).mpr hforce] at hprepared
      cases hprepared
    simp only [checkBlock, hprepared]
    constructor
    · intro h
      cases h
      exact .notPrepared hnone
    · intro h
      cases h with
      | notPrepared => rfl
      | blockSize h | input h | output h => exact absurd h (hnone _)
  | some format =>
    have hforce (other : AudioFormat) : inForce other ↔ other = format := by
      rw [← hformat other, hprepared, Option.some.injEq, eq_comm]
    exact ⟨rejection_of_checkBlock hprepared ((hforce format).mpr rfl),
      checkBlock_of_rejection hprepared hforce⟩

end

/-- A released instance is as it was when it is released once more. -/
theorem release_release (inst : Instance) : inst.release.1.release = (inst.release.1, []) := rfl

end Instance

/-- The formats that can be prepared for. -/
theorem AudioFormat.validate_eq_ok_iff {format : AudioFormat} :
    format.validate = .ok () ↔
      0 < format.sampleRate ∧ (0 < format.blockSize ∧ format.blockSize ≤ maxBlockSize) ∧
        format.inputs ≤ maxChannels ∧ format.outputs ≤ maxChannels := by
  obtain ⟨inputs, outputs, sampleRate, blockSize⟩ := format
  simp only [validate]
  split
  · simp_all
  · split
    · simp only [reduceCtorEq, false_iff]
      omega
    · split
      · simp only [reduceCtorEq, false_iff]
        omega
      · simp only [true_iff]
        omega

/-! ## Turn by turn -/

/-- The rate of the latest successful preparation of the instance at a position. -/
def latestRate (position : Nat) (turns : List Turn) : Nat :=
  ((turns.filterMap (Turn.prepared? position)).getLast?.map AudioFormat.sampleRate).getD
    defaultSampleRate

/-- An instance is as prepared as the chronicle tells. -/
structure Instance.Told (inst : Instance) (position : Nat) (turns : List Turn) : Prop where
  format_iff : ∀ format, inst.engine.format = some format ↔ InForce position turns format
  sampleRate_eq : inst.sampleRate = latestRate position turns

namespace Instance
variable {inst old : Instance} {position : Nat} {turns : List Turn} {turn : Turn}

theorem latestRate_snoc (position : Nat) (turns : List Turn) (turn : Turn) :
    latestRate position (turns ++ [turn]) =
      ((turn.prepared? position).map AudioFormat.sampleRate).getD (latestRate position turns) := by
  rw [latestRate, filterMap_snoc, List.getLast?_append]
  cases turn.prepared? position <;> rfl

/-- A request that releases prepares for nothing. -/
theorem prepared?_of_releases (h : turn.releases position = true) :
    turn.prepared? position = none := by
  obtain ⟨request, hrequest, hrelease⟩ := (Option.any_eq_true _ _).mp h
  rw [Turn.prepared?, hrequest, Option.bind_some]
  cases request <;> first | rfl | cases hrelease

theorem told_fresh {id : Nat} {extension : Option Int}
    (h : ∀ turn ∈ turns, turn.requestAt position = none) :
    ({ id, extension } : Instance).Told position turns := by
  have hnone : ∀ turn ∈ turns, turn.prepared? position = none := fun turn hturn =>
    (Turn.prepared?_of_no_request (h turn hturn)).1
  constructor
  · intro format
    constructor
    · nofun
    · rintro ⟨past, turn, later, rfl, hprepared, -⟩
      rw [hnone turn (by simp)] at hprepared
      cases hprepared
  · rw [latestRate, List.filterMap_eq_nil_iff.mpr hnone]
    rfl

theorem Told.served (h : old.Told position turns)
    (hformat : inst.engine.format = if turn.releases position then none
      else (turn.prepared? position).or old.engine.format)
    (hrate : inst.sampleRate =
      ((turn.prepared? position).map AudioFormat.sampleRate).getD old.sampleRate) :
    inst.Told position (turns ++ [turn]) where
  format_iff := by
    intro format
    rw [inForce_snoc, ← h.format_iff, hformat]
    cases hreleases : turn.releases position with
    | true => simp [prepared?_of_releases hreleases]
    | false => cases turn.prepared? position <;> simp
  sampleRate_eq := by rw [latestRate_snoc, ← h.sampleRate_eq, hrate]

theorem Told.kept (h : old.Told position turns) (hnone : turn.requestAt position = none)
    (hsame : inst.engine.format = old.engine.format ∧ inst.sampleRate = old.sampleRate) :
    inst.Told position (turns ++ [turn]) := by
  obtain ⟨hprepared, hreleases⟩ := Turn.prepared?_of_no_request hnone
  refine h.served ?_ ?_
  · rw [hprepared, hreleases]
    exact hsame.1
  · rw [hprepared]
    exact hsame.2

end Instance

namespace Rack
variable {rack : Rack} {position : Nat} {inst : Instance} {turns : List Turn}

/-- In every session the chronicle tells how the instance at a position is prepared. -/
theorem Chronicle.told (h : Chronicle turns rack) (hinst : rack.instance? position = some inst) :
    inst.Told position turns := by
  induction h generalizing inst with
  | start => cases hinst
  | @next turns rack action done hpast hdone ih =>
    cases comes_of_act hdone hinst with
    | created hposition =>
      have hnone : ∀ turn ∈ turns, turn.requestAt position = none := fun turn hturn =>
        requestAt_eq_none (hpast.not_addressed (Nat.le_of_eq hposition.symm) turn hturn)
      exact (Instance.told_fresh hnone).kept rfl ⟨rfl, rfl⟩
    | @served request old _ hold hresult =>
      obtain ⟨hformat, hrate⟩ := old.format_serve rack.environment request
      have hrequest : Turn.requestAt position ⟨rack, .request position request, done⟩ =
          some request := if_pos rfl
      refine (ih hold).served ?_ ?_
      · rw [hformat, Turn.releases, Turn.prepared?, hrequest, hresult]
        rfl
      · rw [hrate, Turn.prepared?, hrequest, hresult]
        rfl
    | performed hold => exact (ih hold).kept rfl (Instance.format_perform _ _ _ _ _)
    | opened hold => exact (ih hold).kept rfl ⟨rfl, rfl⟩
    | kept hold haction => exact (ih hold).kept (requestAt_eq_none haction) ⟨rfl, rfl⟩

/-! ## What hosts are told -/

/-- Running a block succeeds exactly if the block can be run, and fails with what is wrong
with it. -/
theorem act_perform_result (hinst : rack.instance? position = some inst) (size : Nat)
    (inputs outputs : List Block) :
    ∃ done, rack.act (.perform position size inputs outputs) = some done ∧
      ((∃ blocks, done.result = .ok (.outputs blocks)) ↔
        inst.checkBlock size inputs outputs = .ok ()) ∧
      ∀ failure, done.result = .error failure ↔
        inst.checkBlock size inputs outputs = .error failure := by
  refine ⟨_, congrArg (Option.map _) (perform_eq hinst size inputs outputs), ?_⟩
  cases hcheck : inst.checkBlock size inputs outputs with
  | error failure =>
    simp [Outcome.view, Instance.perform_eq_of_error hcheck, Except.map]
  | ok => simp [Outcome.view, Instance.perform_eq_of_ok hcheck, Instance.block, Except.map]

/-- An instance can be prepared for the formats within the limits, and nothing changes if it
is not. -/
theorem act_prepare (hinst : rack.instance? position = some inst) (format : AudioFormat) :
    ∃ done, rack.act (.request position (.prepare format)) = some done ∧
      (done.result = .ok .done ↔ format.validate = .ok ()) ∧
      ∀ failure, done.result = .error failure → done.state = rack := by
  obtain ⟨done, hdone⟩ : ∃ done, rack.act (.request position (.prepare format)) = some done :=
    ⟨_, congrArg (Option.map _) hinst⟩
  have hresult : done.result = (inst.prepare format).result.map fun _ => .done := by
    obtain ⟨same, hsame, rfl⟩ := Option.map_eq_some_iff.mp hdone
    obtain rfl : inst = same := Option.some.inj (hinst.symm.trans hsame)
    rfl
  refine ⟨done, hdone, ?_, ?_⟩
  · rw [hresult]
    cases hvalid : format.validate <;> simp [Instance.prepare, hvalid, Except.map]
  · intro failure hfail
    have hprepare := map_eq_error (hresult.symm.trans hfail)
    let process : Process := ⟨rack, .initial, []⟩
    have hact : process.rack.act ((Operation.prepare format).action position process.outputs) =
        some done := hdone
    obtain ⟨-, -, ⟨hstate, -⟩, -⟩ := Operation.of_error hact hfail
    rwa [AudioFormat.afterFailure_of_validate (Instance.validate_of_error hprepare)] at hstate

theorem isLog_of_release : ∀ call ∈ inst.release.2, call.isLog := by
  intro call hcall
  simp only [Instance.release] at hcall
  split at hcall
  · rw [List.mem_singleton.mp hcall]
    rfl
  · cases hcall

/-- Releasing again changes nothing and tells nobody. -/
theorem act_release_of_released (hinst : rack.instance? position = some inst)
    (hreleased : inst.release = (inst, [])) :
    rack.act (.request position .release) = some rack.settled := by
  obtain ⟨done, hdone⟩ : ∃ done, rack.act (.request position .release) = some done :=
    ⟨_, congrArg (Option.map _) hinst⟩
  obtain ⟨same, hsame, heq⟩ := Option.map_eq_some_iff.mp hdone
  obtain rfl : inst = same := Option.some.inj (hinst.symm.trans hsame)
  obtain ⟨hstate, -⟩ := act_request_of_same hdone hinst
    (congrArg (Prod.mk rack.environment) (congrArg Prod.fst hreleased))
    (fun call hcall => isLog_of_release call hcall)
  have hcalls : done.calls = [] :=
    (congrArg Outcome.calls heq.symm).trans (congrArg Prod.snd hreleased)
  have hresult : done.result = .ok .done := congrArg Outcome.result heq.symm
  rw [hdone]
  cases done
  cases hstate
  cases hcalls
  cases hresult
  rfl

/-- Releasing over and over is the same as releasing once. -/
theorem act_release (hinst : rack.instance? position = some inst) :
    ∃ done, rack.act (.request position .release) = some done ∧ done.result = .ok .done ∧
      ∀ count, rack.session (List.replicate (count + 1) (.request position .release)) =
        some done.state := by
  obtain ⟨done, hdone⟩ : ∃ done, rack.act (.request position .release) = some done :=
    ⟨_, congrArg (Option.map _) hinst⟩
  obtain ⟨same, hsame, heq⟩ := Option.map_eq_some_iff.mp hdone
  obtain rfl : inst = same := Option.some.inj (hinst.symm.trans hsame)
  have hstate : done.state = rack.setInstance position inst.release.1 := by
    rw [← heq]
    exact record_of_isLog isLog_of_release
  have hreleased : done.state.instance? position = some inst.release.1 := by
    rw [hstate]
    exact instance?_of_live_set hinst (live_setInstance hinst _)
  have hagain := act_release_of_released hreleased (Instance.release_release inst)
  have hreplicate : ∀ count,
      done.state.session (List.replicate count (.request position .release)) =
        some done.state := by
    intro count
    induction count with
    | zero => rfl
    | succ count ih =>
      rw [List.replicate_succ, session, hagain, Option.bind_some]
      exact ih
  refine ⟨done, hdone, congrArg Outcome.result heq.symm, fun count => ?_⟩
  rw [List.replicate_succ, session, hdone, Option.bind_some]
  exact hreplicate count

/-- In every session, blocks are run exactly by the preparation that is in force: the latest
successful one, unless a release has come after it. Anything else that is asked of a block is
turned away in a fixed order. A preparation that is turned away changes nothing, releasing
over and over is releasing once, and the sample rate outlasts releases. -/
theorem Chronicle.lifecycle (h : Chronicle turns rack)
    (hinst : rack.instance? position = some inst) :
    (∀ format, inst.engine.format = some format ↔ InForce position turns format) ∧
      (∀ size inputs outputs, ∃ done,
        rack.act (.perform position size inputs outputs) = some done ∧
          ((∃ blocks, done.result = .ok (.outputs blocks)) ↔
            ∃ format, InForce position turns format ∧ size = format.blockSize ∧
              ∀ block ∈ inputs ++ outputs, size ≤ block.length) ∧
          ∀ failure, done.result = .error failure ↔
            Rejection (InForce position turns) size inputs outputs failure) ∧
      (∀ format : AudioFormat, ∃ done,
        rack.act (.request position (.prepare format)) = some done ∧
          (done.result = .ok .done ↔
            0 < format.sampleRate ∧ (0 < format.blockSize ∧ format.blockSize ≤ maxBlockSize) ∧
              format.inputs ≤ maxChannels ∧ format.outputs ≤ maxChannels) ∧
          ∀ failure, done.result = .error failure → done.state = rack) ∧
      (∃ done, rack.act (.request position .release) = some done ∧ done.result = .ok .done ∧
        ∀ count, rack.session (List.replicate (count + 1) (.request position .release)) =
          some done.state) ∧
      inst.sampleRate = latestRate position turns := by
  have htold := h.told hinst
  refine ⟨htold.format_iff, ?_, ?_, act_release hinst, htold.sampleRate_eq⟩
  · intro size inputs outputs
    obtain ⟨done, hdone, hok, herror⟩ := act_perform_result hinst size inputs outputs
    refine ⟨done, hdone, hok.trans ?_, fun failure =>
      (herror failure).trans (Instance.checkBlock_eq_error_iff htold.format_iff)⟩
    rw [Instance.checkBlock_eq_ok_iff]
    constructor
    · rintro ⟨format, hprepared, hsize, hinputs, houtputs⟩
      refine ⟨format, (htold.format_iff format).mp hprepared, hsize, ?_⟩
      intro block hblock
      exact (List.mem_append.mp hblock).elim (hinputs block) (houtputs block)
    · rintro ⟨format, hforce, hsize, hlong⟩
      exact ⟨format, (htold.format_iff format).mpr hforce, hsize,
        fun block hblock => hlong block (List.mem_append_left _ hblock),
        fun block hblock => hlong block (List.mem_append_right _ hblock)⟩
  · intro format
    rw [← AudioFormat.validate_eq_ok_iff]
    exact act_prepare hinst format

end Rack

/-- An instance is prepared, prepared in vain, released twice and prepared again. -/
def reprepared : List HostAction :=
  [.create none,
    .request 0 (.prepare { sampleRate := 48000, blockSize := 32 }),
    .request 0 (.prepare { blockSize := 0 }),
    .request 0 .release,
    .request 0 .release,
    .request 0 (.prepare { sampleRate := 22050, blockSize := 4 }),
    .request 0 (.prepare { inputs := 65 })]

/-- The last preparation that was not turned away is in force. -/
theorem Rack.Chronicle.lifecycle_reprepared :
    ∃ turns, ∃ rack : Rack, ∃ inst, Chronicle turns rack ∧ rack.instance? 0 = some inst ∧
      InForce 0 turns { sampleRate := 22050, blockSize := 4 } ∧ inst.sampleRate = 22050 ∧
      ∃ done, rack.act (.perform 0 4 [[1, 2, 3, 4], [1, 2, 3]] []) = some done ∧
        done.result = .error (.bufferTooShort 1 4 3) := by
  have hsession : (({} : Rack).session reprepared).any (fun rack =>
      (rack.instance? 0).any fun inst => decide
        (inst.engine.format = some { sampleRate := 22050, blockSize := 4 } ∧
          inst.sampleRate = 22050)) = true := by
    decide
  obtain ⟨rack, hrack, hfound⟩ := (Option.any_eq_true _ _).mp hsession
  obtain ⟨inst, hinst, hprepared⟩ := (Option.any_eq_true _ _).mp hfound
  obtain ⟨hformat, hrate⟩ := of_decide_eq_true hprepared
  have hchronicle : Chronicle _ rack := Chronicle.start.session hrack
  obtain ⟨hforce, hperform, -⟩ := hchronicle.lifecycle hinst
  have hin := (hforce _).mp hformat
  obtain ⟨done, hdone, -, hfails⟩ := hperform 4 [[1, 2, 3, 4], [1, 2, 3]] []
  refine ⟨_, rack, inst, hchronicle, hinst, hin, hrate, done, hdone, (hfails _).mpr ?_⟩
  refine .input hin rfl ⟨[1, 2, 3], rfl, rfl, by decide, ?_⟩
  intro earlier hearlier other hother
  obtain rfl : earlier = 0 := Nat.lt_one_iff.mp hearlier
  cases hother
  decide

end Patchbay
