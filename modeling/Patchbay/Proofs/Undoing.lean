import Mathlib.Data.List.Forall2
import Patchbay.Proofs.Draining
import Patchbay.Proofs.Loading
import Patchbay.Proofs.Reissuing

/-!
# Closing undoes loading

A patch that is loaded and closed again leaves the instance one use of a slot ahead, and
nothing else. Whatever a host does from then on, it gets what it would have got had only the
number of the patch been used up, except that the handles of later loads into that slot are
one generation further.

## Implementation notes

The two sessions are compared action by action. Where a host hands in a handle that a later
load has given out, it hands in the reissued one in the other session.
-/

namespace Patchbay

/-! ## Racks -/

/-- The same action, with a reissued handle if it hands one to the instance at a position. -/
def HostAction.reissue (position : Nat) (undone : PatchId) (loads : Nat) :
    HostAction → HostAction
  | .request target asked =>
    .request target (if target = position then asked.reissue undone loads else asked)
  | action => action

/-- Whether an action loads a patch into the instance at a position. -/
def HostAction.isLoadAt (position : Nat) : HostAction → Bool
  | .request target asked => target == position && asked.isLoad
  | _ => false

theorem HostAction.isLoadAt_request (position : Nat) (asked : Request) :
    (HostAction.request position asked).isLoadAt position = asked.isLoad := by
  simp [isLoadAt]

theorem HostAction.reissue_request (position : Nat) (asked : Request) (undone : PatchId)
    (loads : Nat) :
    (HostAction.request position asked).reissue position undone loads =
      .request position (asked.reissue undone loads) := by
  rw [reissue, if_pos rfl]

theorem HostAction.isLoadAt_eq_false {position : Nat} {action : HostAction}
    (h : ∀ request, action ≠ .request position request) : action.isLoadAt position = false := by
  cases action with
  | request target asked =>
    have hne : target ≠ position := fun heq => h asked (heq ▸ rfl)
    simp [isLoadAt, hne]
  | _ => rfl

theorem HostAction.reissue_of_ne {position : Nat} {action : HostAction}
    (h : ∀ request, action ≠ .request position request) (undone : PatchId) (loads : Nat) :
    action.reissue position undone loads = action := by
  cases action with
  | request target asked =>
    have hne : target ≠ position := fun heq => h asked (heq ▸ rfl)
    rw [reissue, if_neg hne]
  | _ => rfl

namespace Rack
variable {rack : Rack} {position : Nat} {undone : PatchId} {count loads : Nat} {engine : Engine}

/-- The instance at a position, if it is alive, is one use of a slot behind what it would be with
another engine. -/
structure Behind (position : Nat) (undone : PatchId) (count : Nat) (engine : Engine)
    (rack : Rack) : Prop where
  made : position < rack.live.length
  ahead : ∀ inst, rack.instance? position = some inst → inst.engine.Ahead undone.slot engine
  usedSince : ∀ inst, rack.instance? position = some inst →
    inst.engine.slots.UsedSince undone count

theorem behind_of_instance {inst : Instance} (hinst : rack.instance? position = some inst)
    (hahead : inst.engine.Ahead undone.slot engine)
    (hused : inst.engine.slots.UsedSince undone count) :
    rack.Behind position undone count engine := by
  refine ⟨lt_length_of_instance? hinst, ?_, ?_⟩
  · intro found hfound
    cases hinst.symm.trans hfound
    exact hahead
  · intro found hfound
    cases hinst.symm.trans hfound
    exact hused

/-- An action had the same outcome, but for the handle of a load, and the racks go on alike. -/
structure Follows (position : Nat) (undone : PatchId) (count loads : Nat) (action : HostAction)
    (done other : Outcome Rack Reply) : Prop where
  state : ∃ engine, other.state = done.state.withEngine position engine ∧
    done.state.Behind position undone count engine
  calls_eq : other.calls = done.calls
  result_eq : other.result =
    if action.isLoadAt position then done.result.map (Reply.reissue undone loads) else done.result

/-- Instances that are alike are put back into racks that are alike. -/
theorem follows_of_setInstance (engine : Engine) {inst new new' : Instance}
    (hinst : rack.instance? position = some inst) (hnew : new.Ahead undone.slot new')
    (hused : new.engine.slots.UsedSince undone count) {calls calls' : List Call}
    (hcalls : calls' = calls) {result result' : Except Failure Reply} {action : HostAction}
    (hresult : result' =
      if action.isLoadAt position then result.map (Reply.reissue undone loads) else result) :
    Follows position undone count loads action
      ⟨(rack.setInstance position new).record calls, calls, result⟩
      ⟨((rack.withEngine position engine).setInstance position new').record calls', calls',
        result'⟩ := by
  subst hcalls
  have hput : ((rack.setInstance position new).record calls').instance? position = some new :=
    instance?_setInstance hinst new
  refine ⟨⟨new'.engine, ?_, behind_of_instance hput hnew.engine hused⟩, rfl, hresult⟩
  have hswap := rack.setInstance_withEngine position engine new new'.engine
  rw [← hnew.eq_withEngine] at hswap
  exact congrArg (fun after : Rack => after.record calls') hswap

/-- A request is handed to the instance with a reissued handle. -/
theorem Behind.act_request (h : rack.Behind position undone count engine) (hcount : count ≤ loads)
    (request : Request) :
    Option.Rel
      (Follows position undone (count + if request.isLoad then 1 else 0) loads
        (.request position request))
      (rack.act (.request position request))
      ((rack.withEngine position engine).act
        (.request position (request.reissue undone loads))) := by
  simp only [act, run]
  rw [instance?_withEngine]
  cases hinst : rack.instance? position with
  | none => exact .none
  | some inst =>
    have hahead : inst.Ahead undone.slot (inst.withEngine engine) := ⟨rfl, h.ahead inst hinst⟩
    have hused := h.usedSince inst hinst
    have hanswers := hahead.serve hused hcount rack.environment request
    have hafter := Instance.usedSince_serve (h.ahead inst hinst).reachable hused rack.environment
      request
    let numbered : Rack :=
      { rack with environment := (inst.serve rack.environment request).state.1 }
    have hnumbered : numbered.instance? position = some inst := hinst
    have hresult := hanswers.result_eq
    rw [← HostAction.isLoadAt_request position request] at hresult
    have hfollows := follows_of_setInstance engine hnumbered hanswers.inst hafter
      hanswers.calls_eq hresult
    simp only [Option.map_some, environment_withEngine, hanswers.environment_eq]
    exact .some hfollows

theorem live_drain (rack : Rack) (taken : Bool) (inst : Instance) :
    (if taken then rack.drain inst else rack).live = rack.live := by
  cases taken with
  | false => rfl
  | true =>
    simp only [↓reduceIte, drain]
    cases inst.queue <;> rfl

/-- The instance takes the same commands and runs the same block. -/
theorem Behind.act_perform (h : rack.Behind position undone count engine) (size : Nat)
    (inputs outputs : List Block) :
    Option.Rel (Follows position undone count loads (.perform position size inputs outputs))
      (rack.act (.perform position size inputs outputs))
      ((rack.withEngine position engine).act (.perform position size inputs outputs)) := by
  have hinstance := rack.instance?_withEngine position engine
  cases hinst : rack.instance? position with
  | none =>
    rw [hinst] at hinstance
    simp only [act, perform, hinst, hinstance]
    exact .none
  | some inst =>
    rw [hinst, Option.map_some] at hinstance
    have hengine := h.ahead inst hinst
    have hahead : inst.Ahead undone.slot (inst.withEngine engine) := ⟨rfl, hengine⟩
    have hmatches := hahead.perform (rack.pending inst) size inputs outputs
    have hafter := (h.usedSince inst hinst).of_outline
      (Instance.outline_perform hengine.reachable (rack.pending inst) size inputs outputs)
    let done := inst.perform (rack.pending inst) size inputs outputs
    have hlive := rack.live_drain done.result.isOk inst
    have hdrained := (instance?_of_live_eq hlive position).trans hinst
    have hpending : (rack.withEngine position engine).pending (inst.withEngine engine) =
        rack.pending inst := rfl
    have hsame : done.result.map .outputs =
        if (HostAction.perform position size inputs outputs).isLoadAt position then
          (done.result.map Reply.outputs).map (Reply.reissue undone loads)
        else done.result.map Reply.outputs := rfl
    have hfollows := follows_of_setInstance engine hdrained hmatches.inst hafter
      hmatches.calls_eq hsame
    simp only [act, perform_eq hinst, perform_eq hinstance, Option.map_some, hpending,
      hmatches.result_eq]
    rw [← drain_withEngine] at hfollows
    exact .some hfollows

/-- An action that passes nothing on to the engine. -/
theorem Behind.act_other (h : rack.Behind position undone count engine) {action : HostAction}
    (hrequest : ∀ request, action ≠ .request position request)
    (hperform : ∀ size inputs outputs, action ≠ .perform position size inputs outputs) :
    Option.Rel (Follows position undone count loads action) (rack.act action)
      ((rack.withEngine position engine).act action) := by
  have hmade : position < rack.instances.length := by simpa [live] using h.made
  rw [act_withEngine rack position engine hmade hrequest hperform]
  cases hdone : rack.act action with
  | none => exact .none
  | some done =>
    have hengine (inst : Instance) (hinst : done.state.instance? position = some inst) :
        ∃ old, rack.instance? position = some old ∧ inst.engine = old.engine := by
      cases comes_of_act hdone hinst with
      | created hposition => exact absurd hposition (Nat.ne_of_lt h.made)
      | served hold hresult => exact absurd rfl (hrequest _)
      | performed hold hresult => exact absurd rfl (hperform _ _ _)
      | opened hold => exact ⟨_, hold, rfl⟩
      | kept hold haction => exact ⟨inst, hold, rfl⟩
    refine .some ⟨⟨engine, rfl, ?_, ?_, ?_⟩, rfl, ?_⟩
    · exact Nat.lt_of_lt_of_le h.made (act_changes hdone).length_le
    · intro inst hinst
      obtain ⟨old, hold, heq⟩ := hengine inst hinst
      exact heq ▸ h.ahead old hold
    · intro inst hinst
      obtain ⟨old, hold, heq⟩ := hengine inst hinst
      exact heq ▸ h.usedSince old hold
    · rw [HostAction.isLoadAt_eq_false hrequest]
      rfl

/-- Every action has the same outcome, and the racks go on alike. -/
theorem Behind.act (h : rack.Behind position undone count engine) (hcount : count ≤ loads)
    (action : HostAction) :
    Option.Rel
      (Follows position undone (count + if action.isLoadAt position then 1 else 0) loads action)
      (rack.act action)
      ((rack.withEngine position engine).act (action.reissue position undone loads)) := by
  by_cases hrequest : ∃ request, action = .request position request
  · obtain ⟨request, rfl⟩ := hrequest
    rw [HostAction.isLoadAt_request, HostAction.reissue_request]
    exact h.act_request hcount request
  · have hother := not_exists.mp hrequest
    rw [HostAction.isLoadAt_eq_false hother, HostAction.reissue_of_ne hother]
    by_cases hperform : ∃ size inputs outputs, action = .perform position size inputs outputs
    · obtain ⟨size, inputs, outputs, rfl⟩ := hperform
      exact h.act_perform size inputs outputs
    · simp only [not_exists] at hperform
      exact h.act_other hother hperform

/-! ### Whole sessions -/

end Rack

/-- All that a host can ask about an instance is the same, but for reissued handles. -/
structure Instance.Resembles (undone : PatchId) (loads : Nat) (inst other : Instance) : Prop where
  id_eq : other.id = inst.id
  hooks_eq : other.hooks = inst.hooks
  queue_eq : other.queue = inst.queue
  extension_eq : other.extension = inst.extension
  sampleRate_eq : other.sampleRate = inst.sampleRate
  format_eq : other.engine.format = inst.engine.format
  patch?_eq : ∀ id, other.patch? (id.reissue undone loads) = inst.patch? id
  patches_eq : other.engine.slots.patches =
    inst.engine.slots.patches.map fun entry => (entry.1.reissue undone loads, entry.2)
  patchCount_eq : other.engine.slots.patchCount = inst.engine.slots.patchCount

/-- All that a host can ask about a rack is the same, but for reissued handles of the instance at
a position. -/
structure Rack.Resembles (position : Nat) (undone : PatchId) (loads : Nat) (rack other : Rack) :
    Prop where
  environment_eq : other.environment = rack.environment
  current_eq : other.current = rack.current
  queues_eq : other.queues = rack.queues
  histories_eq : other.histories = rack.histories
  length_eq : other.instances.length = rack.instances.length
  handles_eq : ∀ index, other.handles index = rack.handles index
  others_eq : ∀ index, index ≠ position → other.instance? index = rack.instance? index
  here : Option.Rel (Instance.Resembles undone loads) (rack.instance? position)
    (other.instance? position)

/-- A turn that another one resembles: the action hands in a reissued handle if it hands one in,
the sinks receive the same calls, and the reply is the same but for the handle of a load. -/
structure Turn.Resembles (position : Nat) (undone : PatchId) (loads : Nat) (turn other : Turn) :
    Prop where
  before : turn.before.Resembles position undone loads other.before
  action_eq : other.action = turn.action.reissue position undone loads
  calls_eq : other.done.calls = turn.done.calls
  result_eq : other.done.result =
    if turn.action.isLoadAt position then turn.done.result.map (Reply.reissue undone loads)
    else turn.done.result
  after : turn.done.state.Resembles position undone loads other.done.state

theorem Instance.resembles_withEngine {inst : Instance} {engine : Engine} {undone : PatchId}
    {count loads : Nat} (h : inst.engine.Ahead undone.slot engine)
    (hused : inst.engine.slots.UsedSince undone count) (hcount : count ≤ loads) :
    inst.Resembles undone loads (inst.withEngine engine) where
  id_eq := rfl
  hooks_eq := rfl
  queue_eq := rfl
  extension_eq := rfl
  sampleRate_eq := rfl
  format_eq := h.format_eq
  patch?_eq := hused.patch?_reissue hcount h.slots
  patches_eq := by
    refine h.slots.patches_eq.trans (List.map_congr_left ?_)
    rintro ⟨id, patch⟩ hmem
    rw [hused.reissue_eq_shift hcount (Slots.mem_patches_iff_patch?.mp hmem)]
  patchCount_eq := h.slots.patchCount_eq

namespace Rack
variable {rack : Rack} {position : Nat} {undone : PatchId} {count loads : Nat} {engine : Engine}

theorem Behind.resembles (h : rack.Behind position undone count engine) (hcount : count ≤ loads) :
    rack.Resembles position undone loads (rack.withEngine position engine) where
  environment_eq := rfl
  current_eq := rfl
  queues_eq := rfl
  histories_eq := rfl
  length_eq := List.length_modify ..
  handles_eq := rack.handles_withEngine position engine
  others_eq := fun _ hne => rack.instance?_withEngine_of_ne position engine hne
  here := by
    rw [instance?_withEngine]
    cases hinst : rack.instance? position with
    | none => exact .none
    | some inst =>
      have hused := h.usedSince inst hinst
      exact .some (Instance.resembles_withEngine (h.ahead inst hinst) hused hcount)

/-- A session goes on alike, turn by turn. -/
theorem Behind.turns (h : rack.Behind position undone count engine) {actions : List HostAction}
    (hloads : count + actions.countP (HostAction.isLoadAt position) ≤ loads) :
    List.Forall₂ (Turn.Resembles position undone loads) (rack.turns actions)
      ((rack.withEngine position engine).turns
        (actions.map (HostAction.reissue position undone loads))) := by
  induction actions generalizing rack engine count with
  | nil => exact .nil
  | cons action rest ih =>
    rw [List.countP_cons] at hloads
    have hcount : count ≤ loads := Nat.le_trans (Nat.le_add_right ..) hloads
    have hbefore := h.resembles hcount
    have hstep := h.act hcount action
    simp only [List.map_cons, Rack.turns]
    generalize (rack.withEngine position engine).act (action.reissue position undone loads) =
      answer at hstep
    cases hdone : rack.act action with
    | none =>
      rw [hdone] at hstep
      cases hstep
      exact .nil
    | some done =>
      rw [hdone] at hstep
      cases hstep with
      | @some _ other hfollows =>
        obtain ⟨⟨next, hstate, hnext⟩, hcalls, hresult⟩ := hfollows
        have hrest : (count + if action.isLoadAt position then 1 else 0) +
            rest.countP (HostAction.isLoadAt position) ≤ loads := by omega
        have hafter := hnext.resembles (Nat.le_trans (Nat.le_add_right ..) hrest)
        rw [← hstate] at hafter
        refine .cons ⟨hbefore, rfl, hcalls, hresult, hafter⟩ ?_
        rw [hstate]
        exact ih hnext hrest

end Rack

/-! ## Loading and closing -/

/-- The rack after a number has been used up and some calls have been made. -/
def Rack.numbered (rack : Rack) (calls : List Call) : Rack :=
  { rack with environment := rack.environment.numbered }.record calls

theorem Environment.readPatchFile_of_ok {environment : Environment} {path : String}
    {read : Patch × List String} (h : (environment.readPatchFile path).2 = .ok read) :
    (environment.readPatchFile path).1 = environment.numbered := by
  unfold readPatchFile at h ⊢
  split
  · rfl
  · rename_i htext
    rw [htext] at h
    cases h

/-- Nothing fires where there is nothing to fire. -/
theorem Engine.loadbang_of_nil {engine : Engine} {id : PatchId} (h : engine.loadbangs id = []) :
    engine.loadbang id = (engine, []) := by
  rw [Engine.loadbang, h]
  rfl

theorem Engine.loadbangs_eq_nil {engine : Engine} {id : PatchId} {patch : Patch}
    (hpatch : engine.slots.patch? id = some patch)
    (hplain : ∀ object ∈ patch.objects, object.node.isLoadbang = false) :
    engine.loadbangs id = [] := by
  simp only [loadbangs, hpatch]
  rw [List.map_eq_nil_iff, List.filter_eq_nil_iff]
  rintro ⟨object, index⟩ hmem
  simp [hplain object (List.fst_mem_of_mem_zipIdx hmem)]

/-- A patch that has been opened can be closed, and the engine is one use of a slot ahead. -/
theorem Engine.Reachable.remove?_insert {engine : Engine} (h : engine.Reachable) (patch : Patch) :
    ∃ rest, (engine.insert patch).1.rebuildChain.1.remove? (engine.insert patch).2 =
        some (patch, rest) ∧
      engine.Ahead (engine.insert patch).2.slot rest.rebuildChain.1 := by
  let opened := (engine.insert patch).1.rebuildChain.1
  obtain ⟨slots, hremoved⟩ : ∃ slots,
      (engine.slots.insert patch).1.remove? (engine.slots.insert patch).2 = some (patch, slots) :=
    ⟨_, Slots.remove?_eq_some_iff.mpr ⟨engine.slots.patch?_insert patch, rfl⟩⟩
  have hslots : opened.slots = (engine.slots.insert patch).1 := Engine.slots_rebuildChain _
  have hclosed : opened.remove? (engine.insert patch).2 = some (patch, opened.withSlots slots) := by
    rw [Engine.remove?, hslots]
    exact congrArg (Option.map _) hremoved
  refine ⟨_, hclosed, h, (h.openPatch patch).closePatch hclosed, ?_, ?_⟩
  · rw [Engine.slots_rebuildChain]
    exact Slots.ahead_of_remove hremoved
  · rw [Engine.format_rebuildChain]
    exact Engine.format_rebuildChain _

/-- Closing what has just been loaded succeeds, and leaves the instance one use of a slot
ahead. -/
theorem Instance.close_of_load {inst : Instance} (h : inst.engine.Reachable)
    {environment : Environment} {name directory : String} {id : PatchId} {patch : Patch}
    (hload : (inst.load environment name directory).result = .ok id)
    (hpatch : environment.patchNamed? name directory = some patch)
    (hplain : ∀ object ∈ patch.objects, object.node.isLoadbang = false) :
    (inst.load environment name directory).state.1 = environment.numbered ∧
      ((inst.load environment name directory).state.2.close id).result = .ok () ∧
      ∃ engine,
        ((inst.load environment name directory).state.2.close id).state =
          inst.withEngine engine ∧
        inst.engine.Ahead id.slot engine ∧ inst.engine.slots.UsedSince id 0 := by
  obtain ⟨path, read, diagnostics, logged, hpath, hread, rfl, hstate, -⟩ :=
    exists_read_of_load hload
  obtain rfl : read = patch :=
    Option.some.inj ((Environment.patchNamed?_eq hpath hread).symm.trans hpatch)
  let opened := (inst.engine.insert read).1.rebuildChain.1
  have hfound : opened.slots.patch? (inst.engine.insert read).2 = some read := by
    rw [Engine.slots_rebuildChain]
    exact inst.engine.slots.patch?_insert read
  have hquiet := Engine.loadbang_of_nil (Engine.loadbangs_eq_nil hfound hplain)
  have hsettled : (inst.openPatch read diagnostics).1 =
      inst.withEngine (opened.loadbang (inst.engine.insert read).2).1 := rfl
  rw [hquiet] at hsettled
  obtain ⟨rest, hclosed, hahead⟩ := h.remove?_insert read
  have hclose : ((inst.withEngine opened).close (inst.engine.insert read).2) =
      { state := inst.withEngine rest.rebuildChain.1
        calls := inst.hooks.run inst.id rest.rebuildChain.2 ++
          [inst.logLine .info ("closed patch " ++ read.name)]
        result := .ok () } := by
    have hremoved : (inst.withEngine opened).engine.remove? (inst.engine.insert read).2 =
        some (read, rest) := hclosed
    simp only [close, hremoved]
    rfl
  rw [hstate, hsettled]
  have hid : (inst.openPatch read diagnostics).2.2 = (inst.engine.insert read).2 := rfl
  rw [hid, hclose]
  exact ⟨Environment.readPatchFile_of_ok hread, rfl, _, rfl, hahead,
    Slots.usedSince_insert _ read⟩

/-- The handles that a session has given out before are the same in both sessions, unless the
handles of later loads come round to them. -/
theorem Rack.Chronicle.reissue_of_handed {turns : List Turn} {rack : Rack} {position : Nat}
    (h : Rack.Chronicle turns rack) {inst : Instance} (hinst : rack.instance? position = some inst)
    {environment : Environment} {name directory : String} {undone : PatchId} {loads : Nat}
    (hload : (inst.load environment name directory).result = .ok undone)
    (hbound : ∀ slot, Slots.uses (handed position turns) slot + loads + 1 < 2 ^ 32) :
    ∀ id ∈ (handed position turns).map Prod.fst, id.reissue undone loads = id := by
  obtain ⟨path, patch, diagnostics, logged, -, -, rfl, -, -⟩ := Instance.exists_read_of_load hload
  have hkept := h.kept hinst fun slot => Nat.lt_of_le_of_lt (by omega) (hbound slot)
  intro id hid
  obtain ⟨entry, hentry, rfl⟩ := List.mem_map.mp hid
  obtain ⟨number, hnumber, hgeneration⟩ := hkept.numbered entry hentry
  apply PatchId.reissue_of_earlier
  intro hslot
  have hslots : entry.1.slot = inst.engine.slots.freeSlot := hslot
  have hnext : (inst.openPatch patch diagnostics).2.2.generation =
      UInt32.ofNat (Slots.uses (handed position turns) entry.1.slot + 1) := by
    rw [UInt32.ofNat_add, ← hkept.generationAt_eq, hslots]
    rfl
  refine ⟨number, _, hgeneration, hnext, Nat.lt_succ_of_le hnumber, ?_⟩
  have hfew := hbound entry.1.slot
  omega

theorem result_of_map_handle {result : Except Failure PatchId} {id : PatchId}
    (h : result.map Reply.handle = .ok (.handle id)) : result = .ok id := by
  cases result with
  | error failure => cases h
  | ok given =>
    cases h
    rfl

/-- Closing exactly undoes loading. A patch without objects that fire on loading is loaded and
closed again. However a session goes on from there, its turns are those of the same session
without the load, where only the number is used up. Sinks receive the same calls, blocks have the
same samples, replies are the same, and all that a host can ask is the same. Only the handles that
later loads give out for that slot are one generation further. -/
theorem Rack.Reachable.close_undoes_load {rack : Rack} (h : rack.Reachable) {position : Nat}
    {name directory : String} {loaded : Outcome Rack Reply} {id : PatchId} {patch : Patch}
    (hload : rack.act (.request position (.load name directory)) = some loaded)
    (hresult : loaded.result = .ok (.handle id))
    (hpatch : rack.environment.patchNamed? name directory = some patch)
    (hplain : ∀ object ∈ patch.objects, object.node.isLoadbang = false) :
    ∃ closed, loaded.state.act (.request position (.close id)) = some closed ∧
      closed.result = .ok .done ∧
      ∀ (actions : List HostAction) (loads : Nat),
        actions.countP (HostAction.isLoadAt position) ≤ loads →
          (rack.numbered (loaded.calls ++ closed.calls)).Resembles position id loads closed.state ∧
          List.Forall₂ (Turn.Resembles position id loads)
            ((rack.numbered (loaded.calls ++ closed.calls)).turns actions)
            (closed.state.turns (actions.map (HostAction.reissue position id loads))) := by
  obtain ⟨inst, hinst, rfl⟩ := Option.map_eq_some_iff.mp hload
  let done := inst.load rack.environment name directory
  have hdone : done.result = .ok id := result_of_map_handle hresult
  obtain ⟨henvironment, hclosed, engine, hclosedState, hahead, hused⟩ :=
    Instance.close_of_load (h.engine hinst) hdone hpatch hplain
  let opened := done.state.2
  let closed := opened.close id
  let calls := done.calls ++ closed.calls
  let numbered : Rack := { rack with environment := rack.environment.numbered }
  have hloaded : ({ rack with environment := done.state.1 } : Rack) = numbered :=
    congrArg (fun environment => { rack with environment }) henvironment
  have hnumbered : numbered.instance? position = some inst := hinst
  have hopened : ((numbered.setInstance position opened).record done.calls).instance? position =
      some opened := instance?_setInstance hnumbered opened
  have hstate : (((numbered.setInstance position opened).record done.calls).setInstance position
      closed.state).record closed.calls = (rack.numbered calls).withEngine position engine := by
    rw [setInstance_record, setInstance_setInstance, hclosedState,
      setInstance_eq_withEngine numbered position engine hnumbered, Rack.numbered, record_append]
    rfl
  have hreply : closed.result.map (fun _ => Reply.done) = .ok .done := by
    rw [hclosed]
    rfl
  have hact : ((numbered.setInstance position opened).record done.calls).act
      (.request position (.close id)) =
        some ⟨(rack.numbered calls).withEngine position engine, closed.calls, .ok .done⟩ := by
    rw [Rack.act, run, hopened, Option.map_some]
    exact congrArg₂ (fun (after : Rack) result =>
      some (⟨after, closed.calls, result⟩ : Outcome Rack Reply)) hstate hreply
  have hbehind : (rack.numbered calls).Behind position id 0 engine :=
    behind_of_instance hnumbered hahead hused
  rw [← hloaded] at hact
  refine ⟨_, hact, rfl, fun actions loads hloads => ⟨?_, ?_⟩⟩
  · exact hbehind.resembles (Nat.zero_le loads)
  · exact hbehind.turns ((Nat.zero_add _).symm ▸ hloads)

/-- Only a load that has succeeded has given out a handle. -/
theorem Request.result_of_loaded {request : Request} {result : Except Failure Reply} {id : PatchId}
    (h : request.loaded result = some id) : result = .ok (.handle id) := by
  unfold loaded at h
  split at h
  · cases h
    rfl
  · cases h

/-- A session with a prepared instance in which a slot has been used once. -/
def reloading : List HostAction :=
  [.create none,
    .setFiles
      { entries := [(["drone.pd"], .file (.text (
          "#N canvas 0 0 9 9 10;\n#X obj 0 0 sig~ 0.5;\n#X obj 0 0 dac~;\n" ++
          "#X connect 0 0 1 0;\n")))] },
    .request 0 (.prepare {}),
    .request 0 (.load "/drone.pd" ""),
    .request 0 (.close ⟨0, 1⟩)]

/-- What a host does then: it loads a patch, closes the one of the old handle, which is out of use,
runs a block, and closes the one of the handle that it has got. -/
def droning (given : PatchId) : List HostAction :=
  [.request 0 (.load "/drone.pd" ""), .request 0 (.close ⟨0, 1⟩),
    .perform 0 64 silentStereo silentStereo, .request 0 (.close given)]

/-- With and without a load that is undone the session goes through, and the handles that are
given out are `0.3` and `0.2`. -/
theorem close_undoes_load_reloading :
    ∃ (rack : Rack) (loaded closed : Outcome Rack Reply), rack.Reachable ∧
      rack.act (.request 0 (.load "/drone.pd" "")) = some loaded ∧
      loaded.result = .ok (.handle ⟨0, 2⟩) ∧
      loaded.state.act (.request 0 (.close ⟨0, 2⟩)) = some closed ∧
      let numbered := rack.numbered (loaded.calls ++ closed.calls)
      (numbered.turns (droning ⟨0, 2⟩)).length = 4 ∧
      (numbered.turns (droning ⟨0, 2⟩)).filterMap (Turn.loaded 0) = [⟨0, 2⟩] ∧
      (closed.state.turns (droning ⟨0, 3⟩)).filterMap (Turn.loaded 0) = [⟨0, 3⟩] ∧
      List.Forall₂ (Turn.Resembles 0 ⟨0, 2⟩ 1) (numbered.turns (droning ⟨0, 2⟩))
        (closed.state.turns (droning ⟨0, 3⟩)) := by
  have hsession : (({} : Rack).session reloading).any (fun rack =>
      (rack.act (.request 0 (.load "/drone.pd" ""))).any fun loaded =>
      (loaded.state.act (.request 0 (.close ⟨0, 2⟩))).any fun closed =>
      let numbered := rack.numbered (loaded.calls ++ closed.calls)
      (rack.environment.patchNamed? "/drone.pd" "").any fun patch => decide (
        (Request.load "/drone.pd" "").loaded loaded.result = some ⟨0, 2⟩ ∧
        (∀ object ∈ patch.objects, object.node.isLoadbang = false) ∧
        (numbered.turns (droning ⟨0, 2⟩)).length = 4 ∧
        (numbered.turns (droning ⟨0, 2⟩)).filterMap (Turn.loaded 0) = [⟨0, 2⟩] ∧
        (closed.state.turns (droning ⟨0, 3⟩)).filterMap (Turn.loaded 0) = [⟨0, 3⟩])) = true := by
    decide +kernel
  obtain ⟨rack, hrack, hloads⟩ := (Option.any_eq_true _ _).mp hsession
  obtain ⟨loaded, hloaded, hcloses⟩ := (Option.any_eq_true _ _).mp hloads
  obtain ⟨closed, hclosed, hreads⟩ := (Option.any_eq_true _ _).mp hcloses
  obtain ⟨patch, hpatch, hfacts⟩ := (Option.any_eq_true _ _).mp hreads
  obtain ⟨hgiven, hplain, hlength, hfirst, hsecond⟩ := of_decide_eq_true hfacts
  have hresult := Request.result_of_loaded hgiven
  obtain ⟨found, hfound, -, hundone⟩ :=
    (Rack.Reachable.fresh.session hrack).close_undoes_load hloaded hresult hpatch hplain
  obtain rfl : closed = found := Option.some.inj (hclosed.symm.trans hfound)
  have hreissued : (droning ⟨0, 2⟩).map (HostAction.reissue 0 ⟨0, 2⟩ 1) = droning ⟨0, 3⟩ := rfl
  have hturns := (hundone (droning ⟨0, 2⟩) 1 (by decide)).2
  rw [hreissued] at hturns
  exact ⟨rack, loaded, closed, Rack.Reachable.fresh.session hrack, hloaded, hresult, hclosed,
    hlength, hfirst, hsecond, hturns⟩

end Patchbay
