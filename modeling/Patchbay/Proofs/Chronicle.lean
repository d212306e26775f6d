import Mathlib.Data.List.Basic
import Patchbay.Proofs.Session

/-!
# Chronicles

A chronicle is a session with all that was seen on the way: every action, the rack that
it met and its outcome. What an action can do to the instances and to the queues is said
once, so what a whole session does to one of them is told turn by turn.

## Implementation notes

Instances are told by their positions. An instance that is gone leaves its position
empty, and a new one gets a position of its own, so all that a chronicle says about a
position is about one instance.
-/

namespace Patchbay

/-- One action of a session, with the rack before it and its outcome. -/
structure Turn where
  before : Rack
  action : HostAction
  done : Outcome Rack Reply

/-- Whether an action only looks after handles, histories and files. -/
def HostAction.isUpkeep : HostAction → Bool
  | .create .. | .request .. | .perform .. | .openQueue .. | .enqueue .. => false
  | _ => true

/-- The position of the instance that an action is addressed to. -/
def HostAction.position? : HostAction → Option Nat
  | .request position _ | .perform position .. | .openQueue position _ => some position
  | _ => none

theorem filterMap_snoc {α β : Type*} (f : α → Option β) (items : List α) (item : α) :
    (items ++ [item]).filterMap f = items.filterMap f ++ (f item).toList := by
  rw [List.filterMap_append]
  cases h : f item <;> simp [h]

namespace Rack
variable {rack after : Rack} {position : Nat} {inst : Instance}

/-- What stands at each position: a live instance, or none any more. -/
def live (rack : Rack) : List (Option Instance) :=
  rack.instances.map (Option.map SharedInstance.inst)

theorem instance?_eq (rack : Rack) (position : Nat) :
    rack.instance? position = (rack.live[position]?).join := by
  rw [instance?, shared?, live, List.getElem?_map]
  rcases rack.instances[position]? with _ | _ | shared <;> rfl

theorem live_eq_some_of_instance? (h : rack.instance? position = some inst) :
    rack.live[position]? = some (some inst) := by
  rwa [instance?_eq, Option.join_eq_some_iff] at h

theorem instance?_of_live_eq (h : after.live = rack.live) (position : Nat) :
    after.instance? position = rack.instance? position := by
  rw [instance?_eq, instance?_eq, h]

/-- Where an instance comes from after one position has changed. -/
theorem instance?_of_set {target : Nat} {new : Option Instance}
    (hlive : after.live = rack.live.set target new) (h : after.instance? position = some inst) :
    position = target ∧ new = some inst ∨
      position ≠ target ∧ rack.instance? position = some inst := by
  rw [instance?_eq, hlive, List.getElem?_set] at h
  by_cases heq : target = position
  · rw [if_pos heq] at h
    split at h
    · exact .inl ⟨heq.symm, h⟩
    · cases h
  · rw [if_neg heq, ← instance?_eq] at h
    exact .inr ⟨Ne.symm heq, h⟩

/-- Where an instance comes from after one has been made. -/
theorem instance?_of_append {new : Instance} (hlive : after.live = rack.live ++ [some new])
    (h : after.instance? position = some inst) :
    position = rack.live.length ∧ inst = new ∨ rack.instance? position = some inst := by
  rw [instance?_eq, hlive] at h
  rcases Nat.lt_trichotomy position rack.live.length with hlt | rfl | hgt
  · rw [List.getElem?_append_left hlt, ← instance?_eq] at h
    exact .inr h
  · rw [List.getElem?_concat_length] at h
    exact .inl ⟨rfl, (Option.some.inj h).symm⟩
  · have hlength : (rack.live ++ [some new]).length ≤ position := by
      rw [List.length_append]
      exact hgt
    rw [List.getElem?_eq_none hlength] at h
    cases h

theorem lt_length_of_instance? (h : rack.instance? position = some inst) :
    position < rack.live.length :=
  (List.getElem?_eq_some_iff.mp (live_eq_some_of_instance? h)).1

theorem instance?_of_live_set {new : Instance} (hinst : rack.instance? position = some inst)
    (hlive : after.live = rack.live.set position (some new)) :
    after.instance? position = some new := by
  have hlt := lt_length_of_instance? hinst
  rw [instance?_eq, hlive, List.getElem?_set_self hlt]
  rfl

theorem live_enqueue (rack : Rack) (queue : Nat) (command : Command) :
    (rack.enqueue queue command).state.live = rack.live := by
  unfold enqueue
  split <;> rfl

/-! ## What actions do -/

/-- At most one instance goes, and lets go of its queue. -/
inductive Drops (rack : Rack) : Rack → Prop
  | none {after : Rack} (hlive : after.live = rack.live) (hqueues : after.queues = rack.queues) :
      Drops rack after
  | one {after : Rack} {position : Nat} {inst : Instance}
      (hinst : rack.instance? position = some inst)
      (hlive : after.live = rack.live.set position .none)
      (hqueues : after.queues = (rack.abandonQueue inst.queue).queues) : Drops rack after

/-- All that an action can do to the instances and the queues. -/
inductive Changes (rack : Rack) : HostAction → Outcome Rack Reply → Prop
  | created {extension : Option Int} {done : Outcome Rack Reply}
      (hlive : done.state.live =
        rack.live ++ [some { id := rack.environment.nextInstance, extension }])
      (hqueues : done.state.queues = rack.queues) : Changes rack (.create extension) done
  | served {position : Nat} {request : Request} {inst : Instance} {done : Outcome Rack Reply}
      (hinst : rack.instance? position = some inst)
      (hlive : done.state.live =
        rack.live.set position (some (inst.serve rack.environment request).state.2))
      (hqueues : done.state.queues = rack.queues)
      (hresult : done.result = (inst.serve rack.environment request).result) :
      Changes rack (.request position request) done
  | performed {position size : Nat} {inputs outputs : List Block} {inst : Instance}
      {done : Outcome Rack Reply} (hinst : rack.instance? position = some inst)
      (hlive : done.state.live = rack.live.set position
        (some (inst.perform (rack.pending inst) size inputs outputs).state))
      (hqueues : done.state.queues =
        if done.result.isOk then (rack.drain inst).queues else rack.queues)
      (hresult : done.result =
        (inst.perform (rack.pending inst) size inputs outputs).result.map .outputs) :
      Changes rack (.perform position size inputs outputs) done
  | opened {position capacity : Nat} {inst : Instance} {done : Outcome Rack Reply}
      (hinst : rack.instance? position = some inst)
      (hlive : done.state.live =
        rack.live.set position (some { inst with queue := some rack.queues.length }))
      (hqueues : done.state.queues =
        (rack.abandonQueue inst.queue).queues ++ [.ofCapacity capacity]) :
      Changes rack (.openQueue position capacity) done
  | pushed {queue : Nat} {command : Command} (hqueue : queue < rack.queues.length) :
      Changes rack (.enqueue queue command) ((rack.enqueue queue command).view fun _ => .done)
  | upkeep {action : HostAction} {done : Outcome Rack Reply} (haction : action.isUpkeep)
      (hdrops : rack.Drops done.state) : Changes rack action done

theorem live_modify (rack : Rack) (position : Nat) (change : SharedInstance → SharedInstance)
    (hchange : ∀ shared, (change shared).inst = shared.inst) :
    ({ rack with instances := rack.instances.modify position (Option.map change) } : Rack).live =
      rack.live := by
  apply List.ext_getElem?
  intro index
  simp only [live, List.getElem?_map, List.getElem?_modify]
  rcases rack.instances[index]? with _ | _ | shared
  · rfl
  · by_cases heq : position = index <;> simp [heq]
  · by_cases heq : position = index <;> simp [heq, hchange]

theorem live_setInstance (h : rack.instance? position = some inst) (new : Instance) :
    (rack.setInstance position new).live = rack.live.set position (some new) := by
  have hlive := live_eq_some_of_instance? h
  apply List.ext_getElem?
  intro index
  rw [live, List.getElem?_map, Option.map_eq_some_iff] at hlive
  obtain ⟨shared, hshared, hsome⟩ := hlive
  obtain ⟨old, rfl, -⟩ := Option.map_eq_some_iff.mp hsome
  simp only [live, setInstance, List.getElem?_map, List.getElem?_modify, List.getElem?_set]
  by_cases heq : position = index
  · subst heq
    obtain ⟨hlt, hget⟩ := List.getElem?_eq_some_iff.mp hshared
    simp [hlt, hget]
  · simp [heq]

theorem queues_abandonQueue_of_eq (h : after.queues = rack.queues) (queue : Option Nat) :
    (after.abandonQueue queue).queues = (rack.abandonQueue queue).queues := by
  cases queue with
  | none => exact h
  | some index =>
    rw [abandonQueue, abandonQueue, h]

theorem live_abandonQueue (rack : Rack) (queue : Option Nat) :
    (rack.abandonQueue queue).live = rack.live := by
  cases queue <;> rfl

theorem dropUnused_drops (hlive : after.live = rack.live) (hqueues : after.queues = rack.queues)
    (position : Nat) : rack.Drops (after.dropUnused position).1 := by
  unfold dropUnused
  split
  · rename_i shared hshared
    split
    · have hinst : rack.instance? position = some shared.inst := by
        rw [instance?_eq, ← hlive, ← instance?_eq, instance?, hshared, Option.map_some]
      refine .one hinst ?_ ?_
      · rw [live_abandonQueue, live, setShared, List.map_set, ← hlive]
        rfl
      · have hcleared : (after.setShared position none).queues = rack.queues := hqueues
        exact queues_abandonQueue_of_eq hcleared _
    · exact .none hlive hqueues
  · exact .none hlive hqueues

theorem letGo_drops (rack : Rack) (position count : Nat) :
    rack.Drops (rack.letGo position count).1 :=
  dropUnused_drops
    (rack.live_modify position
      (fun shared => { shared with handles := shared.handles - count }) fun _ => rfl)
    rfl position

theorem setCurrent_drops (rack : Rack) (selection : Option Nat) :
    rack.Drops (rack.setCurrent selection).1 := by
  unfold setCurrent
  split
  · rename_i old _
    have hlive : ({ rack with current := selection } : Rack).live = rack.live := rfl
    exact dropUnused_drops hlive rfl old
  · exact .none rfl rfl

theorem free_drops {done : Outcome Rack Unit} (h : rack.free position = some done) :
    rack.Drops done.state ∧ (done.result ≠ .ok () → done.state = rack) := by
  obtain ⟨shared, -, rfl⟩ := Option.map_eq_some_iff.mp h
  split
  · exact ⟨.none rfl rfl, fun _ => rfl⟩
  · split
    · exact ⟨rack.letGo_drops position 1, fun hresult => absurd rfl hresult⟩
    · exact ⟨.none rfl rfl, fun _ => rfl⟩

theorem tryFree_drops {done : Outcome Rack Unit} (h : rack.tryFree position = some done) :
    rack.Drops done.state := by
  obtain ⟨freed, hfreed, rfl⟩ := Option.map_eq_some_iff.mp h
  obtain ⟨hdrops, hsame⟩ := free_drops hfreed
  split
  · exact hdrops
  · rename_i failure hfailure
    have hstate : freed.state = rack := hsame (by rw [hfailure]; nofun)
    rw [hstate]
    exact rack.letGo_drops position 1

/-- A block is run on the instance with its pending commands, which are taken only if the
block could be run. -/
theorem perform_eq (hinst : rack.instance? position = some inst) (size : Nat)
    (inputs outputs : List Block) :
    rack.perform position size inputs outputs =
      let done := inst.perform (rack.pending inst) size inputs outputs
      some
        { state := ((if done.result.isOk then rack.drain inst else rack).setInstance position
            done.state).record done.calls
          calls := done.calls
          result := done.result } := by
  simp only [perform, hinst, runAlone, run, Option.map_some, Option.some.injEq]
  cases hresult : (inst.perform (rack.pending inst) size inputs outputs).result with
  | ok blocks =>
    unfold drain
    cases inst.queue <;> rfl
  | error failure => rfl

theorem perform_changes {size : Nat} {inputs outputs : List Block}
    {done : Outcome Rack (List Block)}
    (h : rack.perform position size inputs outputs = some done) :
    rack.Changes (.perform position size inputs outputs) (done.view .outputs) := by
  cases hinst : rack.instance? position with
  | none =>
    rw [perform, hinst] at h
    cases h
  | some inst =>
    rw [perform_eq hinst] at h
    cases h
    refine .performed hinst ?_ ?_ rfl
    · rw [← live_setInstance hinst]
      unfold drain
      split
      · cases inst.queue <;> rfl
      · rfl
    · simp only [Outcome.view]
      cases (inst.perform (rack.pending inst) size inputs outputs).result <;> rfl

/-- What a rack takes is one of the changes. -/
theorem act_changes {action : HostAction} {done : Outcome Rack Reply}
    (h : rack.act action = some done) : rack.Changes action done := by
  cases action with
  | create extension =>
    cases h
    exact .created (by simp [live, settled]) rfl
  | request position request =>
    obtain ⟨inst, hinst, rfl⟩ := Option.map_eq_some_iff.mp h
    exact .served hinst (live_setInstance hinst _) rfl rfl
  | perform position size inputs outputs =>
    obtain ⟨ran, hran, rfl⟩ := Option.map_eq_some_iff.mp h
    exact perform_changes hran
  | openQueue position capacity =>
    obtain ⟨opened, hopened, rfl⟩ := Option.map_eq_some_iff.mp h
    obtain ⟨inst, hinst, rfl⟩ := Option.map_eq_some_iff.mp hopened
    have hqueue : (rack.abandonQueue inst.queue).queues.length = rack.queues.length := by
      cases inst.queue <;> simp [abandonQueue]
    refine .opened hinst ?_ rfl
    rw [← hqueue, ← live_setInstance hinst]
    cases inst.queue <;> rfl
  | enqueue queue command =>
    simp only [act, Option.ite_none_right_eq_some, Option.some.injEq] at h
    obtain ⟨hqueue, rfl⟩ := h
    exact .pushed hqueue
  | select selection =>
    cases selection with
    | none =>
      cases h
      exact .upkeep rfl (rack.setCurrent_drops none)
    | some position =>
      simp only [act, Option.ite_none_right_eq_some, Option.some.injEq] at h
      obtain ⟨-, rfl⟩ := h
      exact .upkeep rfl (rack.setCurrent_drops (some position))
  | hold position =>
    simp only [act, Option.ite_none_right_eq_some, Option.some.injEq] at h
    obtain ⟨-, rfl⟩ := h
    exact .upkeep rfl (.none (rack.live_modify position _ fun _ => rfl) rfl)
  | letGo position count =>
    simp only [act, Option.ite_none_right_eq_some, Option.some.injEq] at h
    obtain ⟨-, rfl⟩ := h
    exact .upkeep rfl (rack.letGo_drops position count)
  | free position =>
    simp only [act, Option.ite_none_right_eq_some] at h
    obtain ⟨freed, hfreed, rfl⟩ := Option.map_eq_some_iff.mp h.2
    exact .upkeep rfl (free_drops hfreed).1
  | tryFree position =>
    simp only [act, Option.ite_none_right_eq_some] at h
    obtain ⟨freed, hfreed, rfl⟩ := Option.map_eq_some_iff.mp h.2
    exact .upkeep rfl (tryFree_drops hfreed)
  | openHistory => cases h; exact .upkeep rfl (.none rfl rfl)
  | clearHistory history => cases h; exact .upkeep rfl (.none rfl rfl)
  | setFiles files => cases h; exact .upkeep rfl (.none rfl rfl)
  | addSearchPath directory => cases h; exact .upkeep rfl (.none rfl rfl)
  | clearSearchPath => cases h; exact .upkeep rfl (.none rfl rfl)

/-- What the instance at a position has come from, by one action. -/
inductive Comes (rack : Rack) (position : Nat) :
    HostAction → Outcome Rack Reply → Instance → Prop
  | created {extension : Option Int} {done : Outcome Rack Reply}
      (hposition : position = rack.live.length) :
      Comes rack position (.create extension) done
        { id := rack.environment.nextInstance, extension }
  | served {request : Request} {old : Instance} {done : Outcome Rack Reply}
      (hold : rack.instance? position = some old)
      (hresult : done.result = (old.serve rack.environment request).result) :
      Comes rack position (.request position request) done
        (old.serve rack.environment request).state.2
  | performed {size : Nat} {inputs outputs : List Block} {old : Instance}
      {done : Outcome Rack Reply} (hold : rack.instance? position = some old)
      (hresult : done.result =
        (old.perform (rack.pending old) size inputs outputs).result.map .outputs) :
      Comes rack position (.perform position size inputs outputs) done
        (old.perform (rack.pending old) size inputs outputs).state
  | opened {capacity : Nat} {old : Instance} {done : Outcome Rack Reply}
      (hold : rack.instance? position = some old) :
      Comes rack position (.openQueue position capacity) done
        { old with queue := some rack.queues.length }
  | kept {action : HostAction} {old : Instance} {done : Outcome Rack Reply}
      (hold : rack.instance? position = some old) (haction : action.position? ≠ some position) :
      Comes rack position action done old

theorem position?_of_isUpkeep {action : HostAction} (h : action.isUpkeep) :
    action.position? = none := by
  cases action <;> first | rfl | cases h

/-- Every live instance has come from what stood at its position before. -/
theorem comes_of_act {action : HostAction} {done : Outcome Rack Reply}
    (h : rack.act action = some done) (hinst : done.state.instance? position = some inst) :
    rack.Comes position action done inst := by
  cases act_changes h with
  | created hlive =>
    rcases instance?_of_append hlive hinst with ⟨hposition, rfl⟩ | hold
    · exact .created hposition
    · exact .kept hold nofun
  | served hold hlive _ hresult =>
    rcases instance?_of_set hlive hinst with ⟨rfl, hnew⟩ | ⟨hne, hsame⟩
    · cases hnew
      exact .served hold hresult
    · exact .kept hsame fun heq => hne (Option.some.inj heq).symm
  | performed hold hlive _ hresult =>
    rcases instance?_of_set hlive hinst with ⟨rfl, hnew⟩ | ⟨hne, hsame⟩
    · cases hnew
      exact .performed hold hresult
    · exact .kept hsame fun heq => hne (Option.some.inj heq).symm
  | opened hold hlive =>
    rcases instance?_of_set hlive hinst with ⟨rfl, hnew⟩ | ⟨hne, hsame⟩
    · cases hnew
      exact .opened hold
    · exact .kept hsame fun heq => hne (Option.some.inj heq).symm
  | @pushed queue command _ =>
    have hsame : rack.instance? position = some inst := by
      rw [← instance?_of_live_eq (rack.live_enqueue queue command)]
      exact hinst
    exact .kept hsame nofun
  | upkeep haction hdrops =>
    have hposition : action.position? ≠ some position := by
      rw [position?_of_isUpkeep haction]
      nofun
    cases hdrops with
    | none hlive =>
      rw [instance?_of_live_eq hlive] at hinst
      exact .kept hinst hposition
    | one _ hlive =>
      rcases instance?_of_set hlive hinst with ⟨-, hnew⟩ | ⟨-, hsame⟩
      · cases hnew
      · exact .kept hsame hposition

/-- Positions are never given up. -/
theorem Changes.length_le {action : HostAction} {done : Outcome Rack Reply}
    (h : rack.Changes action done) : rack.live.length ≤ done.state.live.length := by
  cases h with
  | created hlive => simp [hlive]
  | served _ hlive => simp [hlive]
  | performed _ hlive => simp [hlive]
  | opened _ hlive => simp [hlive]
  | @pushed queue command _ =>
    exact Nat.le_of_eq (congrArg List.length (rack.live_enqueue queue command).symm)
  | upkeep _ hdrops =>
    cases hdrops with
    | none hlive => simp [hlive]
    | one _ hlive => simp [hlive]

/-- An action is addressed to a live instance. -/
theorem Changes.exists_instance {action : HostAction} {done : Outcome Rack Reply}
    (h : rack.Changes action done) (hposition : action.position? = some position) :
    ∃ inst, rack.instance? position = some inst := by
  cases h with
  | served hinst | performed hinst | opened hinst =>
    cases hposition
    exact ⟨_, hinst⟩
  | upkeep haction =>
    rw [position?_of_isUpkeep haction] at hposition
    cases hposition
  | created | pushed => cases hposition

/-! ## Turn by turn -/

/-- The turns of a session, and the rack that they lead to. -/
inductive Chronicle : List Turn → Rack → Prop
  | start : Chronicle [] {}
  | next {turns : List Turn} {rack : Rack} {action : HostAction} {done : Outcome Rack Reply} :
      Chronicle turns rack → rack.act action = some done →
        Chronicle (turns ++ [{ before := rack, action, done }]) done.state

/-- The turns of some actions, as far as a host can take them. -/
def turns (rack : Rack) : List HostAction → List Turn
  | [] => []
  | action :: rest =>
    match rack.act action with
    | some done => { before := rack, action, done } :: done.state.turns rest
    | none => []

theorem Chronicle.reachable {turns : List Turn} (h : Chronicle turns rack) : rack.Reachable := by
  induction h with
  | start => exact .fresh
  | next _ hdone ih => exact ih.act hdone

theorem Chronicle.act_eq {turns : List Turn} (h : Chronicle turns rack) :
    ∀ turn ∈ turns, turn.before.act turn.action = some turn.done := by
  induction h with
  | start =>
    intro turn hturn
    exact absurd hturn List.not_mem_nil
  | next _ hdone ih =>
    intro turn hturn
    rcases List.mem_append.mp hturn with hpast | hlast
    · exact ih turn hpast
    · rw [List.mem_singleton.mp hlast]
      exact hdone

/-- An instance that is still to be made has not been addressed. -/
theorem Chronicle.not_addressed {turns : List Turn} (h : Chronicle turns rack)
    (hposition : rack.live.length ≤ position) :
    ∀ turn ∈ turns, turn.action.position? ≠ some position := by
  induction h with
  | start =>
    intro turn hturn
    exact absurd hturn List.not_mem_nil
  | @next turns rack action done _ hdone ih =>
    have hchanges := act_changes hdone
    have hbefore := Nat.le_trans hchanges.length_le hposition
    intro turn hturn
    rcases List.mem_append.mp hturn with hpast | hlast
    · exact ih hbefore turn hpast
    · rw [List.mem_singleton.mp hlast]
      intro haddressed
      obtain ⟨inst, hinst⟩ := hchanges.exists_instance haddressed
      exact Nat.not_lt_of_le hbefore (lt_length_of_instance? hinst)

/-- Each session has a chronicle. -/
theorem Chronicle.session {past : List Turn} (h : Chronicle past rack) {actions : List HostAction}
    (hafter : rack.session actions = some after) :
    Chronicle (past ++ rack.turns actions) after := by
  induction actions generalizing past rack with
  | nil =>
    cases hafter
    rw [turns, List.append_nil]
    exact h
  | cons action rest ih =>
    obtain ⟨done, hdone, hrest⟩ := Option.bind_eq_some_iff.mp hafter
    have hnext := ih (h.next hdone) hrest
    have hturns : rack.turns (action :: rest) =
        { before := rack, action, done } :: done.state.turns rest := by
      rw [turns, hdone]
    rwa [List.append_assoc, List.singleton_append, ← hturns] at hnext

end Rack

end Patchbay
