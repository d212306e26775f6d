import Mathlib.Data.List.Basic
import Patchbay.Proofs.Chronicle

/-!
# Replacing an engine

A rack passes nothing on to an engine but the requests and blocks of its own instance. In
whatever else a host does it makes no difference which engine the instance has.
-/

namespace Patchbay

/-- The instance with another engine. -/
def Instance.withEngine (inst : Instance) (engine : Engine) : Instance := { inst with engine }

/-- The instance with another engine, and with the same handles on it. -/
def SharedInstance.withEngine (shared : SharedInstance) (engine : Engine) : SharedInstance :=
  { shared with inst := shared.inst.withEngine engine }

/-- The rack with another engine in the instance at a position. -/
def Rack.withEngine (rack : Rack) (position : Nat) (engine : Engine) : Rack :=
  { rack with
    instances := rack.instances.modify position
      (Option.map fun shared => shared.withEngine engine) }

/-- The outcome with another engine in the instance at a position. -/
def Outcome.withEngine {α : Type} (done : Outcome Rack α) (position : Nat) (engine : Engine) :
    Outcome Rack α :=
  { done with state := done.state.withEngine position engine }

@[simp] theorem SharedInstance.handles_withEngine (shared : SharedInstance) (engine : Engine) :
    (shared.withEngine engine).handles = shared.handles := rfl

@[simp] theorem Rack.environment_withEngine (rack : Rack) (position : Nat) (engine : Engine) :
    (rack.withEngine position engine).environment = rack.environment := rfl

@[simp] theorem Rack.current_withEngine (rack : Rack) (position : Nat) (engine : Engine) :
    (rack.withEngine position engine).current = rack.current := rfl

@[simp] theorem Rack.queues_withEngine (rack : Rack) (position : Nat) (engine : Engine) :
    (rack.withEngine position engine).queues = rack.queues := rfl

theorem modify_comm {α : Type*} {items : List α} {first second : α → α}
    (h : ∀ item, first (second item) = second (first item)) (index other : Nat) :
    (items.modify index first).modify other second =
      (items.modify other second).modify index first := by
  apply List.ext_getElem?
  intro place
  simp only [List.getElem?_modify]
  cases items[place]? with
  | none => rfl
  | some item =>
    by_cases hindex : index = place <;> by_cases hother : other = place <;>
      simp [hindex, hother, h]

namespace Rack
variable (rack : Rack) (position : Nat) (engine : Engine)

/-! ## Looking at instances -/

theorem shared?_withEngine :
    (rack.withEngine position engine).shared? position =
      (rack.shared? position).map fun shared => shared.withEngine engine := by
  simp only [shared?, withEngine, List.getElem?_modify]
  rcases rack.instances[position]? with _ | _ | shared <;> simp

theorem shared?_withEngine_of_ne {index : Nat} (h : index ≠ position) :
    (rack.withEngine position engine).shared? index = rack.shared? index := by
  simp only [shared?, withEngine, List.getElem?_modify, if_neg (Ne.symm h)]
  rcases rack.instances[index]? with _ | _ | shared <;> simp

/-- At every index there is what was there before, with some engine. -/
theorem exists_shared?_withEngine (index : Nat) :
    ∃ change : Engine → Engine, (rack.withEngine position engine).shared? index =
      (rack.shared? index).map fun shared => shared.withEngine (change shared.inst.engine) := by
  rcases eq_or_ne index position with rfl | hne
  · exact ⟨fun _ => engine, rack.shared?_withEngine index engine⟩
  · refine ⟨id, ?_⟩
    rw [shared?_withEngine_of_ne rack position engine hne]
    exact Option.map_id'.symm

theorem instance?_withEngine :
    (rack.withEngine position engine).instance? position =
      (rack.instance? position).map fun inst => inst.withEngine engine := by
  rw [instance?, instance?, shared?_withEngine, Option.map_map, Option.map_map]
  rfl

theorem instance?_withEngine_of_ne {index : Nat} (h : index ≠ position) :
    (rack.withEngine position engine).instance? index = rack.instance? index := by
  rw [instance?, instance?, shared?_withEngine_of_ne rack position engine h]

theorem handles_withEngine (index : Nat) :
    (rack.withEngine position engine).handles index = rack.handles index := by
  obtain ⟨change, hshared⟩ := rack.exists_shared?_withEngine position engine index
  rw [handles, handles, hshared, Option.map_map]
  rfl

theorem isSome_shared?_withEngine (index : Nat) :
    ((rack.withEngine position engine).shared? index).isSome = (rack.shared? index).isSome := by
  obtain ⟨change, hshared⟩ := rack.exists_shared?_withEngine position engine index
  rw [hshared, Option.isSome_map]

/-! ## Changing instances -/

theorem setInstance_withEngine (inst : Instance) (other : Engine) :
    (rack.withEngine position engine).setInstance position (inst.withEngine other) =
      (rack.setInstance position inst).withEngine position other := by
  simp only [setInstance, withEngine, List.modify_modify_eq, Option.map_comp_map]
  rfl

theorem setInstance_eq_withEngine {inst : Instance} (h : rack.instance? position = some inst) :
    rack.setInstance position (inst.withEngine engine) = rack.withEngine position engine := by
  have hsame : rack.instances.modify position
        (Option.map fun shared => { shared with inst := inst.withEngine engine }) =
      rack.instances.modify position (Option.map fun shared => shared.withEngine engine) := by
    apply List.ext_getElem?
    intro index
    simp only [List.getElem?_modify]
    split
    · rename_i heq
      subst heq
      rw [instance?, shared?] at h
      rcases hstands : rack.instances[position]? with _ | _ | shared
      · rfl
      · rfl
      · rw [hstands] at h
        cases h
        rfl
    · rfl
  rw [setInstance, withEngine, hsame]

theorem setInstance_withEngine_of_ne {index : Nat} (h : index ≠ position) (inst : Instance) :
    (rack.withEngine position engine).setInstance index inst =
      (rack.setInstance index inst).withEngine position engine := by
  simp only [setInstance, withEngine]
  rw [List.modify_modify_ne]
  exact Ne.symm h

theorem setShared_withEngine (index : Nat) :
    (rack.withEngine position engine).setShared index none =
      (rack.setShared index none).withEngine position engine := by
  have hset (instances : List (Option SharedInstance)) :
      instances.set index none = instances.modify index fun _ => none := by
    rw [List.modify_eq_set]
  simp only [setShared, withEngine, hset]
  rw [modify_comm]
  exact fun _ => rfl

theorem hold_withEngine (index : Nat) :
    (rack.withEngine position engine).hold index =
      (rack.hold index).withEngine position engine := by
  simp only [hold, withEngine]
  rw [modify_comm]
  intro stands
  cases stands <;> rfl

theorem abandonQueue_withEngine (queue : Option Nat) :
    (rack.withEngine position engine).abandonQueue queue =
      (rack.abandonQueue queue).withEngine position engine := by
  cases queue <;> rfl

/-- The same commands are taken, if any are. -/
theorem drain_withEngine (taken : Bool) (inst : Instance) :
    (if taken then (rack.withEngine position engine).drain inst
        else rack.withEngine position engine) =
      (if taken then rack.drain inst else rack).withEngine position engine := by
  cases taken with
  | false => rfl
  | true =>
    simp only [↓reduceIte, drain]
    cases inst.queue <;> rfl

theorem dropUnused_withEngine (index : Nat) :
    (rack.withEngine position engine).dropUnused index =
      ((rack.dropUnused index).1.withEngine position engine, (rack.dropUnused index).2) := by
  obtain ⟨change, hshared⟩ := rack.exists_shared?_withEngine position engine index
  unfold dropUnused
  rw [hshared, setShared_withEngine]
  cases rack.shared? index with
  | none => rfl
  | some shared =>
    simp only [Option.map_some, SharedInstance.handles_withEngine, current_withEngine,
      abandonQueue_withEngine]
    split <;> rfl

theorem letGo_withEngine (index count : Nat) :
    (rack.withEngine position engine).letGo index count =
      ((rack.letGo index count).1.withEngine position engine, (rack.letGo index count).2) := by
  unfold letGo
  rw [← dropUnused_withEngine]
  simp only [withEngine]
  rw [modify_comm]
  intro stands
  cases stands <;> rfl

theorem setCurrent_withEngine (selection : Option Nat) :
    (rack.withEngine position engine).setCurrent selection =
      ((rack.setCurrent selection).1.withEngine position engine,
        (rack.setCurrent selection).2) := by
  unfold setCurrent
  rw [current_withEngine]
  cases rack.current with
  | none => rfl
  | some old => exact dropUnused_withEngine { rack with current := selection } position engine old

theorem free_withEngine (index : Nat) :
    (rack.withEngine position engine).free index =
      (rack.free index).map fun done => done.withEngine position engine := by
  obtain ⟨change, hshared⟩ := rack.exists_shared?_withEngine position engine index
  unfold free
  rw [hshared]
  cases rack.shared? index with
  | none => rfl
  | some shared =>
    simp only [Option.map_some, letGo_withEngine]
    change some (if rack.current = some index then _
      else if shared.handles = 1 then _ else _) = _
    by_cases hselected : rack.current = some index
    · simp only [if_pos hselected]
      rfl
    · by_cases hlast : shared.handles = 1
      · simp only [if_neg hselected, if_pos hlast]
        rfl
      · simp only [if_neg hselected, if_neg hlast]
        rfl

theorem tryFree_withEngine (index : Nat) :
    (rack.withEngine position engine).tryFree index =
      (rack.tryFree index).map fun done => done.withEngine position engine := by
  unfold tryFree
  rw [free_withEngine]
  cases rack.free index with
  | none => rfl
  | some done =>
    obtain ⟨after, calls, result⟩ := done
    cases result with
    | ok => rfl
    | error failure =>
      simp only [Option.map_some, Outcome.withEngine, letGo_withEngine]

theorem openQueue_withEngine (index capacity : Nat) :
    (rack.withEngine position engine).openQueue index capacity =
      (rack.openQueue index capacity).map fun opened =>
        (opened.1.withEngine position engine, opened.2) := by
  unfold openQueue
  rcases eq_or_ne index position with rfl | hne
  · rw [instance?_withEngine]
    cases rack.instance? index with
    | none => rfl
    | some inst =>
      simp only [Option.map_some, abandonQueue_withEngine]
      let opened := rack.abandonQueue inst.queue
      have hset := setInstance_withEngine
        { opened with queues := opened.queues ++ [CommandQueue.ofCapacity capacity] } index
        engine { inst with queue := some opened.queues.length } engine
      exact congrArg (fun after : Rack => some (after, opened.queues.length)) hset
  · rw [instance?_withEngine_of_ne rack position engine hne]
    cases rack.instance? index with
    | none => rfl
    | some inst =>
      simp only [Option.map_some, abandonQueue_withEngine]
      let opened := rack.abandonQueue inst.queue
      have hset := setInstance_withEngine_of_ne
        { opened with queues := opened.queues ++ [CommandQueue.ofCapacity capacity] } position
        engine hne { inst with queue := some opened.queues.length }
      exact congrArg (fun after : Rack => some (after, opened.queues.length)) hset

theorem enqueue_withEngine (queue : Nat) (command : Command) :
    (rack.withEngine position engine).enqueue queue command =
      (rack.enqueue queue command).withEngine position engine := by
  unfold enqueue
  rw [queues_withEngine]
  cases (rack.queues[queue]?).bind fun queue => queue.push? command <;> rfl

theorem create_withEngine (hmade : position < rack.instances.length) (extension : Option Int) :
    (rack.withEngine position engine).create extension =
      ((rack.create extension).1.withEngine position engine, (rack.create extension).2) := by
  have hgrown (new : Option SharedInstance) (change : Option SharedInstance → _) :
      rack.instances.modify position change ++ [new] =
        (rack.instances ++ [new]).modify position change := by
    apply List.ext_getElem?
    intro index
    simp only [List.getElem?_append, List.getElem?_modify, List.length_modify]
    split
    · rfl
    · have hne : position ≠ index := by omega
      simp [hne]
  simp only [create, withEngine, List.length_modify, hgrown]

/-! ## Actions -/

theorem act_request_withEngine_of_ne {index : Nat} (h : index ≠ position) (request : Request) :
    (rack.withEngine position engine).act (.request index request) =
      (rack.act (.request index request)).map fun done => done.withEngine position engine := by
  simp only [act, run]
  rw [instance?_withEngine_of_ne rack position engine h]
  cases rack.instance? index with
  | none => rfl
  | some inst =>
    let served := inst.serve rack.environment request
    have hset := setInstance_withEngine_of_ne { rack with environment := served.state.1 } position
      engine h served.state.2
    exact congrArg (fun after : Rack =>
      some (⟨after.record served.calls, served.calls, served.result⟩ : Outcome Rack Reply)) hset

theorem act_perform_withEngine_of_ne {index : Nat} (h : index ≠ position) (size : Nat)
    (inputs outputs : List Block) :
    (rack.withEngine position engine).act (.perform index size inputs outputs) =
      (rack.act (.perform index size inputs outputs)).map fun done =>
        done.withEngine position engine := by
  have hsame := instance?_withEngine_of_ne rack position engine h
  cases hinst : rack.instance? index with
  | none =>
    rw [hinst] at hsame
    simp only [act, perform, hinst, hsame]
    rfl
  | some inst =>
    rw [hinst] at hsame
    simp only [act, perform_eq hinst, perform_eq hsame, Option.map_some]
    let done := inst.perform (rack.pending inst) size inputs outputs
    have hset := setInstance_withEngine_of_ne (if done.result.isOk then rack.drain inst else rack)
      position engine h done.state
    rw [← drain_withEngine] at hset
    exact congrArg (fun after : Rack => some
      (⟨after.record done.calls, done.calls, done.result.map .outputs⟩ : Outcome Rack Reply)) hset

/-- What an action does that passes nothing on to the engine. -/
theorem act_withEngine (hmade : position < rack.instances.length) {action : HostAction}
    (hrequest : ∀ request, action ≠ .request position request)
    (hperform : ∀ size inputs outputs, action ≠ .perform position size inputs outputs) :
    (rack.withEngine position engine).act action =
      (rack.act action).map fun done => done.withEngine position engine := by
  cases action with
  | create extension =>
    simp only [act, create_withEngine rack position engine hmade]
    rfl
  | request index request =>
    apply act_request_withEngine_of_ne
    rintro rfl
    exact hrequest request rfl
  | perform index size inputs outputs =>
    apply act_perform_withEngine_of_ne
    rintro rfl
    exact hperform size inputs outputs rfl
  | openQueue index capacity =>
    simp only [act, openQueue_withEngine]
    cases rack.openQueue index capacity <;> rfl
  | enqueue queue command =>
    simp only [act, enqueue_withEngine, queues_withEngine]
    split <;> rfl
  | select selection =>
    cases selection with
    | none =>
      simp only [act, setCurrent_withEngine]
      rfl
    | some index =>
      simp only [act, setCurrent_withEngine, isSome_shared?_withEngine]
      split <;> rfl
  | hold index =>
    simp only [act, hold_withEngine, isSome_shared?_withEngine]
    split <;> rfl
  | letGo index count =>
    simp only [act, letGo_withEngine, handles_withEngine]
    split <;> rfl
  | free index =>
    simp only [act, free_withEngine, handles_withEngine]
    split
    · cases rack.free index <;> rfl
    · rfl
  | tryFree index =>
    simp only [act, tryFree_withEngine, handles_withEngine]
    split
    · cases rack.tryFree index <;> rfl
    · rfl
  | openHistory => rfl
  | clearHistory history => rfl
  | setFiles files => rfl
  | addSearchPath directory => rfl
  | clearSearchPath => rfl

end Rack

end Patchbay
