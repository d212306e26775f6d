import Patchbay.Proofs.ReadHosts

/-!
# Racks read by names

Handles, selections, queues and histories are kept without regard to names, so keeping them
commutes with every reading. Names only matter where an instance is asked to do something.
-/

namespace Patchbay.Numbered

variable {ρ : Reading} {tables : Tables}

/-! ## Queues of commands -/

theorem push?_named (queue : CommandQueue) (command : Command) :
    (named ρ queue).push? (named ρ command) = named ρ (queue.push? command) := by
  have hlength : (named ρ queue).pending.length = queue.pending.length := List.length_map _
  have hpending : (named ρ queue).pending ++ [named ρ command] =
      named ρ (queue.pending ++ [command]) := by
    rw [named_list, List.map_append]
    rfl
  unfold Patchbay.CommandQueue.push? CommandQueue.push?
  rw [hlength]
  show (if queue.pending.length < queue.capacity then _ else _) =
    named ρ (if queue.pending.length < queue.capacity then _ else _)
  split
  · exact congrArg (fun pending => some ({ named ρ queue with pending } : Patchbay.CommandQueue))
      hpending
  · rfl

namespace Rack
variable (rack : Rack)

/-! ## Instances -/

theorem shared?_named (position : Nat) :
    (named ρ rack).shared? position = named ρ (rack.shared? position) := by
  have hinstances : (named ρ rack).instances = named ρ rack.instances := rfl
  unfold Patchbay.Rack.shared? shared?
  rw [hinstances, getElem?_named]
  rcases rack.instances[position]? with _ | _ | shared <;> rfl

theorem instance?_named (position : Nat) :
    (named ρ rack).instance? position = named ρ (rack.instance? position) := by
  rw [Patchbay.Rack.instance?, instance?, shared?_named]
  cases rack.shared? position <;> rfl

theorem setShared_named (position : Nat) (shared : Option SharedInstance) :
    (named ρ rack).setShared position (named ρ shared) = named ρ (rack.setShared position shared) :=
  congrArg (fun instances => ({ named ρ rack with instances } : Patchbay.Rack))
    (List.map_set (f := named ρ)).symm

/-- Changing a live instance commutes with reading if the change does. -/
theorem modifyShared_named {f : SharedInstance → SharedInstance}
    {g : Patchbay.SharedInstance → Patchbay.SharedInstance}
    (h : ∀ shared, g (named ρ shared) = named ρ (f shared)) (position : Nat) :
    (named ρ rack).instances.modify position (Option.map g) =
      named ρ (rack.instances.modify position (Option.map f)) := by
  refine modify_named (fun shared => ?_) rack.instances position
  cases shared with
  | none => rfl
  | some shared => exact congrArg some (h shared)

theorem setInstance_named (position : Nat) (inst : Instance) :
    (named ρ rack).setInstance position (named ρ inst) = named ρ (rack.setInstance position inst) :=
  congrArg (fun instances => ({ named ρ rack with instances } : Patchbay.Rack))
    (rack.modifyShared_named (fun _ => rfl) position)

/-- Histories record what sinks are told without names. -/
theorem record_named (calls : List Call) :
    (named ρ rack).record (named ρ calls) = named ρ (rack.record calls) := by
  refine congrArg (fun histories => ({ named ρ rack with histories } : Patchbay.Rack)) ?_
  rw [named_list, List.foldl_map]
  congr 1
  funext histories call
  cases call with
  | plain call => cases call <;> rfl
  | _ => rfl

/-- A new instance has nothing to read. -/
theorem named_newShared (id : Nat) (extension : Option Int) :
    named ρ ({ inst := { id, extension } } : SharedInstance) = { inst := { id, extension } } := by
  have hstack : named ρ (#[] : Array Emission) = #[] := Array.map_empty
  exact congrArg
    (fun stack => ({ inst := { id, extension, engine := { stack } } } : Patchbay.SharedInstance))
    hstack

theorem create_named (extension : Option Int) :
    (named ρ rack).create extension =
      (named ρ (rack.create extension).1, (rack.create extension).2.1,
        named ρ (rack.create extension).2.2) := by
  have hadded :
      (named ρ rack).instances ++
          [some { inst := { id := rack.environment.nextInstance, extension } }] =
        named ρ (rack.instances ++
          [some { inst := { id := rack.environment.nextInstance, extension } }]) := by
    rw [named_list, List.map_append]
    exact congrArg (_ ++ [some ·]) (named_newShared rack.environment.nextInstance extension).symm
  refine Prod.ext ?_ (Prod.ext (List.length_map _) rfl)
  exact congrArg
    (fun instances =>
      ({ named ρ rack with
          environment :=
            { rack.environment with nextInstance := rack.environment.nextInstance + 1 }
          instances } : Patchbay.Rack)) hadded

/-! ## Selection and handles -/

theorem abandonQueue_named (queue : Option Nat) :
    (named ρ rack).abandonQueue queue = named ρ (rack.abandonQueue queue) := by
  cases queue with
  | none => rfl
  | some index =>
    exact congrArg (fun queues => ({ named ρ rack with queues } : Patchbay.Rack))
      (modify_named (f := CommandQueue.abandon) (fun _ => rfl) rack.queues index)

theorem dropUnused_named (position : Nat) :
    (named ρ rack).dropUnused position = named ρ (rack.dropUnused position) := by
  unfold Patchbay.Rack.dropUnused dropUnused
  rw [shared?_named]
  cases rack.shared? position with
  | none => rfl
  | some shared =>
    show (if shared.handles = 0 ∧ rack.current ≠ some position then _ else _) =
      named ρ (if shared.handles = 0 ∧ rack.current ≠ some position then _ else _)
    split
    · refine Prod.ext ?_ rfl
      show ((named ρ rack).setShared position (named ρ (none : Option SharedInstance))).abandonQueue
        shared.inst.queue = _
      rw [setShared_named, abandonQueue_named]
      rfl
    · rfl

theorem setCurrent_named (selection : Option Nat) :
    (named ρ rack).setCurrent selection = named ρ (rack.setCurrent selection) := by
  have hcurrent : (named ρ rack).current = rack.current := rfl
  unfold Patchbay.Rack.setCurrent setCurrent
  rw [hcurrent]
  cases rack.current with
  | none => rfl
  | some old => exact dropUnused_named { rack with current := selection } old

theorem hold_named (position : Nat) :
    (named ρ rack).hold position = named ρ (rack.hold position) :=
  congrArg (fun instances => ({ named ρ rack with instances } : Patchbay.Rack))
    (rack.modifyShared_named (fun _ => rfl) position)

theorem letGo_named (position count : Nat) :
    (named ρ rack).letGo position count = named ρ (rack.letGo position count) := by
  have hless := rack.modifyShared_named (ρ := ρ)
    (f := fun shared => { shared with handles := shared.handles - count })
    (g := fun shared => { shared with handles := shared.handles - count })
    (fun _ => rfl) position
  unfold Patchbay.Rack.letGo letGo
  rw [hless]
  exact dropUnused_named
    { rack with
      instances := rack.instances.modify position
        (Option.map fun shared => { shared with handles := shared.handles - count }) } position

theorem free_named (position : Nat) :
    (named ρ rack).free position = named ρ (rack.free position) := by
  unfold Patchbay.Rack.free free
  rw [shared?_named, letGo_named]
  cases rack.shared? position with
  | none => rfl
  | some shared =>
    refine congrArg some ?_
    show (if rack.current = some position then _ else if shared.handles = 1 then _ else _) =
      named ρ (if rack.current = some position then _ else if shared.handles = 1 then _ else _)
    split_ifs <;> rfl

theorem tryFree_named (position : Nat) :
    (named ρ rack).tryFree position = named ρ (rack.tryFree position) := by
  unfold Patchbay.Rack.tryFree tryFree
  rw [free_named]
  cases rack.free position with
  | none => rfl
  | some done =>
    obtain ⟨state, calls, _ | _⟩ := done
    · refine congrArg some ?_
      show ({ state := ((named ρ state).letGo position 1).1
              calls := named ρ calls ++ ((named ρ state).letGo position 1).2
              result := _ } : Patchbay.Outcome Patchbay.Rack Unit) = _
      rw [letGo_named]
      exact congrArg
        (fun calls =>
          ({ state := named ρ (state.letGo position 1).1, calls, result := _ } :
            Patchbay.Outcome Patchbay.Rack Unit)) List.map_append.symm
    · rfl

/-! ## Queues and histories -/

theorem openQueue_named (position capacity : Nat) :
    (named ρ rack).openQueue position capacity =
      (rack.openQueue position capacity).map fun opened => (named ρ opened.1, opened.2) := by
  unfold Patchbay.Rack.openQueue openQueue
  rw [instance?_named]
  cases rack.instance? position with
  | none => rfl
  | some inst =>
    refine congrArg some ?_
    have hqueue : (named ρ inst).queue = inst.queue := rfl
    simp only [hqueue, abandonQueue_named]
    generalize rack.abandonQueue inst.queue = rack
    have hlength : (named ρ rack).queues.length = rack.queues.length := List.length_map _
    have hqueues : (named ρ rack).queues ++ [Patchbay.CommandQueue.ofCapacity capacity] =
        named ρ (rack.queues ++ [CommandQueue.ofCapacity capacity]) := by
      rw [named_list, List.map_append]
      rfl
    rw [hlength, hqueues]
    exact congrArg (·, _)
      (setInstance_named { rack with queues := rack.queues ++ [CommandQueue.ofCapacity capacity] }
        position { inst with queue := some rack.queues.length })

theorem enqueue_named (queue : Nat) (command : Command) :
    (named ρ rack).enqueue queue (named ρ command) = named ρ (rack.enqueue queue command) := by
  have hqueues : (named ρ rack).queues = named ρ rack.queues := rfl
  have hfilled : ((named ρ rack).queues[queue]?.bind fun queue => queue.push? (named ρ command)) =
      named ρ (rack.queues[queue]?.bind fun queue => queue.push? command) := by
    rw [hqueues, getElem?_named]
    cases rack.queues[queue]? with
    | none => rfl
    | some found => exact push?_named found command
  unfold Patchbay.Rack.enqueue enqueue
  rw [hfilled]
  cases rack.queues[queue]?.bind fun queue => queue.push? command with
  | none => rfl
  | some filled =>
    exact congrArg
      (fun queues =>
        ({ state := { named ρ rack with queues }, result := .ok () } :
          Patchbay.Outcome Patchbay.Rack Unit)) (List.map_set (f := named ρ)).symm

theorem pending_named (inst : Instance) :
    (named ρ rack).pending (named ρ inst) = named ρ (rack.pending inst) := by
  have hqueues : (named ρ rack).queues = named ρ rack.queues := rfl
  have hqueue : (named ρ inst).queue = inst.queue := rfl
  unfold Patchbay.Rack.pending pending
  rw [hqueues, hqueue]
  cases inst.queue with
  | none => rfl
  | some index =>
    simp only [Option.bind_some, getElem?_named]
    cases rack.queues[index]? <;> rfl

theorem drain_named (inst : Instance) :
    (named ρ rack).drain (named ρ inst) = named ρ (rack.drain inst) := by
  have hqueue : (named ρ inst).queue = inst.queue := rfl
  unfold Patchbay.Rack.drain drain
  rw [hqueue]
  cases inst.queue with
  | none => rfl
  | some index =>
    exact congrArg (fun queues => ({ named ρ rack with queues } : Patchbay.Rack))
      (modify_named (f := CommandQueue.drained) (fun _ => rfl) rack.queues index)

end Rack

end Patchbay.Numbered
