import Mathlib.Data.List.Basic
import Patchbay.Proofs.Courses

/-!
# Queues in courses

What goes into a queue comes out of it once and in its order: what was taken in and what
was carried out differ by what waits. This holds along every course, with any number of
senders, blocks that fail and queues that are replaced by others.

## Implementation notes

A queue is told by its number, which is that of the sender that the host was given for
it. What goes in and comes out is read off the stages of the course. The queues of the
racks in between are not asked.
-/

namespace Patchbay

namespace Stage

/-- The capacity that was asked for, if a stage has opened the queue of a number. -/
def asked? (index : Nat) : Stage → Option Nat
  | turn { before, action := .openQueue _ capacity, .. } =>
    if before.queues.length = index then some capacity else none
  | _ => none

/-- The commands that a stage has taken into a queue. -/
def accepted (index : Nat) : Stage → List Command
  | turn { action := .enqueue target command, done, .. } =>
    if target = index ∧ done.result.isOk then [command] else []
  | turn _ => []
  | block _ _ moves => moves.filterMap (QueueMove.accepted? index)

/-- The commands that were taken out of a queue in a stage and carried out. -/
def carried (index : Nat) : Stage → List Command
  | turn _ => []
  | block before position moves =>
    if (before.instance? position).bind Instance.queue = some index then
      moves.filterMap QueueMove.taken?
    else []

theorem asked?_openQueue (rack : Rack) (position capacity index : Nat)
    (done : Outcome Rack Reply) :
    (turn ⟨rack, .openQueue position capacity, done⟩).asked? index =
      if rack.queues.length = index then some capacity else none := rfl

theorem accepted_enqueue (rack : Rack) (target index : Nat) (command : Command)
    (done : Outcome Rack Reply) :
    (turn ⟨rack, .enqueue target command, done⟩).accepted index =
      if target = index ∧ done.result.isOk then [command] else [] := rfl

/-- What a stage does to a queue that is there. -/
structure Passes (stage : Stage) (index : Nat) (queue new : CommandQueue) : Prop where
  asked?_eq : stage.asked? index = none
  capacity_eq : new.capacity = queue.capacity
  abandoned_of : queue.abandoned → new.abandoned
  pending_eq : queue.pending ++ stage.accepted index = stage.carried index ++ new.pending

/-- A turn that puts nothing in, and at most has a queue abandoned. -/
theorem passes_turn {index : Nat} {queue : CommandQueue} {done : Turn}
    (hasked : (turn done).asked? index = none) (haccepted : (turn done).accepted index = [])
    (target : Option Nat) :
    (turn done).Passes index queue
      (if target = some index then queue.abandon else queue) := by
  refine ⟨hasked, ?_, ?_, ?_⟩
  · split <;> rfl
  · split
    · exact fun _ => rfl
    · exact id
  · rw [haccepted, List.append_nil]
    split <;> rfl

end Stage

/-- The commands that were taken into a queue, in order. -/
def accepted (index : Nat) (stages : List Stage) : List Command :=
  stages.flatMap (Stage.accepted index)

/-- The commands that were carried out of a queue, in order. -/
def carried (index : Nat) (stages : List Stage) : List Command :=
  stages.flatMap (Stage.carried index)

/-- What the stages from the start on say about the queue of a number. -/
def Accounted (stages : List Stage) (index : Nat) : Option CommandQueue → Prop
  | none =>
    stages.filterMap (Stage.asked? index) = [] ∧ accepted index stages = [] ∧
      carried index stages = []
  | some queue => ∃ asked,
    stages.filterMap (Stage.asked? index) = [asked] ∧ queue.capacity = max asked 1 ∧
      accepted index stages = carried index stages ++ queue.pending

namespace Rack
variable {rack after first : Rack} {position index : Nat} {inst : Instance} {stage : Stage}
  {stages : List Stage} {queue : CommandQueue}

/-! ## One stage -/

theorem getElem?_abandonQueue (rack : Rack) (target : Option Nat) (index : Nat) :
    (rack.abandonQueue target).queues[index]? =
      (rack.queues[index]?).map fun queue =>
        if target = some index then queue.abandon else queue := by
  cases target with
  | none => simp [abandonQueue]
  | some target => simp [abandonQueue, List.getElem?_modify]

/-- What an action that runs no block can do to the queues: at most abandon one, open a new
one besides, or put a command into one. -/
theorem queues_of_act {action : HostAction} {done : Outcome Rack Reply}
    (h : rack.act action = some done)
    (hblock : ({ before := rack, action, done } : Turn).ranBlock = false) :
    (∃ target, done.state.queues = (rack.abandonQueue target).queues ∧
      ∀ index, (Stage.turn { before := rack, action, done }).asked? index = none ∧
        (Stage.turn { before := rack, action, done }).accepted index = []) ∨
    (∃ position capacity target, action = .openQueue position capacity ∧
      done.state.queues = (rack.abandonQueue target).queues ++ [CommandQueue.ofCapacity capacity]) ∨
    (∃ target command, action = .enqueue target command ∧ target < rack.queues.length ∧
      done.state = (rack.enqueue target command).state ∧
      done.result.isOk = (rack.enqueue target command).result.isOk) := by
  cases act_changes h with
  | created _ hqueues => exact .inl ⟨none, hqueues, fun _ => ⟨rfl, rfl⟩⟩
  | served _ _ hqueues => exact .inl ⟨none, hqueues, fun _ => ⟨rfl, rfl⟩⟩
  | performed _ _ hqueues =>
    have hfailed : done.result.isOk = false := hblock
    rw [hfailed] at hqueues
    exact .inl ⟨none, hqueues, fun _ => ⟨rfl, rfl⟩⟩
  | @opened position capacity inst _ _ _ hqueues =>
    exact .inr (.inl ⟨position, capacity, inst.queue, rfl, hqueues⟩)
  | @pushed target command htarget =>
    refine .inr (.inr ⟨target, command, rfl, htarget, rfl, ?_⟩)
    simp only [Outcome.view]
    cases (rack.enqueue target command).result <;> rfl
  | upkeep haction hdrops =>
    have hstage (index : Nat) : (Stage.turn { before := rack, action, done }).asked? index = none ∧
        (Stage.turn { before := rack, action, done }).accepted index = [] := by
      cases action <;> first | exact ⟨rfl, rfl⟩ | cases haction
    cases hdrops with
    | none _ hqueues => exact .inl ⟨none, hqueues, hstage⟩
    | one _ _ hqueues => exact .inl ⟨_, hqueues, hstage⟩

/-- Whatever a host does but run a block, nothing comes out of a queue. -/
theorem exists_passes_of_act {action : HostAction} {done : Outcome Rack Reply}
    (h : rack.act action = some done)
    (hblock : ({ before := rack, action, done } : Turn).ranBlock = false)
    (hqueue : rack.queues[index]? = some queue) :
    ∃ new, done.state.queues[index]? = some new ∧
      (Stage.turn { before := rack, action, done }).Passes index queue new := by
  have hlt := (List.getElem?_eq_some_iff.mp hqueue).1
  have hkept (target : Option Nat) :
      (rack.abandonQueue target).queues[index]? =
        some (if target = some index then queue.abandon else queue) := by
    rw [getElem?_abandonQueue, hqueue, Option.map_some]
  rcases queues_of_act h hblock with ⟨target, hqueues, hstage⟩ |
    ⟨position, capacity, target, rfl, hqueues⟩ | ⟨target, command, rfl, htarget, hstate, hresult⟩
  · refine ⟨_, ?_, Stage.passes_turn (hstage index).1 (hstage index).2 target⟩
    rw [hqueues, hkept]
  · have hasked : (Stage.turn ⟨rack, .openQueue position capacity, done⟩).asked? index = none := by
      rw [Stage.asked?_openQueue, if_neg (Nat.ne_of_gt hlt)]
    refine ⟨_, ?_, Stage.passes_turn hasked rfl target⟩
    rw [hqueues, List.getElem?_append_left, hkept]
    rwa [length_queues_abandonQueue]
  · obtain ⟨new, hnew, hcapacity, habandoned, hpending⟩ :=
      exists_queue_enqueue hqueue htarget command
    refine ⟨new, by rw [hstate, hnew], rfl, hcapacity, by rw [habandoned]; exact id, ?_⟩
    rw [← hresult] at hpending
    exact hpending.symm

/-- A queue that is not there yet can only be opened. -/
theorem opens_of_act {action : HostAction} {done : Outcome Rack Reply}
    (h : rack.act action = some done)
    (hblock : ({ before := rack, action, done } : Turn).ranBlock = false)
    (hnone : rack.queues[index]? = none) :
    done.state.queues[index]? =
        ((Stage.turn { before := rack, action, done }).asked? index).map .ofCapacity ∧
      (Stage.turn { before := rack, action, done }).accepted index = [] := by
  have hgone (target : Option Nat) : (rack.abandonQueue target).queues[index]? = none := by
    rw [getElem?_abandonQueue, hnone, Option.map_none]
  have hle := List.getElem?_eq_none_iff.mp hnone
  rcases queues_of_act h hblock with ⟨target, hqueues, hstage⟩ |
    ⟨position, capacity, target, rfl, hqueues⟩ | ⟨target, command, rfl, htarget, hstate, -⟩
  · rw [hqueues, hgone, (hstage index).1, (hstage index).2]
    exact ⟨rfl, rfl⟩
  · refine ⟨?_, rfl⟩
    rw [Stage.asked?_openQueue, hqueues]
    rcases Nat.lt_or_eq_of_le hle with hlt | rfl
    · rw [if_neg (Nat.ne_of_lt hlt), List.getElem?_eq_none]
      · rfl
      · rw [List.length_append, length_queues_abandonQueue]
        exact hlt
    · rw [if_pos rfl, ← rack.length_queues_abandonQueue target, List.getElem?_concat_length]
      rfl
  · have hne : target ≠ index := Nat.ne_of_lt (Nat.lt_of_lt_of_le htarget hle)
    rw [Stage.accepted_enqueue, if_neg fun hboth => hne hboth.1, hstate]
    refine ⟨?_, rfl⟩
    rw [List.getElem?_eq_none]
    · rfl
    · rwa [length_queues_enqueue]

theorem exists_passes_of_blocks {size : Nat} {inputs outputs : List Block}
    {moves : List QueueMove} {done : Outcome Rack Reply}
    (h : rack.Blocks position size inputs outputs moves done)
    (hqueue : rack.queues[index]? = some queue) :
    ∃ new, done.state.queues[index]? = some new ∧
      (Stage.block rack position moves).Passes index queue new := by
  cases h with
  | mk hinst _ hdrains _ =>
    obtain ⟨new, hnew, hcapacity, habandoned, hpending⟩ := hdrains.exists_queue hinst hqueue
    refine ⟨new, hnew, rfl, hcapacity, by rw [habandoned]; exact id, ?_⟩
    rw [Stage.carried, hinst, Option.bind_some]
    exact hpending

/-- In a block nothing goes into a queue that is not there. -/
theorem Drains.of_no_queue {moves : List QueueMove} {calls : List Call}
    (h : Drains position rack moves calls after) (hnone : rack.queues[index]? = none) :
    after.queues[index]? = none ∧ moves.filterMap (QueueMove.accepted? index) = [] := by
  rw [List.getElem?_eq_none_iff] at hnone ⊢
  induction h with
  | empty => exact ⟨hnone, rfl⟩
  | @take rack _ inst _ _ _ _ _ _ _ ih =>
    apply ih
    exact Nat.le_trans (Nat.le_of_eq (rack.length_queues_pop inst)) hnone
  | @push rack _ target command _ _ htarget _ ih =>
    have hne : target ≠ index := Nat.ne_of_lt (Nat.lt_of_lt_of_le htarget hnone)
    rw [← rack.length_queues_enqueue target command] at hnone
    obtain ⟨hafter, haccepted⟩ := ih hnone
    rw [QueueMove.filterMap_accepted?_push, haccepted, if_neg fun hboth => hne hboth.1]
    exact ⟨hafter, rfl⟩

/-! ## Whole courses -/

theorem Advances.exists_passes (h : rack.Advances stage after)
    (hqueue : rack.queues[index]? = some queue) :
    ∃ new, after.queues[index]? = some new ∧ stage.Passes index queue new := by
  cases h with
  | turn hdone hblock => exact exists_passes_of_act hdone hblock hqueue
  | block hblocks => exact exists_passes_of_blocks hblocks hqueue

theorem Advances.opens (hlinked : rack.Linked) (h : rack.Advances stage after)
    (hnone : rack.queues[index]? = none) :
    after.queues[index]? = (stage.asked? index).map .ofCapacity ∧
      stage.accepted index = [] ∧ stage.carried index = [] := by
  cases h with
  | turn hdone hblock =>
    obtain ⟨hopened, haccepted⟩ := opens_of_act hdone hblock hnone
    exact ⟨hopened, haccepted, rfl⟩
  | block hblocks =>
    cases hblocks with
    | mk hinst _ hdrains _ =>
      obtain ⟨hafter, haccepted⟩ := hdrains.of_no_queue hnone
      refine ⟨hafter, haccepted, ?_⟩
      rw [Stage.carried, hinst, Option.bind_some, if_neg]
      intro htaken
      obtain ⟨queue, hqueue⟩ := hlinked.exists_queue hinst htaken
      rw [hnone] at hqueue
      cases hqueue

theorem accepted_snoc (index : Nat) (stages : List Stage) (stage : Stage) :
    accepted index (stages ++ [stage]) = accepted index stages ++ stage.accepted index := by
  rw [accepted, List.flatMap_append, List.flatMap_singleton]
  rfl

theorem carried_snoc (index : Nat) (stages : List Stage) (stage : Stage) :
    carried index (stages ++ [stage]) = carried index stages ++ stage.carried index := by
  rw [carried, List.flatMap_append, List.flatMap_singleton]
  rfl

/-- What went into a queue has come out of it, in order, or waits. -/
theorem Course.accounted (h : Course {} stages rack) (index : Nat) :
    Accounted stages index rack.queues[index]? := by
  induction h with
  | start => exact ⟨rfl, rfl, rfl⟩
  | @next stages stage rack after hpast hstage ih =>
    cases hqueue : rack.queues[index]? with
    | none =>
      rw [hqueue] at ih
      obtain ⟨hasked, haccepted, hcarried⟩ := ih
      obtain ⟨hafter, hin, hout⟩ := hstage.opens (linked_empty.course hpast) hqueue
      have hempty : accepted index (stages ++ [stage]) = [] ∧
          carried index (stages ++ [stage]) = [] := by
        rw [accepted_snoc, carried_snoc, haccepted, hcarried, hin, hout]
        exact ⟨rfl, rfl⟩
      rw [hafter]
      cases hopened : stage.asked? index with
      | none =>
        refine ⟨?_, hempty⟩
        rw [filterMap_snoc, hasked, hopened]
        rfl
      | some asked =>
        refine ⟨asked, ?_, rfl, ?_⟩
        · rw [filterMap_snoc, hasked, hopened]
          rfl
        · rw [hempty.1, hempty.2]
          rfl
    | some queue =>
      rw [hqueue] at ih
      obtain ⟨asked, hasked, hcapacity, horder⟩ := ih
      obtain ⟨new, hnew, hpasses⟩ := hstage.exists_passes hqueue
      rw [hnew]
      refine ⟨asked, ?_, hpasses.capacity_eq.trans hcapacity, ?_⟩
      · rw [filterMap_snoc, hasked, hpasses.asked?_eq]
        rfl
      · rw [accepted_snoc, horder, List.append_assoc, hpasses.pending_eq, carried_snoc,
          List.append_assoc]

/-- Nothing comes out of a queue that is abandoned, and it stays so. -/
theorem Course.of_abandoned (h : rack.Course stages after) (hlinked : rack.Linked)
    (hqueue : rack.queues[index]? = some queue) (habandoned : queue.abandoned) :
    carried index stages = [] ∧
      ∃ same, after.queues[index]? = some same ∧ same.abandoned := by
  induction h with
  | start => exact ⟨rfl, queue, hqueue, habandoned⟩
  | @next stages stage rack after hpast hstage ih =>
    obtain ⟨hcarried, same, hsame, hstill⟩ := ih
    obtain ⟨new, hnew, hpasses⟩ := hstage.exists_passes hsame
    refine ⟨?_, new, hnew, hpasses.abandoned_of hstill⟩
    rw [carried_snoc, hcarried, List.nil_append]
    -- Nobody takes from the queue at this point, so a block on any instance passes it by.
    have hnobody := ((hlinked.course hpast).abandoned_iff hsame).mp hstill
    cases hstage with
    | turn => rfl
    | block hblocks =>
      cases hblocks with
      | mk hinst =>
        rw [Stage.carried, hinst, Option.bind_some, if_neg (hnobody _ _ hinst)]

/-! ## Senders and blocks -/

/-- What the sender of a queue can rely on, after the stages of a course. -/
structure KeepsQueue (rack : Rack) (stages : List Stage) (index asked : Nat)
    (queue : CommandQueue) : Prop where
  asked_eq : stages.filterMap (Stage.asked? index) = [asked]
  /-- A command is taken in exactly if there is room for it; otherwise nothing changes. -/
  act_enqueue : ∀ command, rack.act (.enqueue index command) = some
    (if queue.pending.length < max asked 1 then
      { state := { rack with
          queues := rack.queues.set index { queue with pending := queue.pending ++ [command] } }
        result := .ok .done }
    else { state := rack, result := .error .queueFull })
  slots_eq : queue.slots = max asked 1 - queue.pending.length
  /-- Nothing is lost, doubled or moved. -/
  accepted_eq : accepted index stages = carried index stages ++ queue.pending
  abandoned_iff : queue.abandoned ↔
    ∀ position inst, rack.instance? position = some inst → inst.queue ≠ some index
  /-- What an abandoned queue holds, or is given later, never comes out. -/
  of_abandoned : queue.abandoned → ∀ later after, rack.Course later after →
    carried index later = [] ∧ ∃ same, after.queues[index]? = some same ∧ same.abandoned

/-- What the host of an instance can rely on. -/
structure KeepsBlocks (rack : Rack) (position : Nat) (inst : Instance) : Prop where
  /-- A block that fails takes nothing; one that succeeds takes all that waits. -/
  act_perform : ∀ size inputs outputs, ∃ done,
    rack.act (.perform position size inputs outputs) = some done ∧
      ((∃ failure, done.result = .error failure) ∧ done.state = rack ∨
        (∃ blocks, done.result = .ok (.outputs blocks)) ∧
          rack.Blocks position size inputs outputs ((rack.pending inst).map .take) done)
  /-- A block does what it would do if the host had asked for the taken commands itself. -/
  direct : ∀ size inputs outputs moves done,
    rack.Blocks position size inputs outputs moves done →
      rack.Direct position size inputs outputs (moves.filterMap QueueMove.taken?) done
  /-- A block takes what waits in the queue of the instance and what comes in time. -/
  taken_eq : ∀ size inputs outputs moves done,
    rack.Blocks position size inputs outputs moves done →
      ∀ index queue, inst.queue = some index → rack.queues[index]? = some queue →
        moves.filterMap QueueMove.taken? =
            queue.pending ++ moves.filterMap (QueueMove.accepted? index) ∧
          done.state.queues[index]? = some { queue with pending := [] }
  taken_eq_nil : ∀ size inputs outputs moves done,
    rack.Blocks position size inputs outputs moves done →
      inst.queue = none → moves.filterMap QueueMove.taken? = []
  /-- While a block takes commands, a sender meets its queue as it is at that time. -/
  pushed_iff : ∀ size inputs outputs moves done,
    rack.Blocks position size inputs outputs moves done →
      ∀ (earlier later : List QueueMove) (index : Nat) (command : Command) (ok : Bool),
        moves = earlier ++ .push index command ok :: later →
          ∀ queue, rack.queues[index]? = some queue →
            (ok ↔ queue.pending.length +
                (earlier.filterMap (QueueMove.accepted? index)).length <
              queue.capacity + if inst.queue = some index then
                (earlier.filterMap QueueMove.taken?).length else 0)
  /-- A new queue takes the place of the one before, which is abandoned as it is. -/
  act_openQueue : ∀ capacity, ∃ done, rack.act (.openQueue position capacity) = some done ∧
    done.result = .ok (.index rack.queues.length) ∧
      done.state.queues[rack.queues.length]? = some (.ofCapacity capacity) ∧
        done.state.instance? position = some { inst with queue := some rack.queues.length } ∧
          ∀ index queue, inst.queue = some index → rack.queues[index]? = some queue →
            done.state.queues[index]? = some queue.abandon

theorem Course.keepsQueue (h : Course {} stages rack)
    (hqueue : rack.queues[index]? = some queue) :
    ∃ asked, rack.KeepsQueue stages index asked queue := by
  have haccounted := h.accounted index
  rw [hqueue] at haccounted
  obtain ⟨asked, hasked, hcapacity, horder⟩ := haccounted
  have hlinked := linked_empty.course h
  refine ⟨asked, hasked, ?_, ?_, horder, hlinked.abandoned_iff hqueue, ?_⟩
  · intro command
    have hlt := (List.getElem?_eq_some_iff.mp hqueue).1
    rw [act, if_pos hlt, enqueue_eq hqueue, hcapacity]
    split <;> rfl
  · rw [CommandQueue.slots, hcapacity]
  · intro habandoned later after hlater
    exact hlater.of_abandoned hlinked hqueue habandoned

/-- Nothing waits any longer for an instance that has run a block. -/
theorem Blocks.taken_eq {size : Nat} {inputs outputs : List Block} {moves : List QueueMove}
    {done : Outcome Rack Reply} (h : rack.Blocks position size inputs outputs moves done)
    (hinst : rack.instance? position = some inst) (htaken : inst.queue = some index)
    (hqueue : rack.queues[index]? = some queue) :
    moves.filterMap QueueMove.taken? =
        queue.pending ++ moves.filterMap (QueueMove.accepted? index) ∧
      done.state.queues[index]? = some { queue with pending := [] } := by
  cases h with
  | mk hsame _ hdrains _ =>
    obtain ⟨new, hnew, hcapacity, habandoned, horder⟩ := hdrains.exists_queue hinst hqueue
    obtain ⟨-, -, hempty⟩ := hdrains.instance?_eq hinst
    have hlast : (inst.carryOutAll (moves.filterMap QueueMove.taken?)).1.queue = some index := by
      rw [Instance.queue_carryOutAll, htaken]
    rw [pending_of_queue hlast hnew] at hempty
    rw [if_pos htaken, hempty, List.append_nil] at horder
    refine ⟨horder.symm, hnew.trans ?_⟩
    obtain ⟨capacity, pending, abandoned⟩ := new
    cases hcapacity
    cases habandoned
    cases hempty
    rfl

theorem exists_act_openQueue (hinst : rack.instance? position = some inst) (capacity : Nat) :
    ∃ done, rack.act (.openQueue position capacity) = some done ∧
      done.result = .ok (.index rack.queues.length) ∧
      done.state.queues =
        (rack.abandonQueue inst.queue).queues ++ [CommandQueue.ofCapacity capacity] ∧
      done.state.instance? position = some { inst with queue := some rack.queues.length } := by
  have hlength := rack.length_queues_abandonQueue inst.queue
  have hgrown : ({ rack.abandonQueue inst.queue with
      queues := (rack.abandonQueue inst.queue).queues ++ [.ofCapacity capacity] } : Rack).instance?
        position = some inst := by
    rw [← hinst]
    exact instance?_of_live_eq (live_abandonQueue rack inst.queue) position
  rw [act, openQueue, hinst, Option.map_some, Option.map_some]
  refine ⟨_, rfl, ?_, rfl, ?_⟩
  · rw [← hlength]
    rfl
  · rw [← hlength]
    exact instance?_setInstance hgrown _

theorem keepsBlocks (hinst : rack.instance? position = some inst) :
    rack.KeepsBlocks position inst where
  act_perform := by
    intro size inputs outputs
    cases hcheck : inst.checkBlock size inputs outputs with
    | error failure =>
      have hfail := congrArg Outcome.result
        (Instance.perform_eq_of_error hcheck (rack.pending inst))
      obtain ⟨done, hdone, hresult⟩ := exists_act_perform hinst size inputs outputs
      rw [hfail] at hresult
      exact ⟨done, hdone, .inl ⟨⟨failure, hresult⟩, (act_perform_of_error hdone hinst hfail).1⟩⟩
    | ok =>
      have hdone := act_perform hinst hcheck
      exact ⟨_, hdone, .inr ⟨⟨_, rfl⟩, blocks_of_perform hdone hinst hcheck⟩⟩
  direct := fun _ _ _ _ _ hblocks => hblocks.direct
  taken_eq := by
    intro size inputs outputs moves done hblocks index queue htaken hqueue
    exact hblocks.taken_eq hinst htaken hqueue
  taken_eq_nil := by
    intro size inputs outputs moves done hblocks hnone
    cases hblocks with
    | mk _ _ hdrains _ => exact hdrains.taken_eq_nil hinst hnone
  pushed_iff := by
    intro size inputs outputs moves done hblocks earlier later index command ok hmoves queue hqueue
    cases hblocks with
    | mk _ _ hdrains _ => exact hdrains.pushed_iff hinst hmoves hqueue
  act_openQueue := by
    intro capacity
    obtain ⟨done, hdone, hresult, hqueues, hnew⟩ := exists_act_openQueue hinst capacity
    have hlength := rack.length_queues_abandonQueue inst.queue
    refine ⟨done, hdone, hresult, ?_, hnew, ?_⟩
    · rw [hqueues, ← hlength, List.getElem?_concat_length]
    · intro index queue htaken hqueue
      have hlt := (List.getElem?_eq_some_iff.mp hqueue).1
      rw [hqueues, List.getElem?_append_left (by rwa [hlength]), getElem?_abandonQueue, hqueue,
        Option.map_some, if_pos htaken]

/-- In every course, whoever sends and whichever blocks fail or queues are replaced: queues
lose, double and move nothing, and blocks do what asking for their commands would do. -/
theorem Course.commands_kept (h : Course {} stages rack) :
    (∀ index queue, rack.queues[index]? = some queue →
      ∃ asked, rack.KeepsQueue stages index asked queue) ∧
    ∀ position inst, rack.instance? position = some inst → rack.KeepsBlocks position inst := by
  constructor
  · intro index queue hqueue
    exact h.keepsQueue hqueue
  · intro position inst hinst
    exact keepsBlocks hinst

end Rack

/-- A session in which a block fails, a queue is full once, and another takes its place. -/
def replacing : List HostAction :=
  [.create none,
    .request 0 (.prepare {}),
    .openQueue 0 2,
    .enqueue 0 (.send ⟨"a"⟩ .bang),
    .perform 0 63 [] [],
    .enqueue 0 (.midi (.noteOn 1 60 100)),
    .enqueue 0 (.midi (.noteOn 1 60 0)),
    .perform 0 64 [] [],
    .enqueue 0 (.midi (.byte 0 248)),
    .openQueue 0 0,
    .enqueue 0 (.send ⟨"b"⟩ .bang),
    .enqueue 1 (.send ⟨"c"⟩ .bang),
    .perform 0 64 [] []]

/-- The block that could be run took the two commands that the first queue had room for, and
what that queue was given later stays in it. -/
theorem commands_kept_replacing :
    ∃ stages, ∃ rack : Rack, ∃ inst, Rack.Course {} stages rack ∧
      rack.instance? 0 = some inst ∧
      accepted 0 stages =
        [.send ⟨"a"⟩ .bang, .midi (.noteOn 1 60 100), .midi (.byte 0 248), .send ⟨"b"⟩ .bang] ∧
      carried 0 stages = [.send ⟨"a"⟩ .bang, .midi (.noteOn 1 60 100)] ∧
      carried 1 stages = [.send ⟨"c"⟩ .bang] ∧
      (∃ queue asked, queue.abandoned ∧ rack.KeepsQueue stages 0 asked queue) ∧
      (∃ queue asked, queue.slots = 1 ∧ rack.KeepsQueue stages 1 asked queue) ∧
      rack.KeepsBlocks 0 inst := by
  have hsession : (({} : Rack).session replacing).any (fun rack =>
      (rack.instance? 0).any fun _ => decide
        (accepted 0 ((({} : Rack).turns replacing).map Turn.stage) =
            [.send ⟨"a"⟩ .bang, .midi (.noteOn 1 60 100), .midi (.byte 0 248),
              .send ⟨"b"⟩ .bang] ∧
          carried 0 ((({} : Rack).turns replacing).map Turn.stage) =
            [.send ⟨"a"⟩ .bang, .midi (.noteOn 1 60 100)] ∧
          carried 1 ((({} : Rack).turns replacing).map Turn.stage) = [.send ⟨"c"⟩ .bang] ∧
          rack.queues =
            [{ capacity := 2, pending := [.midi (.byte 0 248), .send ⟨"b"⟩ .bang],
               abandoned := true },
              { capacity := 1 }])) = true := by
    decide
  obtain ⟨rack, hrack, hfound⟩ := (Option.any_eq_true _ _).mp hsession
  obtain ⟨inst, hinst, hlists⟩ := (Option.any_eq_true _ _).mp hfound
  obtain ⟨hin, hfirst, hsecond, hqueues⟩ := of_decide_eq_true hlists
  have hcourse := (Rack.Chronicle.start.session hrack).course
  obtain ⟨hkept, hblocks⟩ := hcourse.commands_kept
  obtain ⟨first, hkeepsfirst⟩ := hkept 0 _ (by rw [hqueues]; rfl)
  obtain ⟨second, hkeepssecond⟩ := hkept 1 _ (by rw [hqueues]; rfl)
  exact ⟨_, rack, inst, hcourse, hinst, hin, hfirst, hsecond, ⟨_, first, rfl, hkeepsfirst⟩,
    ⟨_, second, rfl, hkeepssecond⟩, hblocks 0 inst hinst⟩

end Patchbay
