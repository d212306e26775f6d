import Mathlib.Data.List.Count
import Patchbay.Proofs.Draining

/-!
# Courses

A course is a session in which senders go on while blocks are run. It is told stage by
stage: an action of the host, or a block with all that happened to the queues while the
instance took its commands. At any time a queue has one instance that takes from it, or
it is abandoned and has none.

## Implementation notes

A block in which no sender interferes takes what waits. So each session is a course.
-/

namespace Patchbay

/-- Whether a turn has run a block. -/
def Turn.ranBlock (turn : Turn) : Bool :=
  match turn.action with
  | .perform .. => turn.done.result.isOk
  | _ => false

/-- One stretch of a course. -/
inductive Stage where
  /-- An action that runs no block. -/
  | turn (turn : Turn)
  /-- A block on the instance at a position. -/
  | block (before : Rack) (position : Nat) (moves : List QueueMove)

/-- The stage that a turn is if no sender interferes. -/
def Turn.stage (turn : Turn) : Stage :=
  match turn.action with
  | .perform position .. =>
    if turn.done.result.isOk then
      let waiting := (turn.before.instance? position).elim [] turn.before.pending
      .block turn.before position (waiting.map .take)
    else .turn turn
  | _ => .turn turn

namespace Rack

/-- A stage leads from one rack to another. -/
inductive Advances (rack : Rack) : Stage → Rack → Prop
  | turn {action : HostAction} {done : Outcome Rack Reply} (hdone : rack.act action = some done)
      (hblock : ({ before := rack, action, done } : Turn).ranBlock = false) :
      Advances rack (.turn { before := rack, action, done }) done.state
  | block {position size : Nat} {inputs outputs : List Block} {moves : List QueueMove}
      {done : Outcome Rack Reply} (hblocks : rack.Blocks position size inputs outputs moves done) :
      Advances rack (.block rack position moves) done.state

/-- The stages from one rack on, and the rack that they lead to. -/
inductive Course (first : Rack) : List Stage → Rack → Prop
  | start : Course first [] first
  | next {stages : List Stage} {stage : Stage} {rack after : Rack}
      (hpast : Course first stages rack) (hstage : rack.Advances stage after) :
      Course first (stages ++ [stage]) after

variable {rack after : Rack} {position index : Nat} {inst : Instance}

theorem advances_of_act {action : HostAction} {done : Outcome Rack Reply}
    (h : rack.act action = some done) :
    rack.Advances (Turn.stage { before := rack, action, done }) done.state := by
  cases action with
  | perform position size inputs outputs =>
    cases hok : done.result.isOk with
    | false =>
      simp only [Turn.stage, hok]
      exact .turn h hok
    | true =>
      obtain ⟨inst, hinst⟩ := (act_changes h).exists_instance rfl
      simp only [Turn.stage, hok, hinst, Option.elim_some]
      exact .block (blocks_of_perform h hinst (checkBlock_of_act_perform h hinst hok))
  | _ => exact .turn h rfl

/-- Each session is a course. -/
theorem Chronicle.course {turns : List Turn} (h : Chronicle turns rack) :
    Course {} (turns.map Turn.stage) rack := by
  induction h with
  | start => exact .start
  | next _ hdone ih =>
    rw [List.map_append]
    exact ih.next (advances_of_act hdone)

/-! ## Who takes from which queue -/

/-- The queue that is taken from at each position, if any. -/
def takers (rack : Rack) : List (Option Nat) :=
  rack.live.map fun stands => stands.bind Instance.queue

/-- Whether there is a queue of this number that is not abandoned. -/
def isOpen (rack : Rack) (index : Nat) : Bool :=
  (rack.queues[index]?).any fun queue => !queue.abandoned

/-- Each open queue has one instance that takes from it, and no other queue has any. -/
def Linked (rack : Rack) : Prop :=
  ∀ index, rack.takers.count (some index) = (rack.isOpen index).toNat

theorem getElem?_takers (h : rack.instance? position = some inst) :
    rack.takers[position]? = some inst.queue := by
  rw [takers, List.getElem?_map, live_eq_some_of_instance? h]
  rfl

theorem some_mem_takers_iff : some index ∈ rack.takers ↔
    ∃ position inst, rack.instance? position = some inst ∧ inst.queue = some index := by
  constructor
  · intro h
    obtain ⟨position, hposition⟩ := List.mem_iff_getElem?.mp h
    rw [takers, List.getElem?_map] at hposition
    obtain ⟨stands, hstands, hqueue⟩ := Option.map_eq_some_iff.mp hposition
    obtain ⟨inst, rfl, hqueue⟩ := Option.bind_eq_some_iff.mp hqueue
    exact ⟨position, inst, by rw [instance?_eq, hstands]; rfl, hqueue⟩
  · rintro ⟨position, inst, hinst, hqueue⟩
    rw [← hqueue]
    exact List.mem_of_getElem? (getElem?_takers hinst)

theorem takers_of_live_eq (h : after.live = rack.live) : after.takers = rack.takers := by
  rw [takers, takers, h]

theorem takers_of_set {new : Option Instance} (h : after.live = rack.live.set position new) :
    after.takers = rack.takers.set position (new.bind Instance.queue) := by
  rw [takers, h, List.map_set]
  rfl

/-- An instance that keeps its queue does not change who takes from which. -/
theorem takers_of_queue_eq (hinst : rack.instance? position = some inst) {new : Instance}
    (hlive : after.live = rack.live.set position (some new)) (hqueue : new.queue = inst.queue) :
    after.takers = rack.takers := by
  obtain ⟨hlt, hget⟩ := List.getElem?_eq_some_iff.mp (getElem?_takers hinst)
  rw [takers_of_set hlive, Option.bind_some, hqueue, ← hget, List.set_getElem_self]

theorem isOpen_of_queues_eq (h : after.queues = rack.queues) (index : Nat) :
    after.isOpen index = rack.isOpen index := by
  rw [isOpen, isOpen, h]

theorem length_queues_abandonQueue (rack : Rack) (queue : Option Nat) :
    (rack.abandonQueue queue).queues.length = rack.queues.length := by
  cases queue with
  | none => rfl
  | some target => exact List.length_modify ..

theorem isOpen_abandonQueue (rack : Rack) (queue : Option Nat) (index : Nat) :
    (rack.abandonQueue queue).isOpen index =
      (rack.isOpen index && decide (queue ≠ some index)) := by
  cases queue with
  | none => simp [abandonQueue]
  | some target =>
    simp only [isOpen, abandonQueue, List.getElem?_modify]
    by_cases heq : target = index
    · cases rack.queues[index]? <;> simp [heq, CommandQueue.abandon]
    · cases rack.queues[index]? <;> simp [heq]

theorem isOpen_drain (rack : Rack) (inst : Instance) (index : Nat) :
    (rack.drain inst).isOpen index = rack.isOpen index := by
  cases hqueue : inst.queue with
  | none => rw [drain, hqueue]
  | some target =>
    simp only [isOpen, drain, hqueue, List.getElem?_modify]
    by_cases heq : target = index
    · cases rack.queues[index]? <;> simp [heq, CommandQueue.drained]
    · cases rack.queues[index]? <;> simp [heq]

theorem toNat_isOpen_of_append {capacity : Nat}
    (h : after.queues = rack.queues ++ [CommandQueue.ofCapacity capacity]) (index : Nat) :
    (after.isOpen index).toNat =
      (rack.isOpen index).toNat + if rack.queues.length = index then 1 else 0 := by
  rw [isOpen, isOpen, h]
  rcases Nat.lt_trichotomy index rack.queues.length with hlt | rfl | hgt
  · rw [List.getElem?_append_left hlt, if_neg (Nat.ne_of_gt hlt)]
    rfl
  · simp [CommandQueue.ofCapacity]
  · have hlength : (rack.queues ++ [CommandQueue.ofCapacity capacity]).length ≤ index := by
      rw [List.length_append]
      exact hgt
    rw [List.getElem?_eq_none hlength, List.getElem?_eq_none (Nat.le_of_lt hgt),
      if_neg (Nat.ne_of_lt hgt)]
    rfl

/-- Queues that stay, as abandoned as they were, are as open as they were. -/
theorem isOpen_of_exists_queue (hlength : after.queues.length = rack.queues.length)
    (hqueue : ∀ queue, rack.queues[index]? = some queue →
      ∃ new, after.queues[index]? = some new ∧ new.abandoned = queue.abandoned) :
    after.isOpen index = rack.isOpen index := by
  cases hfound : rack.queues[index]? with
  | none =>
    have hgone : after.queues[index]? = none := by
      rw [List.getElem?_eq_none_iff, hlength]
      exact List.getElem?_eq_none_iff.mp hfound
    rw [isOpen, isOpen, hfound, hgone]
  | some queue =>
    obtain ⟨new, hnew, habandoned⟩ := hqueue queue hfound
    simp [isOpen, hfound, hnew, habandoned]

namespace Linked

/-- A queue is abandoned exactly if no live instance takes from it. -/
theorem abandoned_iff (h : rack.Linked) {queue : CommandQueue}
    (hqueue : rack.queues[index]? = some queue) :
    queue.abandoned ↔ ∀ position inst, rack.instance? position = some inst →
      inst.queue ≠ some index := by
  have hcount := h index
  rw [isOpen, hqueue, Option.any_some] at hcount
  have hmem : queue.abandoned ↔ some index ∉ rack.takers := by
    rw [← List.count_eq_zero, hcount]
    cases queue.abandoned <;> decide
  rw [hmem, some_mem_takers_iff]
  constructor
  · intro hnone position inst hinst htaken
    exact hnone ⟨position, inst, hinst, htaken⟩
  · rintro hnone ⟨position, inst, hinst, htaken⟩
    exact hnone position inst hinst htaken

/-- The queue that an instance takes from is there. -/
theorem exists_queue (h : rack.Linked) (hinst : rack.instance? position = some inst)
    (htaken : inst.queue = some index) : ∃ queue, rack.queues[index]? = some queue := by
  have hmem : some index ∈ rack.takers := some_mem_takers_iff.mpr ⟨position, inst, hinst, htaken⟩
  have hcount := List.one_le_count_iff.mpr hmem
  rw [h index, isOpen] at hcount
  cases hfound : rack.queues[index]? with
  | none => simp [hfound] at hcount
  | some queue => exact ⟨queue, rfl⟩

theorem of_eq (h : rack.Linked) (htakers : after.takers = rack.takers)
    (hopen : ∀ index, after.isOpen index = rack.isOpen index) : after.Linked := by
  intro index
  rw [htakers, hopen index, h index]

/-- An instance turns to another queue or goes, and the queue it had is abandoned. -/
theorem count_set (h : rack.Linked) (hinst : rack.instance? position = some inst)
    (new : Option Nat) (index : Nat) :
    (rack.takers.set position new).count (some index) =
      ((rack.abandonQueue inst.queue).isOpen index).toNat +
        if new = some index then 1 else 0 := by
  obtain ⟨hlt, hget⟩ := List.getElem?_eq_some_iff.mp (getElem?_takers hinst)
  rw [List.count_set hlt, hget, h index, isOpen_abandonQueue]
  -- If the instance had the queue, it is open, and this position is the one that counts.
  by_cases heq : inst.queue = some index
  · cases rack.isOpen index <;> simp [heq]
  · simp [heq]

theorem drops (h : rack.Linked) (hdrops : rack.Drops after) : after.Linked := by
  cases hdrops with
  | none hlive hqueues =>
    exact h.of_eq (takers_of_live_eq hlive) (isOpen_of_queues_eq hqueues)
  | one hinst hlive hqueues =>
    intro index
    rw [takers_of_set hlive, h.count_set hinst, isOpen_of_queues_eq hqueues]
    rfl

end Linked

end Rack

theorem Instance.queue_serve (inst : Instance) (environment : Environment) (request : Request) :
    (inst.serve environment request).state.2.queue = inst.queue := by
  cases request with
  | load name directory =>
    simp only [serve, Outcome.view, load]
    split
    · rfl
    · split <;> rfl
  | close id =>
    simp only [serve, Outcome.view, Outcome.within, close]
    split <;> rfl
  | prepare format =>
    simp only [serve, Outcome.view, Outcome.within, prepare]
    split <;> rfl
  | _ => rfl

theorem Instance.queue_perform (inst : Instance) (pending : List Command) (size : Nat)
    (inputs outputs : List Block) :
    (inst.perform pending size inputs outputs).state.queue = inst.queue := by
  unfold perform
  split
  · rfl
  · exact inst.queue_carryOutAll pending

namespace Rack
variable {rack after first : Rack} {position index : Nat} {inst : Instance}

theorem isOpen_enqueue (rack : Rack) {target : Nat} (htarget : target < rack.queues.length)
    (command : Command) (index : Nat) :
    (rack.enqueue target command).state.isOpen index = rack.isOpen index := by
  apply isOpen_of_exists_queue (length_queues_enqueue rack target command)
  intro queue hqueue
  obtain ⟨new, hnew, -, habandoned, -⟩ := exists_queue_enqueue hqueue htarget command
  exact ⟨new, hnew, habandoned⟩

theorem Linked.act (h : rack.Linked) {action : HostAction} {done : Outcome Rack Reply}
    (hdone : rack.act action = some done) : done.state.Linked := by
  cases act_changes hdone with
  | created hlive hqueues =>
    intro index
    have htakers : done.state.takers = rack.takers ++ [none] := by
      rw [takers, hlive, List.map_append]
      rfl
    rw [htakers, List.count_append, h index, isOpen_of_queues_eq hqueues]
    simp
  | served hinst hlive hqueues =>
    exact h.of_eq (takers_of_queue_eq hinst hlive (Instance.queue_serve ..))
      (isOpen_of_queues_eq hqueues)
  | performed hinst hlive hqueues =>
    refine h.of_eq (takers_of_queue_eq hinst hlive (Instance.queue_perform ..)) ?_
    intro index
    split at hqueues
    · rw [isOpen_of_queues_eq hqueues, isOpen_drain]
    · exact isOpen_of_queues_eq hqueues index
  | @opened position capacity inst _ hinst hlive hqueues =>
    intro index
    rw [takers_of_set hlive, Option.bind_some, h.count_set hinst, toNat_isOpen_of_append hqueues,
      length_queues_abandonQueue]
    simp
  | @pushed queue command hqueue =>
    exact h.of_eq (takers_of_live_eq (rack.live_enqueue queue command))
      (rack.isOpen_enqueue hqueue command)
  | upkeep _ hdrops => exact h.drops hdrops

theorem isOpen_pop {command : Command} {rest : List Command}
    (hpending : rack.pending inst = command :: rest) (index : Nat) :
    (rack.pop inst).isOpen index = rack.isOpen index := by
  apply isOpen_of_exists_queue (length_queues_pop rack inst)
  intro queue hqueue
  obtain ⟨new, hnew, -, habandoned, -⟩ := exists_queue_pop hqueue hpending
  exact ⟨new, hnew, habandoned⟩

/-- An instance that is changed and keeps its queue. -/
theorem Linked.setInstance (h : rack.Linked) (hinst : rack.instance? position = some inst)
    {new : Instance} (hqueue : new.queue = inst.queue) : (rack.setInstance position new).Linked :=
  h.of_eq (takers_of_queue_eq hinst (live_setInstance hinst new) hqueue)
    (isOpen_of_queues_eq rfl)

theorem Linked.drains (h : rack.Linked) {moves : List QueueMove} {calls : List Call}
    (hdrains : Drains position rack moves calls after) : after.Linked := by
  induction hdrains with
  | empty => exact h
  | @take rack _ inst command rest _ _ hinst hpending _ ih =>
    have hpopped : (rack.pop inst).Linked :=
      h.of_eq (takers_of_live_eq (live_pop rack inst)) (isOpen_pop hpending)
    have hsame : (rack.pop inst).instance? position = some inst := by
      rw [instance?_of_live_eq (live_pop rack inst), hinst]
    exact ih (hpopped.setInstance hsame (inst.queue_carryOut command))
  | @push rack _ target command _ _ htarget _ ih =>
    exact ih (h.of_eq (takers_of_live_eq (rack.live_enqueue target command))
      (rack.isOpen_enqueue htarget command))

theorem Linked.block (h : rack.Linked) {size : Nat} {inputs outputs : List Block}
    {moves : List QueueMove} {done : Outcome Rack Reply}
    (hblocks : rack.Blocks position size inputs outputs moves done) : done.state.Linked := by
  cases hblocks with
  | mk _ _ hdrains hlast => exact (h.drains hdrains).setInstance hlast rfl

theorem Linked.advances (h : rack.Linked) {stage : Stage} (hstage : rack.Advances stage after) :
    after.Linked := by
  cases hstage with
  | turn hdone => exact h.act hdone
  | block hblocks => exact h.block hblocks

/-- In every course each queue has one instance that takes from it, or is abandoned. -/
theorem Linked.course (h : first.Linked) {stages : List Stage}
    (hcourse : first.Course stages rack) : rack.Linked := by
  induction hcourse with
  | start => exact h
  | next _ hstage ih => exact ih.advances hstage

theorem linked_empty : ({} : Rack).Linked := fun _ => rfl

end Rack

end Patchbay
