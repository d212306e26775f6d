import Mathlib.Data.List.Basic
import Patchbay.Proofs.Failing

/-!
# Taking commands

An instance that runs a block first takes the commands that wait for it, one at a time,
and carries out each before it takes the next. Senders go on meanwhile, so a command that
comes in time is taken as well. The block then does what it would do if the host had
asked for the taken commands itself, one by one, and run the block with nothing waiting.

## Implementation notes

`Rack.perform` hands all that waits to the instance at once. It is the case in which no
sender interferes. A command that is put into a queue after the last look at it waits,
just as if it came after the block: the audio does not touch the queues.
-/

namespace Patchbay

/-- The request of a host that asks for a command itself. -/
def Command.request : Command → Request
  | .send tie message => .send tie message
  | .midi event => .midi event

/-- The queue after its oldest command has been taken. -/
def CommandQueue.popped (queue : CommandQueue) : CommandQueue :=
  { queue with pending := queue.pending.tail }

/-- What happens to the queues while an instance takes its commands. -/
inductive QueueMove where
  | take (command : Command)
  /-- A sender puts a command into a queue, or is turned away. -/
  | push (queue : Nat) (command : Command) (accepted : Bool)

namespace QueueMove

/-- The command that is taken. -/
def taken? : QueueMove → Option Command
  | take command => some command
  | push .. => none

/-- The command that is put into a queue. -/
def accepted? (queue : Nat) : QueueMove → Option Command
  | take _ => none
  | push target command accepted => if target = queue ∧ accepted then some command else none

theorem filterMap_accepted?_push (index target : Nat) (command : Command) (accepted : Bool)
    (moves : List QueueMove) :
    (push target command accepted :: moves).filterMap (accepted? index) =
      (if target = index ∧ accepted then [command] else []) ++
        moves.filterMap (accepted? index) := by
  rw [List.filterMap_cons, accepted?]
  by_cases h : target = index ∧ accepted
  · rw [if_pos h, if_pos h, List.singleton_append]
  · rw [if_neg h, if_neg h, List.nil_append]

end QueueMove

theorem Instance.queue_carryOutAll (inst : Instance) (commands : List Command) :
    (inst.carryOutAll commands).1.queue = inst.queue := by
  obtain ⟨slots, stack, depth, hkept⟩ := exists_carryOutAll_eq commands inst
  rw [hkept]

theorem Instance.queue_carryOut (inst : Instance) (command : Command) :
    (inst.carryOut command).1.queue = inst.queue := inst.queue_carryOutAll [command]

/-- Commands do not decide whether a block can be run. -/
theorem Instance.checkBlock_carryOutAll (inst : Instance) (commands : List Command) (size : Nat)
    (inputs outputs : List Block) :
    (inst.carryOutAll commands).1.checkBlock size inputs outputs =
      inst.checkBlock size inputs outputs := by
  unfold checkBlock
  rw [carryOutAll_format]

namespace Rack

/-- Take actions one after the other, with all their calls. -/
def actAll (rack : Rack) : List HostAction → Option (Rack × List Call)
  | [] => some (rack, [])
  | action :: rest => (rack.act action).bind fun done =>
    (done.state.actAll rest).map fun (after, calls) => (after, done.calls ++ calls)

/-- The rack after an instance has taken its oldest command. -/
def pop (rack : Rack) (inst : Instance) : Rack :=
  match inst.queue with
  | some index => { rack with queues := rack.queues.modify index CommandQueue.popped }
  | none => rack

/-- The rack after an instance has carried out a command. -/
def carriedOut (rack : Rack) (position : Nat) (inst : Instance) (command : Command) : Rack :=
  (rack.setInstance position (inst.carryOut command).1).record (inst.carryOut command).2

/-- An instance takes commands until it finds its queue empty, and senders go on. -/
inductive Drains (position : Nat) : Rack → List QueueMove → List Call → Rack → Prop
  | empty {rack : Rack} {inst : Instance} (hinst : rack.instance? position = some inst)
      (hpending : rack.pending inst = []) : Drains position rack [] [] rack
  | take {rack final : Rack} {inst : Instance} {command : Command} {rest : List Command}
      {moves : List QueueMove} {calls : List Call}
      (hinst : rack.instance? position = some inst)
      (hpending : rack.pending inst = command :: rest)
      (hrest : Drains position ((rack.pop inst).carriedOut position inst command) moves calls
        final) :
      Drains position rack (.take command :: moves) ((inst.carryOut command).2 ++ calls) final
  | push {rack final : Rack} {queue : Nat} {command : Command} {moves : List QueueMove}
      {calls : List Call} (hqueue : queue < rack.queues.length)
      (hrest : Drains position (rack.enqueue queue command).state moves calls final) :
      Drains position rack
        (.push queue command (rack.enqueue queue command).result.isOk :: moves) calls final

/-- A block is run on an instance while senders go on. -/
inductive Blocks (rack : Rack) (position size : Nat) (inputs outputs : List Block) :
    List QueueMove → Outcome Rack Reply → Prop
  | mk {inst last : Instance} {final : Rack} {moves : List QueueMove} {calls : List Call}
      (hinst : rack.instance? position = some inst)
      (hcheck : inst.checkBlock size inputs outputs = .ok ())
      (hdrains : Drains position rack moves calls final)
      (hlast : final.instance? position = some last) :
      Blocks rack position size inputs outputs moves
        { state := (final.setInstance position (last.block size inputs outputs).state).record
            (last.block size inputs outputs).calls
          calls := calls ++ (last.block size inputs outputs).calls
          result := (last.block size inputs outputs).result.map .outputs }

section
variable {rack final : Rack} {position : Nat} {inst : Instance} {moves : List QueueMove}
  {calls : List Call}

/-! ## Single moves -/

theorem instance?_setInstance (h : rack.instance? position = some inst) (new : Instance) :
    (rack.setInstance position new).instance? position = some new :=
  instance?_of_live_set h (live_setInstance h new)

theorem instance?_enqueue (h : rack.instance? position = some inst) (target : Nat)
    (command : Command) : (rack.enqueue target command).state.instance? position = some inst := by
  rw [instance?_of_live_eq (rack.live_enqueue target command), h]

theorem live_pop (rack : Rack) (inst : Instance) : (rack.pop inst).live = rack.live := by
  unfold pop
  cases inst.queue <;> rfl

theorem instance?_carriedOut (h : rack.instance? position = some inst) (command : Command) :
    ((rack.pop inst).carriedOut position inst command).instance? position =
      some (inst.carryOut command).1 := by
  have hpopped : (rack.pop inst).instance? position = some inst := by
    rw [instance?_of_live_eq (live_pop rack inst), h]
  exact instance?_setInstance hpopped _

/-- To carry out a command is to serve the request for it. -/
theorem act_request (h : rack.instance? position = some inst) (command : Command) :
    rack.act (.request position command.request) =
      some { state := rack.carriedOut position inst command
             calls := (inst.carryOut command).2
             result := .ok .done } := by
  cases command <;> simp only [act, run, h, Option.map_some] <;> rfl

theorem pending_of_queue (h : inst.queue = some position) {queue : CommandQueue}
    (hqueue : rack.queues[position]? = some queue) : rack.pending inst = queue.pending := by
  simp [pending, h, hqueue]

/-- A command is taken in exactly if there is room for it; otherwise nothing changes. -/
theorem enqueue_eq {target : Nat} {queue : CommandQueue} (h : rack.queues[target]? = some queue)
    (command : Command) :
    rack.enqueue target command =
      if queue.pending.length < queue.capacity then
        { state := { rack with
            queues := rack.queues.set target { queue with pending := queue.pending ++ [command] } }
          result := .ok () }
      else { state := rack, result := .error .queueFull } := by
  by_cases hroom : queue.pending.length < queue.capacity
  · simp only [enqueue, h, Option.bind_some, CommandQueue.push?, if_pos hroom]
  · simp only [enqueue, h, Option.bind_some, CommandQueue.push?, if_neg hroom]

theorem length_queues_enqueue (rack : Rack) (target : Nat) (command : Command) :
    (rack.enqueue target command).state.queues.length = rack.queues.length := by
  unfold enqueue
  split
  · exact List.length_set
  · rfl

/-- What a push does to each queue. -/
theorem exists_queue_enqueue {index : Nat} {queue : CommandQueue}
    (h : rack.queues[index]? = some queue) {target : Nat} (htarget : target < rack.queues.length)
    (command : Command) :
    ∃ after, (rack.enqueue target command).state.queues[index]? = some after ∧
      after.capacity = queue.capacity ∧ after.abandoned = queue.abandoned ∧
      after.pending = queue.pending ++
        (if target = index ∧ (rack.enqueue target command).result.isOk then [command]
        else []) := by
  rw [enqueue_eq (List.getElem?_eq_getElem htarget)]
  split
  · by_cases heq : target = index
    · subst heq
      rw [List.getElem?_eq_getElem htarget, Option.some.injEq] at h
      subst h
      refine ⟨_, List.getElem?_set_self htarget, rfl, rfl, ?_⟩
      rw [if_pos ⟨rfl, rfl⟩]
    · refine ⟨queue, ?_, rfl, rfl, ?_⟩
      · rw [List.getElem?_set_ne heq, h]
      · rw [if_neg fun hboth => heq hboth.1, List.append_nil]
  · refine ⟨queue, h, rfl, rfl, ?_⟩
    rw [if_neg fun hboth => Bool.noConfusion hboth.2, List.append_nil]

theorem length_queues_pop (rack : Rack) (inst : Instance) :
    (rack.pop inst).queues.length = rack.queues.length := by
  unfold pop
  cases inst.queue with
  | none => rfl
  | some index => exact List.length_modify ..

/-- What the taking of a command does to each queue. -/
theorem exists_queue_pop {index : Nat} {queue : CommandQueue}
    (h : rack.queues[index]? = some queue) {command : Command} {rest : List Command}
    (hpending : rack.pending inst = command :: rest) :
    ∃ after, (rack.pop inst).queues[index]? = some after ∧
      after.capacity = queue.capacity ∧ after.abandoned = queue.abandoned ∧
      queue.pending = (if inst.queue = some index then [command] else []) ++ after.pending := by
  unfold pop
  cases hqueue : inst.queue with
  | none => exact ⟨queue, h, rfl, rfl, rfl⟩
  | some target =>
    by_cases heq : target = index
    · subst heq
      rw [pending_of_queue hqueue h] at hpending
      refine ⟨queue.popped, ?_, rfl, rfl, ?_⟩
      · simp [h]
      · simp [CommandQueue.popped, hpending]
    · refine ⟨queue, ?_, rfl, rfl, ?_⟩
      · simp [h, heq]
      · simp [heq]

/-! ## All moves -/

/-- The instance has carried out what was taken, in order, and finds nothing more. -/
theorem Drains.instance?_eq (h : Drains position rack moves calls final)
    (hinst : rack.instance? position = some inst) :
    final.instance? position = some (inst.carryOutAll (moves.filterMap QueueMove.taken?)).1 ∧
      calls = (inst.carryOutAll (moves.filterMap QueueMove.taken?)).2 ∧
      final.pending (inst.carryOutAll (moves.filterMap QueueMove.taken?)).1 = [] := by
  induction h generalizing inst with
  | empty hsame hpending =>
    obtain rfl := Option.some.inj (hinst.symm.trans hsame)
    exact ⟨hinst, rfl, hpending⟩
  | take hsame hpending hrest ih =>
    obtain rfl := Option.some.inj (hinst.symm.trans hsame)
    obtain ⟨hfinal, hcalls, hempty⟩ := ih (instance?_carriedOut hinst _)
    exact ⟨hfinal, congrArg _ hcalls, hempty⟩
  | @push rack final queue command moves calls hqueue hrest ih =>
    exact ih (instance?_enqueue hinst queue command)

/-- What is taken is what waited and what came in time, in the order of the queue. -/
theorem Drains.exists_queue (h : Drains position rack moves calls final)
    (hinst : rack.instance? position = some inst) {index : Nat} {queue : CommandQueue}
    (hqueue : rack.queues[index]? = some queue) :
    ∃ after, final.queues[index]? = some after ∧
      after.capacity = queue.capacity ∧ after.abandoned = queue.abandoned ∧
      queue.pending ++ moves.filterMap (QueueMove.accepted? index) =
        (if inst.queue = some index then moves.filterMap QueueMove.taken? else []) ++
          after.pending := by
  induction h generalizing inst queue with
  | empty hsame hpending =>
    refine ⟨queue, hqueue, rfl, rfl, ?_⟩
    split <;> simp
  | @take rack final _ command rest moves calls hsame hpending hrest ih =>
    obtain rfl := Option.some.inj (hinst.symm.trans hsame)
    obtain ⟨popped, hpopped, hcapacity, habandoned, htaken⟩ := exists_queue_pop hqueue hpending
    have hcarried : ((rack.pop inst).carriedOut position inst command).queues[index]? =
        some popped := hpopped
    obtain ⟨after, hafter, hcapacity', habandoned', horder⟩ :=
      ih (instance?_carriedOut hinst command) hcarried
    -- The command may change the instance in many ways, but not which queue it takes from.
    rw [Instance.queue_carryOut] at horder
    refine ⟨after, hafter, hcapacity'.trans hcapacity, habandoned'.trans habandoned, ?_⟩
    have hskip : (QueueMove.take command :: moves).filterMap (QueueMove.accepted? index) =
        moves.filterMap (QueueMove.accepted? index) := rfl
    rw [htaken, hskip, List.append_assoc, horder]
    split <;> rfl
  | @push rack final target command moves calls htarget hrest ih =>
    obtain ⟨pushed, hpushed, hcapacity, habandoned, hin⟩ :=
      exists_queue_enqueue hqueue htarget command
    obtain ⟨after, hafter, hcapacity', habandoned', horder⟩ :=
      ih (instance?_enqueue hinst target command) hpushed
    refine ⟨after, hafter, hcapacity'.trans hcapacity, habandoned'.trans habandoned, ?_⟩
    rw [hin, List.append_assoc] at horder
    have htaken : (QueueMove.push target command
        (rack.enqueue target command).result.isOk :: moves).filterMap QueueMove.taken? =
        moves.filterMap QueueMove.taken? := rfl
    rw [htaken, ← horder, QueueMove.filterMap_accepted?_push]

/-- A sender meets its queue with what went in and has not come out. -/
theorem Drains.pushed_iff (h : Drains position rack moves calls final)
    (hinst : rack.instance? position = some inst) {earlier later : List QueueMove} {index : Nat}
    {command : Command} {ok : Bool} (hmoves : moves = earlier ++ .push index command ok :: later)
    {queue : CommandQueue} (hqueue : rack.queues[index]? = some queue) :
    ok ↔ queue.pending.length + (earlier.filterMap (QueueMove.accepted? index)).length <
      queue.capacity + if inst.queue = some index then
        (earlier.filterMap QueueMove.taken?).length else 0 := by
  induction h generalizing inst earlier queue with
  | empty => simp at hmoves
  | @take rack final _ taken rest moves calls hsame hpending hrest ih =>
    obtain rfl := Option.some.inj (hinst.symm.trans hsame)
    cases earlier with
    | nil => cases hmoves
    | cons move earlier =>
      obtain ⟨rfl, hrestmoves⟩ := List.cons.inj hmoves
      obtain ⟨popped, hpopped, hcapacity, -, htaken⟩ := exists_queue_pop hqueue hpending
      have hroom := ih (instance?_carriedOut hinst taken) hrestmoves hpopped
      rw [hroom, hcapacity, Instance.queue_carryOut, htaken, List.length_append]
      have hskip : (QueueMove.take taken :: earlier).filterMap (QueueMove.accepted? index) =
          earlier.filterMap (QueueMove.accepted? index) := rfl
      have hcount : ((QueueMove.take taken :: earlier).filterMap QueueMove.taken?).length =
          (earlier.filterMap QueueMove.taken?).length + 1 := rfl
      rw [hskip, hcount]
      split
      · rw [List.length_singleton]
        omega
      · rw [List.length_nil, Nat.zero_add]
  | @push rack final target pushed moves calls htarget hrest ih =>
    cases earlier with
    | nil =>
      obtain ⟨hmove, -⟩ := List.cons.inj hmoves
      cases hmove
      rw [List.filterMap_nil, List.filterMap_nil, List.length_nil, ite_self, Nat.add_zero,
        Nat.add_zero, enqueue_eq hqueue]
      split
      · rename_i hroom
        exact ⟨fun _ => hroom, fun _ => rfl⟩
      · rename_i hfull
        exact ⟨nofun, fun hroom => absurd hroom hfull⟩
    | cons move earlier =>
      obtain ⟨rfl, hrestmoves⟩ := List.cons.inj hmoves
      obtain ⟨new, hnew, hcapacity, -, hin⟩ := exists_queue_enqueue hqueue htarget pushed
      rw [ih (instance?_enqueue hinst target pushed) hrestmoves hnew, hcapacity, hin,
        QueueMove.filterMap_accepted?_push, List.length_append, List.length_append, Nat.add_assoc]
      rfl

/-- An instance without a queue takes nothing. -/
theorem Drains.taken_eq_nil (h : Drains position rack moves calls final)
    (hinst : rack.instance? position = some inst) (hnone : inst.queue = none) :
    moves.filterMap QueueMove.taken? = [] := by
  induction h generalizing inst with
  | empty => rfl
  | take hsame hpending =>
    obtain rfl := Option.some.inj (hinst.symm.trans hsame)
    simp [pending, hnone] at hpending
  | @push rack _ target command _ _ _ _ ih =>
    exact ih (instance?_enqueue hinst target command) hnone

/-- The moves come to what the host could have asked for itself. -/
theorem Drains.actAll_eq (h : Drains position rack moves calls final) :
    ({ rack with queues := final.queues } : Rack).actAll
        ((moves.filterMap QueueMove.taken?).map fun command =>
          .request position command.request) = some (final, calls) := by
  induction h with
  | empty => rfl
  | @take rack final inst command rest moves calls hinst hpending hrest ih =>
    have hsame : ({ rack with queues := final.queues } : Rack).instance? position = some inst :=
      hinst
    have hpopped : ({ rack with queues := final.queues } : Rack).carriedOut position inst command =
        { (rack.pop inst).carriedOut position inst command with queues := final.queues } := by
      unfold pop
      cases inst.queue <;> rfl
    have htaken : (QueueMove.take command :: moves).filterMap QueueMove.taken? =
        command :: moves.filterMap QueueMove.taken? := rfl
    rw [htaken, List.map_cons, actAll, act_request hsame command, Option.bind_some, hpopped, ih]
    rfl
  | @push rack final target command moves calls htarget hrest ih =>
    have hsame : ({ rack with queues := final.queues } : Rack) =
        { (rack.enqueue target command).state with queues := final.queues } := by
      unfold enqueue
      split <;> rfl
    rw [hsame]
    exact ih

/-! ## Whole blocks -/

theorem drain_of_pending_eq_nil (h : rack.pending inst = []) : rack.drain inst = rack := by
  cases hqueue : inst.queue with
  | none => rw [drain, hqueue]
  | some index =>
    have hsame : rack.queues.modify index CommandQueue.drained = rack.queues := by
      apply modify_eq_of_fixed
      intro queue hfound
      rw [pending_of_queue hqueue hfound] at h
      rw [CommandQueue.drained, ← h]
    simp only [drain, hqueue, hsame]

theorem drain_congr {other : Instance} (h : other.queue = inst.queue) :
    rack.drain other = rack.drain inst := by
  rw [drain, drain, h]

theorem drain_pop (rack : Rack) (inst : Instance) :
    (rack.pop inst).drain inst = rack.drain inst := by
  cases hqueue : inst.queue with
  | none => rw [pop, hqueue]
  | some index =>
    have hdrained : CommandQueue.drained ∘ CommandQueue.popped = CommandQueue.drained := rfl
    simp only [drain, pop, hqueue, List.modify_modify_eq, hdrained]

theorem drain_carriedOut (rack : Rack) (position : Nat) (first second : Instance)
    (command : Command) :
    (rack.carriedOut position first command).drain second =
      (rack.drain second).carriedOut position first command := by
  cases hqueue : second.queue with
  | none => rw [drain, drain, hqueue]
  | some index =>
    simp only [drain, hqueue]
    rfl

theorem setInstance_setInstance (rack : Rack) (position : Nat) (first second : Instance) :
    (rack.setInstance position first).setInstance position second =
      rack.setInstance position second := by
  simp only [setInstance, List.modify_modify_eq, Option.map_comp_map]
  rfl

theorem setInstance_carriedOut (rack : Rack) (position : Nat) (first second : Instance)
    (command : Command) :
    (rack.carriedOut position first command).setInstance position second =
      (rack.setInstance position second).record (first.carryOut command).2 := by
  rw [← setInstance_setInstance rack position (first.carryOut command).1 second]
  rfl

theorem record_append (rack : Rack) (first second : List Call) :
    rack.record (first ++ second) = (rack.record first).record second := by
  simp only [record, List.foldl_append]

/-- What waits for an instance after it has taken one command. -/
theorem pending_carriedOut {command : Command} {rest : List Command}
    (h : rack.pending inst = command :: rest) :
    ((rack.pop inst).carriedOut position inst command).pending (inst.carryOut command).1 =
      rest := by
  cases hqueue : inst.queue with
  | none => simp [pending, hqueue] at h
  | some index =>
    cases hfound : rack.queues[index]? with
    | none => simp [pending, hqueue, hfound] at h
    | some queue =>
      rw [pending_of_queue hqueue hfound] at h
      have hafter : (inst.carryOut command).1.queue = some index := by
        rw [inst.queue_carryOut, hqueue]
      have hpopped : ((rack.pop inst).carriedOut position inst command).queues[index]? =
          some queue.popped := by
        simp [carriedOut, record, setInstance, pop, hqueue, hfound]
      rw [pending_of_queue hafter hpopped, CommandQueue.popped, h, List.tail_cons]

/-- Nobody interferes: the instance takes all that waits, and nothing else. -/
theorem drains_pending (h : rack.instance? position = some inst) :
    Drains position rack ((rack.pending inst).map .take)
      (inst.carryOutAll (rack.pending inst)).2
      (((rack.drain inst).setInstance position
        (inst.carryOutAll (rack.pending inst)).1).record
          (inst.carryOutAll (rack.pending inst)).2) := by
  generalize hpending : rack.pending inst = commands
  induction commands generalizing rack inst with
  | nil =>
    rw [drain_of_pending_eq_nil hpending]
    have hsame : (rack.setInstance position inst).record [] = rack := setInstance_self h
    simp only [Instance.carryOutAll, hsame, List.map_nil]
    exact .empty h hpending
  | cons command rest ih =>
    -- The rack after the first command drains to what the rack drains to: only the instance
    -- and the calls so far are different, and both are put in again.
    have htail := ih (instance?_carriedOut h command) (pending_carriedOut hpending)
    rw [drain_congr (inst.queue_carryOut command), drain_carriedOut, drain_pop,
      setInstance_carriedOut, ← record_append] at htail
    exact .take h hpending htail

theorem setInstance_record (rack : Rack) (position : Nat) (calls : List Call) (new : Instance) :
    (rack.record calls).setInstance position new = (rack.setInstance position new).record calls :=
  rfl

/-- A block that can be run takes all that waits, carries it out and is run. -/
theorem act_perform (hinst : rack.instance? position = some inst) {size : Nat}
    {inputs outputs : List Block} (hcheck : inst.checkBlock size inputs outputs = .ok ()) :
    rack.act (.perform position size inputs outputs) =
      let carried := inst.carryOutAll (rack.pending inst)
      let done := carried.1.block size inputs outputs
      some
        { state := ((rack.drain inst).setInstance position done.state).record
            (carried.2 ++ done.calls)
          calls := carried.2 ++ done.calls
          result := done.result.map .outputs } := by
  rw [act, perform_eq hinst, Instance.perform_eq_of_ok hcheck]
  rfl

theorem exists_act_perform (hinst : rack.instance? position = some inst) (size : Nat)
    (inputs outputs : List Block) :
    ∃ done, rack.act (.perform position size inputs outputs) = some done ∧
      done.result =
        (inst.perform (rack.pending inst) size inputs outputs).result.map .outputs := by
  rw [act, perform_eq hinst]
  exact ⟨_, rfl, rfl⟩

theorem checkBlock_of_act_perform {size : Nat} {inputs outputs : List Block}
    {done : Outcome Rack Reply}
    (h : rack.act (.perform position size inputs outputs) = some done)
    (hinst : rack.instance? position = some inst) (hok : done.result.isOk) :
    inst.checkBlock size inputs outputs = .ok () := by
  rw [act, perform_eq hinst] at h
  cases h
  cases hresult : (inst.perform (rack.pending inst) size inputs outputs).result with
  | ok blocks => exact Instance.checkBlock_of_perform hresult
  | error failure =>
    simp only [Outcome.view, hresult] at hok
    cases hok

/-- A block that is run at once is a block in which no sender interferes. -/
theorem blocks_of_perform {size : Nat} {inputs outputs : List Block} {done : Outcome Rack Reply}
    (h : rack.act (.perform position size inputs outputs) = some done)
    (hinst : rack.instance? position = some inst)
    (hcheck : inst.checkBlock size inputs outputs = .ok ()) :
    rack.Blocks position size inputs outputs ((rack.pending inst).map .take) done := by
  rw [act_perform hinst hcheck] at h
  cases h
  have hdrained : (rack.drain inst).instance? position = some inst := by
    rw [← hinst]
    unfold drain
    cases inst.queue <;> rfl
  have hblock := Blocks.mk hinst hcheck (drains_pending hinst)
    (instance?_setInstance hdrained (inst.carryOutAll (rack.pending inst)).1)
  rwa [setInstance_record, setInstance_setInstance, ← record_append] at hblock

/-- What comes of a block is what comes of asking for some commands and running the block
with nothing waiting: the calls, the samples and the rack after it. -/
def Direct (rack : Rack) (position size : Nat) (inputs outputs : List Block)
    (taken : List Command) (done : Outcome Rack Reply) : Prop :=
  ∃ asked calls inst last,
    ({ rack with queues := done.state.queues } : Rack).actAll
      (taken.map fun command => .request position command.request) = some (asked, calls) ∧
    asked.instance? position = some inst ∧ asked.pending inst = [] ∧
    asked.act (.perform position size inputs outputs) = some last ∧
    done = { last with calls := calls ++ last.calls }

/-- A block does what it would do if the host had asked for the taken commands itself. -/
theorem Blocks.direct {size : Nat} {inputs outputs : List Block} {done : Outcome Rack Reply}
    (h : rack.Blocks position size inputs outputs moves done) :
    rack.Direct position size inputs outputs (moves.filterMap QueueMove.taken?) done := by
  cases h with
  | @mk inst last final _ calls hinst hcheck hdrains hlast =>
    obtain ⟨hfinal, -, hempty⟩ := hdrains.instance?_eq hinst
    obtain rfl := Option.some.inj (hlast.symm.trans hfinal)
    rw [← Instance.checkBlock_carryOutAll] at hcheck
    have hact := act_perform hlast hcheck
    rw [hempty, drain_of_pending_eq_nil hempty] at hact
    exact ⟨final, calls, _, _, hdrains.actAll_eq, hlast, hempty, hact, rfl⟩

end

end Rack

end Patchbay
