import Mathlib.Data.List.Basic
import Patchbay.Proofs.Chronicle
import Patchbay.Proofs.Completion
import Patchbay.Proofs.Sinks

/-!
# Sends on the way

A send may be the work itself or come from any object that the work reaches, however deep.
Wherever it is begun, it first serves the objects that listen at its tie, one after the
other and each with all that follows, and then comes to the host. Every send comes to the
host once, and nothing else comes to the message sinks.

## Implementation notes

A send under way leaves one task behind, which serves the receivers that are left. Sends
that are begun, under way and at their end are counted against each other step by step, so
no induction over the nesting is needed.
-/

namespace Patchbay

/-- The message that an effect brings to the host, with its tie. -/
def Effect.sent? : Effect → Option (Tie × Message)
  | .message tie content => some (tie, content)
  | _ => none

/-- The send that a task is in the middle of. -/
def Task.under? : Task → Option (Tie × Message)
  | .serve _ tie message => some (tie, message)
  | _ => none

/-- Whether a call is one of a message sink. -/
def Call.isMessage : Call → Bool
  | .message .. | .kindMessage .. => true
  | _ => false

namespace Work
variable {listeners : Listeners} {first second : Work}

/-- The send that the next step begins. -/
def begun? : Work → Option (Tie × Message)
  | ⟨_, .send tie message :: _⟩ => some (tie, message)
  | _ => none

/-- The send that the next step brings to the host. -/
def ended? : Work → Option (Tie × Message)
  | ⟨_, .serve [] tie message :: _⟩ => some (tie, message)
  | _ => none

/-- What a number of steps is marked with. -/
def collect {α : Type} (listeners : Listeners) (mark : Work → Option α) : Nat → Work → List α
  | 0, _ => []
  | count + 1, work =>
    (mark work).toList ++ collect listeners mark count (step listeners work)

/-- The sends under way. -/
def underWay (work : Work) : List (Tie × Message) := work.tasks.filterMap Task.under?

/-- The messages that have come to the host. -/
def told (work : Work) : List (Tie × Message) :=
  work.dispatch.effects.toList.filterMap Effect.sent?

/-! ## Counting sends -/

theorem effects_answer (dispatch : Dispatch) (target : NodeRef) (inlet : Nat)
    (message : Message) : (dispatch.answer target inlet message).effects = dispatch.effects := by
  unfold Dispatch.answer
  split <;> rfl

theorem told_perform (dispatch : Dispatch) (effect : Effect) (tasks : List Task) :
    told ⟨dispatch.perform effect, tasks⟩ = told ⟨dispatch, tasks⟩ ++ effect.sent?.toList := by
  simp only [told, Dispatch.perform, Array.toList_push]
  exact filterMap_snoc _ _ _

theorem begin_sends (dispatch : Dispatch) (source : NodeRef) (rest : List Task)
    (emission : Emission) :
    (begin dispatch source rest emission).told = told ⟨dispatch, rest⟩ ∧
      (begin dispatch source rest emission).underWay = underWay ⟨dispatch, rest⟩ := by
  cases emission with
  | post level text => exact ⟨(told_perform dispatch _ rest).trans (List.append_nil _), rfl⟩
  | midi event => exact ⟨(told_perform dispatch _ rest).trans (List.append_nil _), rfl⟩
  | _ => exact ⟨rfl, rfl⟩

/-- A step tells the host of the send that it brings there, and of no other. A send that it
begins is under way until it comes to the host. -/
theorem step_sends (listeners : Listeners) (work : Work) :
    (step listeners work).told = work.told ++ work.ended?.toList ∧
      work.begun?.toList ++ work.underWay =
        work.ended?.toList ++ (step listeners work).underWay := by
  have hquiet (after : Work) (htold : after.told = work.told)
      (hunder : after.underWay = work.underWay) :
      after.told = work.told ++ (none : Option (Tie × Message)).toList ∧
        (none : Option (Tie × Message)).toList ++ work.underWay =
          (none : Option (Tie × Message)).toList ++ after.underWay :=
    ⟨htold.trans (List.append_nil _).symm, congrArg _ hunder.symm⟩
  obtain ⟨dispatch, tasks⟩ := work
  cases tasks with
  | nil => exact hquiet _ rfl rfl
  | cons task rest =>
    cases task with
    | send tie message => exact ⟨(List.append_nil _).symm, rfl⟩
    | serve places tie message =>
      cases places with
      | nil => exact ⟨told_perform dispatch _ rest, rfl⟩
      | cons place places => exact hquiet _ rfl rfl
    | offer places event =>
      cases places with
      | nil => exact hquiet _ rfl rfl
      | cons place places =>
        simp only [step]
        split
        · exact hquiet _ rfl rfl
        · exact hquiet _ rfl rfl
    | bang places => cases places <;> exact hquiet _ rfl rfl
    | spread slot targets message => cases targets <;> exact hquiet _ rfl rfl
    | deliver target inlet message =>
      simp only [step]
      split
      · exact hquiet _ ((told_perform dispatch _ rest).trans (List.append_nil _)) rfl
      · refine hquiet _ ?_ rfl
        rw [told, effects_answer]
        rfl
    | flush source height position =>
      simp only [step]
      split
      · obtain ⟨htold, hunder⟩ := begin_sends
          { dispatch with stack := dispatch.stack.setIfInBounds position .done } source
          (.flush source height (position + 1) :: rest) ‹Emission›
        exact hquiet _ htold hunder
      · exact hquiet _ rfl rfl
    | _ => exact hquiet _ rfl rfl

/-- However far the work has come, the host has been told of the sends at their end. -/
theorem told_iterate (listeners : Listeners) (count : Nat) (work : Work) :
    ((step listeners)^[count] work).told = work.told ++ collect listeners ended? count work := by
  induction count generalizing work with
  | zero => exact (List.append_nil _).symm
  | succ count ih =>
    rw [Function.iterate_succ_apply, ih, (step_sends listeners work).1, List.append_assoc]
    rfl

/-- However far the work has come, the sends begun are those under way and at their end. -/
theorem begun_perm (listeners : Listeners) (count : Nat) (work : Work) :
    (collect listeners begun? count work ++ work.underWay).Perm
      (collect listeners ended? count work ++ ((step listeners)^[count] work).underWay) := by
  induction count generalizing work with
  | zero => exact List.Perm.refl _
  | succ count ih =>
    let next := step listeners work
    have hstep := (step_sends listeners work).2
    have hfirst : (collect listeners begun? (count + 1) work ++ work.underWay).Perm
        (collect listeners begun? count next ++ (work.begun?.toList ++ work.underWay)) := by
      rw [collect, List.append_assoc]
      exact List.perm_append_comm_assoc _ _ _
    have hrest : (collect listeners begun? count next ++
          (work.ended?.toList ++ next.underWay)).Perm
        (work.ended?.toList ++ (collect listeners begun? count next ++ next.underWay)) :=
      List.perm_append_comm_assoc _ _ _
    have hlast : collect listeners ended? (count + 1) work ++
          ((step listeners)^[count + 1] work).underWay =
        work.ended?.toList ++ (collect listeners ended? count next ++
          ((step listeners)^[count] next).underWay) := by
      rw [collect, Function.iterate_succ_apply, List.append_assoc]
    rw [hstep] at hfirst
    rw [hlast]
    exact (hfirst.trans hrest).trans ((ih next).append_left _)

/-! ## Coming to an end -/

theorem step_iterate_nil (listeners : Listeners) (count : Nat) (dispatch : Dispatch) :
    (step listeners)^[count] ⟨dispatch, []⟩ = ⟨dispatch, []⟩ :=
  Function.iterate_fixed rfl count

/-- Work that comes to an end comes to it from every state on the way. -/
theorem Leads.of_iterate {count : Nat} {final : Dispatch}
    (hsecond : (step listeners)^[count] first = second)
    (h : Leads listeners first ⟨final, []⟩) : Leads listeners second ⟨final, []⟩ := by
  obtain ⟨total, htotal⟩ := h
  rcases Nat.le_total count total with hle | hle
  · refine ⟨total - count, ?_⟩
    rw [← hsecond, ← Function.iterate_add_apply, Nat.sub_add_cancel hle, htotal]
  · have hpast : second = ⟨final, []⟩ := by
      rw [← hsecond, ← Nat.sub_add_cancel hle, Function.iterate_add_apply, htotal,
        step_iterate_nil]
    rw [hpast]
    exact Leads.refl _

/-- Effects are only added to. -/
theorem Leads.exists_effects (h : Leads listeners first second) :
    ∃ more, second.dispatch.effects.toList = first.dispatch.effects.toList ++ more := by
  obtain ⟨count, rfl⟩ := h
  let bare : Work := { first with dispatch := { first.dispatch with effects := #[] } }
  have hfirst : bare.behind first.dispatch.effects = first := by
    simp [Work.behind, bare]
  have hsteps : Function.Semiconj (Work.behind first.dispatch.effects) (step listeners)
      (step listeners) :=
    fun work => (step_behind listeners first.dispatch.effects work).symm
  refine ⟨((step listeners)^[count] bare).dispatch.effects.toList, ?_⟩
  conv_lhs => rw [← hfirst, ← (hsteps.iterate_right count) bare]
  simp [Work.behind]

/-! ## Serving the receivers -/

theorem outline_answer (dispatch : Dispatch) (target : NodeRef) (inlet : Nat)
    (message : Message) :
    (dispatch.answer target inlet message).slots.outline = dispatch.slots.outline := by
  have hfits : dispatch.Fits dispatch.slots dispatch.depth := ⟨rfl, rfl⟩
  obtain ⟨after, emissions, hanswer, hafter, -⟩ :=
    exists_answer_eq_push hfits target inlet message
  rw [hanswer]
  exact hafter.outline_eq

/-- A step keeps the outline of all objects. -/
theorem step_outline (listeners : Listeners) (work : Work) :
    (step listeners work).dispatch.slots.outline = work.dispatch.slots.outline := by
  obtain ⟨dispatch, tasks⟩ := work
  cases tasks with
  | nil => rfl
  | cons task rest =>
    cases task with
    | serve places tie message => cases places <;> rfl
    | offer places event =>
      cases places with
      | nil => rfl
      | cons place places =>
        simp only [step]
        split <;> rfl
    | bang places => cases places <;> rfl
    | spread slot targets message => cases targets <;> rfl
    | deliver target inlet message =>
      simp only [step]
      split
      · rfl
      · exact outline_answer _ target inlet message
    | flush source height position =>
      simp only [step]
      split
      · cases ‹Emission› <;> rfl
      · rfl
    | _ => rfl

theorem outline_iterate (listeners : Listeners) (count : Nat) (work : Work) :
    ((step listeners)^[count] work).dispatch.slots.outline = work.dispatch.slots.outline := by
  induction count generalizing work with
  | zero => rfl
  | succ count ih => exact (ih (step listeners work)).trans (step_outline listeners work)

/-- Receivers are served one after the other, each to the end of all that follows. -/
inductive Serves (listeners : Listeners) (message : Message) :
    List NodeRef → Dispatch → Dispatch → Prop
  | nil (before : Dispatch) : Serves listeners message [] before before
  | cons {place : NodeRef} {places : List NodeRef} {before middle after : Dispatch} :
      Leads listeners ⟨before, [.deliver place 0 message]⟩ ⟨middle, []⟩ →
      Serves listeners message places middle after →
      Serves listeners message (place :: places) before after

theorem exists_serves {slots : Slots} {depth : Nat} (hdepth : depth ≤ maxDepth)
    (places : List NodeRef) (tie : Tie) (message : Message) {before : Dispatch}
    (hfits : before.Fits slots depth) :
    ∃ served, Serves (.ofSlots slots) message places before served ∧ ∀ rest,
      Leads (.ofSlots slots) ⟨before, .serve places tie message :: rest⟩
        ⟨served, .serve [] tie message :: rest⟩ := by
  have hroom : depth + (maxDepth - depth) = maxDepth := Nat.add_sub_cancel' hdepth
  have hreal : Realizes slots depth _ := deliver_realizes (maxDepth - depth) hroom
  have himitates : Dispatch.Imitates {} 0 slots depth
      (Dispatch.deliver (.ofSlots slots) (maxDepth - depth)) (DepthFirst.deliver {} 0 depth) :=
    Dispatch.deliver_imitates (maxDepth - depth) hroom
  induction places generalizing before with
  | nil => exact ⟨before, .nil before, fun _ => Leads.refl _⟩
  | cons place places ih =>
    have hnext := (himitates before hfits place 0 message).fits hfits
    obtain ⟨served, hserves, hleads⟩ := ih hnext
    refine ⟨served, .cons (hreal before hfits place 0 message []) hserves, fun rest => ?_⟩
    have hfirst := hreal before hfits place 0 message (.serve places tie message :: rest)
    exact (hfirst.trans (hleads rest)).after

end Work

/-! ## The calls of sinks -/

theorem MessageSink.isMessage_of_mem_receive {sink : MessageSink} {tie : Tie}
    {message : Message} {call : Call} (h : call ∈ sink.receive tie message) :
    call.isMessage = true := by
  obtain ⟨label, rfl | rfl⟩ := exists_of_mem_receive h <;> rfl

theorem Hooks.isMessage_of_mem_post {hooks : Hooks} {id : Nat} {level : ConsoleLevel}
    {text : String} {call : Call} (h : call ∈ hooks.post id level text) :
    call.isMessage = false := by
  obtain ⟨sink, hsink⟩ | ⟨line, rfl⟩ := exists_of_mem_post h
  · obtain ⟨tag, rfl | rfl⟩ | ⟨history, rfl⟩ := ConsoleSink.exists_of_mem_receive hsink <;> rfl
  · rfl

theorem MidiSink.isMessage_of_mem_receive {sink : MidiSink} {event : MidiEvent} {call : Call}
    (h : call ∈ sink.receive event) : call.isMessage = false := by
  obtain ⟨tag, rfl | rfl⟩ := exists_of_mem_receive h <;> rfl

/-- Message sinks are called for message effects alone. -/
theorem Hooks.filter_isMessage_calls (hooks : Hooks) (id : Nat) (effect : Effect) :
    (hooks.calls id effect).filter Call.isMessage =
      effect.sent?.toList.flatMap fun send =>
        (hooks.bound send.1).flatMap fun sink => sink.receive send.1 send.2 := by
  cases effect with
  | post level text =>
    exact List.filter_eq_nil_iff.mpr fun call hcall => by simp [isMessage_of_mem_post hcall]
  | midi event =>
    refine List.filter_eq_nil_iff.mpr fun call hcall => ?_
    simp only [calls] at hcall
    cases hmidi : hooks.midi with
    | none => simp [hmidi] at hcall
    | some sink =>
      rw [hmidi] at hcall
      simp [MidiSink.isMessage_of_mem_receive hcall]
  | message tie message =>
    rw [show (Effect.message tie message).sent?.toList = [(tie, message)] from rfl,
      List.flatMap_singleton]
    refine List.filter_eq_self.mpr fun call hcall => ?_
    obtain ⟨sink, -, hreceived⟩ := List.mem_flatMap.mp hcall
    exact MessageSink.isMessage_of_mem_receive hreceived
  | log level text => rfl

theorem Hooks.filter_isMessage_run (hooks : Hooks) (id : Nat) (effects : List Effect) :
    (hooks.run id effects).filter Call.isMessage =
      (effects.filterMap Effect.sent?).flatMap fun send =>
        (hooks.bound send.1).flatMap fun sink => sink.receive send.1 send.2 := by
  induction effects with
  | nil => rfl
  | cons effect rest ih =>
    have hrun : hooks.run id (effect :: rest) = hooks.calls id effect ++ hooks.run id rest := rfl
    rw [hrun, List.filter_append, filter_isMessage_calls, ih]
    cases hsent : effect.sent? <;> simp [hsent]

/-! ## Whole operations -/

/-- What the sends on the way of some tasks come to: each comes to the host once, where all
the sinks of its tie are called in turn, after all receivers of the tie have been served. -/
structure Instance.Delivers (inst : Instance) (tasks : List Task) (calls : List Call)
    (sinks : Tie → List MessageSink) : Prop where
  /-- Message sinks are called for the sends at their end, which are those that are begun. -/
  exists_ended : ∃ count,
    ((Work.step inst.engine.listeners)^[count] ⟨inst.engine.start, tasks⟩).tasks = [] ∧
    (Work.collect inst.engine.listeners Work.ended? count ⟨inst.engine.start, tasks⟩).Perm
      (Work.collect inst.engine.listeners Work.begun? count ⟨inst.engine.start, tasks⟩) ∧
    calls.filter Call.isMessage =
      (Work.collect inst.engine.listeners Work.ended? count
        ⟨inst.engine.start, tasks⟩).flatMap fun send =>
          (sinks send.1).flatMap fun sink => sink.receive send.1 send.2
  /-- Wherever a send is begun, the objects that listen at its tie are served first. -/
  after_receivers : ∀ count before tie message rest,
    (Work.step inst.engine.listeners)^[count] ⟨inst.engine.start, tasks⟩ =
        ⟨before, .send tie message :: rest⟩ →
      ∃ served earlier during later,
        Work.Serves inst.engine.listeners message (DepthFirst.receivers before.slots tie) before
          served ∧
        Work.Leads inst.engine.listeners ⟨before, .send tie message :: rest⟩
          ⟨served.perform (.message tie message), rest⟩ ∧
        inst.hooks.run inst.id before.effects.toList = earlier ∧
        inst.hooks.run inst.id served.effects.toList = earlier ++ during ∧
        calls = earlier ++ during ++
          ((sinks tie).flatMap fun sink => sink.receive tie message) ++ later

namespace Instance
variable {inst : Instance}

/-- Work on tasks that leave nothing is balanced wherever it has come to. -/
theorem iterate_start_balanced (h : inst.engine.Settled) {tasks : List Task}
    (hleave : ∀ task ∈ tasks, task.isLeave = false) (count : Nat) :
    Work.Balanced
      ((Work.step inst.engine.listeners)^[count] ⟨inst.engine.start, tasks⟩) := by
  have hnested : Work.nested ⟨inst.engine.start, tasks⟩ = 0 :=
    List.countP_eq_zero.mpr fun task htask => by simp [hleave task htask]
  exact Work.iterate_balanced inst.engine.listeners count
    ⟨h.depth_eq.trans hnested.symm, hnested ▸ Nat.zero_le _⟩

/-- The sends that come to the host are those that are begun, and each calls its sinks. -/
theorem exists_ended_of_completes {tasks : List Task} {done : Instance × List Call}
    (hunder : ∀ task ∈ tasks, task.under? = none) (hdone : inst.Completes tasks done) :
    ∃ count,
      ((Work.step inst.engine.listeners)^[count] ⟨inst.engine.start, tasks⟩).tasks = [] ∧
      (Work.collect inst.engine.listeners Work.ended? count ⟨inst.engine.start, tasks⟩).Perm
        (Work.collect inst.engine.listeners Work.begun? count ⟨inst.engine.start, tasks⟩) ∧
      done.2.filter Call.isMessage =
        (Work.collect inst.engine.listeners Work.ended? count
          ⟨inst.engine.start, tasks⟩).flatMap fun send =>
            (inst.hooks.bound send.1).flatMap fun sink => sink.receive send.1 send.2 := by
  obtain ⟨effects, ⟨count, hcount⟩, hcalls⟩ := hdone.ends
  have hstart : Work.told ⟨inst.engine.start, tasks⟩ = [] := rfl
  have hnone : Work.underWay ⟨inst.engine.start, tasks⟩ = [] :=
    List.filterMap_eq_nil_iff.mpr hunder
  have htold := Work.told_iterate inst.engine.listeners count ⟨inst.engine.start, tasks⟩
  have hperm := Work.begun_perm inst.engine.listeners count ⟨inst.engine.start, tasks⟩
  rw [hcount, hstart, List.nil_append] at htold
  rw [hcount, hnone, List.append_nil] at hperm
  refine ⟨count, by rw [hcount], ?_, ?_⟩
  · exact (hperm.trans (.of_eq (List.append_nil _))).symm
  · rw [← hcalls, Hooks.filter_isMessage_run, ← htold]
    rfl

/-- A send that has been begun comes to the host when all receivers have been served. -/
theorem exists_served (h : inst.engine.Settled) {tasks : List Task}
    (hleave : ∀ task ∈ tasks, task.isLeave = false) {count : Nat} {before : Dispatch} {tie : Tie}
    {message : Message} {rest : List Task}
    (hbegun : (Work.step inst.engine.listeners)^[count] ⟨inst.engine.start, tasks⟩ =
      ⟨before, .send tie message :: rest⟩) :
    ∃ served,
      Work.Serves inst.engine.listeners message (DepthFirst.receivers before.slots tie) before
        served ∧
      Work.Leads inst.engine.listeners ⟨before, .send tie message :: rest⟩
        ⟨served, .serve [] tie message :: rest⟩ := by
  have hbalanced : Work.Balanced ⟨before, .send tie message :: rest⟩ :=
    hbegun ▸ iterate_start_balanced h hleave count
  have houtline := Work.outline_iterate inst.engine.listeners count ⟨inst.engine.start, tasks⟩
  rw [hbegun] at houtline
  have hfits : before.Fits inst.engine.slots before.depth := ⟨houtline, rfl⟩
  have hdepth : before.depth ≤ maxDepth := hbalanced.depth_eq ▸ hbalanced.nested_le
  have hreceivers :
      DepthFirst.receivers before.slots tie = inst.engine.listeners.listening tie := by
    rw [h.listeners_eq, ← Listeners.ofSlots_eq_of_outline hfits.outline_eq,
      Listeners.listening_ofSlots]
    rfl
  obtain ⟨served, hserves, hleads⟩ :=
    Work.exists_serves hdepth (DepthFirst.receivers before.slots tie) tie message hfits
  rw [← h.listeners_eq] at hserves hleads
  rw [hreceivers] at hleads
  exact ⟨served, hserves, (hleads rest).after⟩

/-- Tasks that are done to the end deliver their sends to the sinks that are bound. -/
theorem delivers_of_completes (h : inst.engine.Settled) {tasks : List Task}
    {done : Instance × List Call} (hleave : ∀ task ∈ tasks, task.isLeave = false)
    (hunder : ∀ task ∈ tasks, task.under? = none) (hdone : inst.Completes tasks done) :
    inst.Delivers tasks done.2 inst.hooks.bound := by
  refine ⟨exists_ended_of_completes hunder hdone, ?_⟩
  obtain ⟨effects, hends, hcalls⟩ := hdone.ends
  intro count before tie message rest hbegun
  obtain ⟨served, hserves, hserved⟩ := exists_served h hleave hbegun
  obtain ⟨during, hduring⟩ := hserved.exists_effects
  have hhost : Work.Leads inst.engine.listeners ⟨before, .send tie message :: rest⟩
      ⟨served.perform (.message tie message), rest⟩ := hserved.trans ⟨1, rfl⟩
  -- The rest of the work comes to its end from where this send has come to the host.
  obtain ⟨steps, hsteps⟩ := hhost
  have hfinal := Work.Leads.of_iterate hbegun hends
  obtain ⟨later, hlater⟩ := (Work.Leads.of_iterate hsteps hfinal).exists_effects
  have hserved' : served.effects.toList = before.effects.toList ++ during := hduring
  refine ⟨served, _, inst.hooks.run inst.id during, inst.hooks.run inst.id later, hserves,
    ⟨steps, hsteps⟩, rfl, ?_, ?_⟩
  · rw [hserved']
    exact List.flatMap_append
  · have heffects : effects = before.effects.toList ++ during ++ [Effect.message tie message] ++
        later := by
      rw [← hserved']
      simpa [Dispatch.perform] using hlater
    rw [← hcalls, heffects]
    simp only [Hooks.run, List.flatMap_append, List.flatMap_singleton, Hooks.calls]

end Instance

end Patchbay
