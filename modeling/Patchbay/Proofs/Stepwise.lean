import Mathlib.Logic.Function.Iterate
import Patchbay.Proofs.Settled

/-!
# Dispatch one step at a time

The work of a dispatcher, cut into steps that do not recur: each takes the innermost
task off a list and puts those that come before the rest in its place. Nothing bounds
such a list beforehand. A loop over a stack frame looks at the stack anew in every
round, and only the nesting counter ends a circle of messages.

From an engine at rest every list of tasks comes to an end, in the state that the
dispatcher computes. The deliveries under way are never more than `maxDepth`.

## Implementation notes

A delivery under way leaves one task behind, which undoes its nesting. These tasks
are counted, so the bound does not lean on the counter that it is about.
-/

namespace Patchbay

/-- Something that is still to be done. -/
inductive Task where
  | send (tie : Tie) (message : Message)
  /-- Deliver to the listeners that are left, then to the host. -/
  | serve (places : List NodeRef) (tie : Tie) (message : Message)
  | midi (event : MidiEvent)
  /-- Offer an event to the MIDI inputs that are left. -/
  | offer (places : List NodeRef) (event : MidiEvent)
  /-- Bang out of the places that are left. -/
  | bang (places : List NodeRef)
  /-- Deliver to the targets in a slot that are left. -/
  | spread (slot : Nat) (targets : List (Nat × Nat)) (message : Message)
  | deliver (target : NodeRef) (inlet : Nat) (message : Message)
  /-- Carry out the stack from a position on, then cut it back to a height. -/
  | flush (source : NodeRef) (height position : Nat)
  /-- Leave a delivery. -/
  | leave

/-- The task of a queued command. -/
def Command.task : Command → Task
  | .send tie message => .send tie message
  | .midi event => .midi event

/-- Whether a task stands for a delivery under way. -/
def Task.isLeave : Task → Bool
  | .leave => true
  | _ => false

/-- A dispatch with the tasks that are left, the innermost first. -/
structure Work where
  dispatch : Dispatch
  tasks : List Task

namespace Work

/-- How many deliveries are under way. -/
def nested (work : Work) : Nat := work.tasks.countP Task.isLeave

/-- Begin to carry out an emission of `source`. -/
def begin (dispatch : Dispatch) (source : NodeRef) (rest : List Task) : Emission → Work
  | .outlet outlet message =>
    ⟨dispatch, .spread source.slot (dispatch.slots.targets source outlet) message :: rest⟩
  | .send tie message => ⟨dispatch, .send tie message :: rest⟩
  | .post level text => ⟨dispatch.perform (.post level text), rest⟩
  | .midi event => ⟨dispatch.perform (.midi event), rest⟩
  | .done => ⟨dispatch, rest⟩

/-- Put emissions of `source` on the stack, to be carried out next. -/
def raise (dispatch : Dispatch) (source : NodeRef) (emissions : List Emission)
    (rest : List Task) : Work :=
  ⟨dispatch.push emissions, .flush source dispatch.stack.size dispatch.stack.size :: rest⟩

/-- One step. Without a task there is nothing to do. -/
def step (listeners : Listeners) : Work → Work
  | ⟨dispatch, []⟩ => ⟨dispatch, []⟩
  | ⟨dispatch, .send tie message :: rest⟩ =>
    ⟨dispatch, .serve (listeners.listening tie) tie message :: rest⟩
  | ⟨dispatch, .serve [] tie message :: rest⟩ => ⟨dispatch.perform (.message tie message), rest⟩
  | ⟨dispatch, .serve (place :: places) tie message :: rest⟩ =>
    ⟨dispatch, .deliver place 0 message :: .serve places tie message :: rest⟩
  | ⟨dispatch, .midi event :: rest⟩ => ⟨dispatch, .offer listeners.toMidi event :: rest⟩
  | ⟨dispatch, .offer [] _ :: rest⟩ => ⟨dispatch, rest⟩
  | ⟨dispatch, .offer (place :: places) event :: rest⟩ =>
    match dispatch.slots.node? place with
    | some node => raise dispatch place (node.answerMidi event) (.offer places event :: rest)
    | none => ⟨dispatch, .offer places event :: rest⟩
  | ⟨dispatch, .bang [] :: rest⟩ => ⟨dispatch, rest⟩
  | ⟨dispatch, .bang (place :: places) :: rest⟩ =>
    raise dispatch place [.outlet 0 .bang] (.bang places :: rest)
  | ⟨dispatch, .spread _ [] _ :: rest⟩ => ⟨dispatch, rest⟩
  | ⟨dispatch, .spread slot ((object, inlet) :: targets) message :: rest⟩ =>
    ⟨dispatch, .deliver { slot, object } inlet message :: .spread slot targets message :: rest⟩
  | ⟨dispatch, .deliver target inlet message :: rest⟩ =>
    if maxDepth ≤ dispatch.depth then
      ⟨dispatch.perform (.post .error "stack overflow"), rest⟩
    else
      ⟨{ dispatch with depth := dispatch.depth + 1 }.answer target inlet message,
        .flush target dispatch.stack.size dispatch.stack.size :: .leave :: rest⟩
  | ⟨dispatch, .flush source height position :: rest⟩ =>
    match dispatch.stack[position]? with
    | some emission =>
      begin { dispatch with stack := dispatch.stack.setIfInBounds position .done } source
        (.flush source height (position + 1) :: rest) emission
    | none => ⟨{ dispatch with stack := dispatch.stack.take height }, rest⟩
  | ⟨dispatch, .leave :: rest⟩ => ⟨{ dispatch with depth := dispatch.depth - 1 }, rest⟩

/-- Some number of steps lead from one state of the work to another. -/
def Leads (listeners : Listeners) (work work' : Work) : Prop :=
  ∃ count, (step listeners)^[count] work = work'

section
variable {listeners : Listeners} {first second third : Work}

theorem Leads.refl (work : Work) : Leads listeners work work := ⟨0, rfl⟩

theorem Leads.trans (h : Leads listeners first second) (h' : Leads listeners second third) :
    Leads listeners first third := by
  obtain ⟨count, rfl⟩ := h
  obtain ⟨more, rfl⟩ := h'
  exact ⟨more + count, Function.iterate_add_apply _ more count first⟩

/-- A step, and all that follows from it. -/
theorem Leads.after (h : Leads listeners (step listeners first) second) :
    Leads listeners first second :=
  Leads.trans ⟨1, rfl⟩ h

end

/-! ## The nesting -/

/-- The counter tells how many deliveries are under way, and there are not too many. -/
structure Balanced (work : Work) : Prop where
  depth_eq : work.dispatch.depth = work.nested
  nested_le : work.nested ≤ maxDepth

theorem Balanced.of_nested {work work' : Work} (h : Balanced work)
    (hdepth : work'.dispatch.depth = work.dispatch.depth) (hnested : work'.nested = work.nested) :
    Balanced work' where
  depth_eq := hdepth.trans (h.depth_eq.trans hnested.symm)
  nested_le := hnested ▸ h.nested_le

theorem nested_leave (dispatch : Dispatch) (rest : List Task) :
    nested ⟨dispatch, .leave :: rest⟩ = nested ⟨dispatch, rest⟩ + 1 :=
  List.countP_cons_of_pos rfl

theorem nested_cons (dispatch : Dispatch) {task : Task} (htask : task.isLeave = false)
    (rest : List Task) : nested ⟨dispatch, task :: rest⟩ = nested ⟨dispatch, rest⟩ :=
  List.countP_cons_of_neg (by simp [htask])

theorem depth_answer (dispatch : Dispatch) (target : NodeRef) (inlet : Nat) (message : Message) :
    (dispatch.answer target inlet message).depth = dispatch.depth := by
  unfold Dispatch.answer
  split <;> rfl

theorem begin_keeps (dispatch : Dispatch) (source : NodeRef) (rest : List Task)
    (emission : Emission) :
    (begin dispatch source rest emission).dispatch.depth = dispatch.depth ∧
      (begin dispatch source rest emission).nested = nested ⟨dispatch, rest⟩ := by
  cases emission with
  | outlet outlet message => exact ⟨rfl, nested_cons dispatch rfl rest⟩
  | send tie message => exact ⟨rfl, nested_cons dispatch rfl rest⟩
  | _ => exact ⟨rfl, rfl⟩

/-- A step keeps the balance. Only beginning and leaving a delivery change the nesting. -/
theorem step_balanced (listeners : Listeners) {work : Work} (h : Balanced work) :
    Balanced (step listeners work) := by
  obtain ⟨dispatch, tasks⟩ := work
  cases tasks with
  | nil => exact h
  | cons task rest =>
    cases task with
    | send tie message => exact h.of_nested rfl rfl
    | serve places tie message =>
      cases places with
      | nil => exact h.of_nested rfl rfl
      | cons place places => exact h.of_nested rfl rfl
    | midi event => exact h.of_nested rfl rfl
    | offer places event =>
      cases places with
      | nil => exact h.of_nested rfl rfl
      | cons place places =>
        simp only [step]
        split
        · exact h.of_nested rfl rfl
        · exact h.of_nested rfl rfl
    | bang places =>
      cases places with
      | nil => exact h.of_nested rfl rfl
      | cons place places => exact h.of_nested rfl rfl
    | spread slot targets message =>
      cases targets with
      | nil => exact h.of_nested rfl rfl
      | cons target targets => exact h.of_nested rfl rfl
    | deliver target inlet message =>
      have hdepth : dispatch.depth = nested ⟨dispatch, rest⟩ := h.depth_eq
      simp only [step]
      split
      · exact h.of_nested rfl rfl
      · rename_i hspare
        have hnested (after : Dispatch) (height : Nat) :
            nested ⟨after, .flush target height height :: .leave :: rest⟩ =
              dispatch.depth + 1 := by
          rw [nested_cons after rfl, nested_leave, hdepth]
          rfl
        constructor
        · rw [hnested]
          exact depth_answer _ target inlet message
        · rw [hnested]
          omega
    | flush source height position =>
      simp only [step]
      split
      · obtain ⟨hdepth, hnested⟩ := begin_keeps
          { dispatch with stack := dispatch.stack.setIfInBounds position .done } source
          (.flush source height (position + 1) :: rest) ‹Emission›
        exact h.of_nested hdepth hnested
      · exact h.of_nested rfl rfl
    | leave =>
      obtain ⟨hdepth, hle⟩ := h
      rw [nested_leave] at hdepth hle
      simp only at hdepth
      have hleft : dispatch.depth - 1 = nested ⟨dispatch, rest⟩ := by omega
      exact ⟨hleft, Nat.le_of_succ_le hle⟩

/-- However far the work has come, the balance is kept. -/
theorem iterate_balanced (listeners : Listeners) (count : Nat) {work : Work}
    (h : Balanced work) : Balanced ((step listeners)^[count] work) := by
  induction count generalizing work with
  | zero => exact h
  | succ count ih => exact ih (step_balanced listeners h)

/-! ## Following the dispatcher -/

section
variable {hooks : Hooks} {id : Nat} {slots : Slots} {depth : Nat}

/-- The steps of a delivery lead to what it gives, from every dispatch at a nesting and
whatever is left to do after it. -/
def Realizes (slots : Slots) (depth : Nat) (delivery : Delivery) : Prop :=
  ∀ before : Dispatch, before.Fits slots depth → ∀ target inlet message rest,
    Leads (.ofSlots slots) ⟨before, .deliver target inlet message :: rest⟩
      ⟨delivery before target inlet message, rest⟩

variable {delivery : Delivery} {hand : DepthFirst.Handing}

theorem serve_leads (h : Dispatch.Imitates hooks id slots depth delivery hand)
    (hreal : Realizes slots depth delivery) (places : List NodeRef) (tie : Tie)
    (message : Message) {before : Dispatch} (hfits : before.Fits slots depth)
    (rest : List Task) :
    Leads (.ofSlots slots) ⟨before, .serve places tie message :: rest⟩
      ⟨(places.foldl (fun dispatch target => delivery dispatch target 0 message) before).perform
        (.message tie message), rest⟩ := by
  induction places generalizing before with
  | nil => exact ⟨1, rfl⟩
  | cons place places ih =>
    have hfirst := hreal before hfits place 0 message (.serve places tie message :: rest)
    have hnext := (h before hfits place 0 message).fits hfits
    exact (hfirst.trans (ih hnext)).after

theorem spread_leads (h : Dispatch.Imitates hooks id slots depth delivery hand)
    (hreal : Realizes slots depth delivery) (slot : Nat) (targets : List (Nat × Nat))
    (message : Message) {before : Dispatch} (hfits : before.Fits slots depth)
    (rest : List Task) :
    Leads (.ofSlots slots) ⟨before, .spread slot targets message :: rest⟩
      ⟨targets.foldl (fun dispatch (object, inlet) =>
        delivery dispatch { slot, object } inlet message) before, rest⟩ := by
  induction targets generalizing before with
  | nil => exact ⟨1, rfl⟩
  | cons target targets ih =>
    obtain ⟨object, inlet⟩ := target
    have hfirst := hreal before hfits ⟨slot, object⟩ inlet message
      (.spread slot targets message :: rest)
    have hnext := (h before hfits ⟨slot, object⟩ inlet message).fits hfits
    exact (hfirst.trans (ih hnext)).after

/-- What is begun for an emission leads to the emission carried out. -/
theorem begin_leads (h : Dispatch.Imitates hooks id slots depth delivery hand)
    (hreal : Realizes slots depth delivery) (source : NodeRef) {before : Dispatch}
    (hfits : before.Fits slots depth) (rest : List Task) (emission : Emission) :
    Leads (.ofSlots slots) (begin before source rest emission)
      ⟨Dispatch.carryOut (.ofSlots slots) delivery source before emission, rest⟩ := by
  cases emission with
  | outlet outlet message => exact spread_leads h hreal source.slot _ message hfits rest
  | send tie message => exact (serve_leads h hreal _ tie message hfits rest).after
  | _ => exact Leads.refl _

/-- The rounds of a stack frame lead to the end of the stack, which is then cut back. -/
theorem flush_leads (h : Dispatch.Imitates hooks id slots depth delivery hand)
    (hreal : Realizes slots depth delivery) {source : NodeRef} (height : Nat)
    {position : Nat} {before after : Dispatch}
    (hwalk : Dispatch.Walk (.ofSlots slots) delivery source position before after)
    (hfits : before.Fits slots depth) (rest : List Task) :
    Leads (.ofSlots slots) ⟨before, .flush source height position :: rest⟩
      ⟨{ after with stack := after.stack.take height }, rest⟩ := by
  induction hwalk with
  | stop hend =>
    refine ⟨1, ?_⟩
    simp only [Function.iterate_one, step, Array.getElem?_eq_none hend]
  | @step position dispatch final emission hentry _ ih =>
    let marked : Dispatch :=
      { dispatch with stack := dispatch.stack.setIfInBounds position .done }
    have hmarked : marked.Fits slots depth := ⟨hfits.outline_eq, hfits.depth_eq⟩
    have hstep : Work.step (.ofSlots slots) ⟨dispatch, .flush source height position :: rest⟩ =
        begin marked source (.flush source height (position + 1) :: rest) emission := by
      simp only [Work.step, hentry, marked]
    apply Leads.after
    rw [hstep]
    have hnext := (Dispatch.carryOut_mirrors h hmarked source emission).fits hmarked
    exact (begin_leads h hreal source hmarked _ emission).trans (ih hnext)

/-- Emissions put on the stack are carried out, and the stack is what it was. -/
theorem raise_leads (h : Dispatch.Imitates hooks id slots depth delivery hand)
    (hreal : Realizes slots depth delivery) (source : NodeRef) (emissions : List Emission)
    {before : Dispatch} (hfits : before.Fits slots depth) (rest : List Task) :
    Leads (.ofSlots slots) (raise before source emissions rest)
      ⟨Dispatch.flush (.ofSlots slots) delivery source before.stack.size
        (before.push emissions), rest⟩ := by
  have hpushed : (before.push emissions).Fits slots depth :=
    ⟨hfits.outline_eq, hfits.depth_eq⟩
  obtain ⟨after, hwalk, hflush⟩ :=
    Dispatch.flush_walks h source before.stack.size hpushed
  rw [hflush]
  exact flush_leads h hreal before.stack.size hwalk hpushed rest

/-- What an object answers goes on top of the stack that was there. -/
theorem exists_answer_eq_push {before : Dispatch} (hfits : before.Fits slots depth)
    (target : NodeRef) (inlet : Nat) (message : Message) :
    ∃ (after : Dispatch) (emissions : List Emission),
      before.answer target inlet message = after.push emissions ∧
        after.Fits slots depth ∧ after.stack = before.stack := by
  cases hnode : before.slots.node? target with
  | none =>
    refine ⟨before, [], ?_, hfits, rfl⟩
    simp [Dispatch.answer, Dispatch.push, hnode]
  | some node =>
    obtain ⟨after, hanswer, hmirrors⟩ :=
      Dispatch.answer_mirrors {} 0 before hnode inlet message
    exact ⟨after, _, hanswer, hmirrors.fits hfits, hmirrors.stack_eq⟩

/-- With the room that a nesting leaves, a delivery comes to its end step by step. -/
theorem deliver_realizes (room : Nat) (hroom : depth + room = maxDepth) :
    Realizes slots depth (Dispatch.deliver (.ofSlots slots) room) := by
  -- The room shrinks with each nesting. What a nesting does besides is bounded by what it has
  -- put on the stack, which `raise_leads` takes care of.
  induction room generalizing depth with
  | zero =>
    intro before hfits target inlet message rest
    have hfull : maxDepth ≤ before.depth := by
      rw [hfits.depth_eq]
      omega
    refine ⟨1, ?_⟩
    simp only [Function.iterate_one, step, Dispatch.deliver, if_pos hfull]
  | succ room ih =>
    intro before hfits target inlet message rest
    have hspare : ¬ maxDepth ≤ before.depth := by
      rw [hfits.depth_eq]
      omega
    have hinner : depth + 1 + room = maxDepth := by omega
    have himitates : Dispatch.Imitates {} 0 slots (depth + 1)
        (Dispatch.deliver (.ofSlots slots) room) (DepthFirst.deliver {} 0 (depth + 1)) :=
      Dispatch.deliver_imitates room hinner
    let entered : Dispatch := { before with depth := before.depth + 1 }
    have hentered : entered.Fits slots (depth + 1) :=
      ⟨hfits.outline_eq, congrArg (· + 1) hfits.depth_eq⟩
    obtain ⟨after, emissions, hanswer, hafter, hstack⟩ :=
      exists_answer_eq_push hentered target inlet message
    have hheight : after.stack.size = before.stack.size := congrArg Array.size hstack
    have hstep :
        step (.ofSlots slots) ⟨before, .deliver target inlet message :: rest⟩ =
          raise after target emissions (.leave :: rest) := by
      simp only [step, if_neg hspare, raise, hheight]
      rw [show Dispatch.answer _ target inlet message = _ from hanswer]
    have hdelivered :
        Dispatch.deliver (.ofSlots slots) (room + 1) before target inlet message =
          { Dispatch.flush (.ofSlots slots) (Dispatch.deliver (.ofSlots slots) room) target
              after.stack.size (after.push emissions) with
            depth := (Dispatch.flush (.ofSlots slots)
              (Dispatch.deliver (.ofSlots slots) room) target after.stack.size
              (after.push emissions)).depth - 1 } := by
      rw [Dispatch.deliver, if_neg hspare, hheight]
      rw [show Dispatch.answer _ target inlet message = _ from hanswer]
    apply Leads.after
    rw [hstep, hdelivered]
    have hflushed := raise_leads himitates (ih hinner) target emissions hafter (.leave :: rest)
    exact hflushed.trans ⟨1, rfl⟩

theorem top_realizes : Realizes slots 0 (Dispatch.deliver (.ofSlots slots) maxDepth) :=
  deliver_realizes maxDepth (Nat.zero_add _)

theorem top_imitates :
    Dispatch.Imitates {} 0 slots 0 (Dispatch.deliver (.ofSlots slots) maxDepth)
      (DepthFirst.deliver {} 0 0) :=
  Dispatch.deliver_imitates maxDepth (Nat.zero_add _)

theorem send_leads (tie : Tie) (message : Message) {before : Dispatch}
    (hfits : before.Fits slots 0) (rest : List Task) :
    Leads (.ofSlots slots) ⟨before, .send tie message :: rest⟩
      ⟨before.send (.ofSlots slots) tie message, rest⟩ :=
  (serve_leads top_imitates top_realizes _ tie message hfits rest).after

theorem fire_fits {before : Dispatch} (hfits : before.Fits slots 0) (source : NodeRef)
    (emissions : List Emission) :
    (before.fire (.ofSlots slots) source emissions).Fits slots 0 := by
  have hmirrors : Dispatch.Mirrors {} 0 before (before.fire (.ofSlots slots) source emissions) _ :=
    Dispatch.fire_mirrors hfits source emissions
  exact hmirrors.fits hfits

theorem offer_leads (places : List NodeRef) (event : MidiEvent) {before : Dispatch}
    (hfits : before.Fits slots 0) (rest : List Task) :
    Leads (.ofSlots slots) ⟨before, .offer places event :: rest⟩
      ⟨places.foldl (fun dispatch place =>
        match dispatch.slots.node? place with
        | some node => dispatch.fire (.ofSlots slots) place (node.answerMidi event)
        | none => dispatch) before, rest⟩ := by
  induction places generalizing before with
  | nil => exact ⟨1, rfl⟩
  | cons place places ih =>
    apply Leads.after
    simp only [step, List.foldl_cons]
    cases before.slots.node? place with
    | none => exact ih hfits
    | some node =>
      have hfired := raise_leads top_imitates top_realizes place (node.answerMidi event) hfits
        (.offer places event :: rest)
      have hnext := fire_fits hfits place (node.answerMidi event)
      exact hfired.trans (ih hnext)

theorem bang_leads (places : List NodeRef) {before : Dispatch} (hfits : before.Fits slots 0)
    (rest : List Task) :
    Leads (.ofSlots slots) ⟨before, .bang places :: rest⟩
      ⟨before.bangAll (.ofSlots slots) places, rest⟩ := by
  induction places generalizing before with
  | nil => exact ⟨1, rfl⟩
  | cons place places ih =>
    have hfired := raise_leads top_imitates top_realizes place [.outlet 0 .bang] hfits
      (.bang places :: rest)
    have hnext := fire_fits hfits place [.outlet 0 .bang]
    exact (hfired.trans (ih hnext)).after

end

/-! ## One piece of work after another -/

/-- The work with effects that came before it. -/
def behind (past : Array Effect) (work : Work) : Work :=
  { work with dispatch := { work.dispatch with effects := past ++ work.dispatch.effects } }

theorem perform_behind (past : Array Effect) (dispatch : Dispatch) (effect : Effect)
    (rest : List Task) :
    ⟨{ dispatch with effects := past ++ dispatch.effects }.perform effect, rest⟩ =
      behind past ⟨dispatch.perform effect, rest⟩ := by
  simp [behind, Dispatch.perform]

theorem answer_behind (past : Array Effect) (dispatch : Dispatch) (target : NodeRef)
    (inlet : Nat) (message : Message) (rest : List Task) :
    ⟨{ dispatch with effects := past ++ dispatch.effects }.answer target inlet message, rest⟩ =
      behind past ⟨dispatch.answer target inlet message, rest⟩ := by
  simp only [behind, Dispatch.answer]
  cases dispatch.slots.node? target <;> rfl

theorem begin_behind (past : Array Effect) (dispatch : Dispatch) (source : NodeRef)
    (rest : List Task) (emission : Emission) :
    begin { dispatch with effects := past ++ dispatch.effects } source rest emission =
      (begin dispatch source rest emission).behind past := by
  cases emission with
  | post level text => exact perform_behind past dispatch _ rest
  | midi event => exact perform_behind past dispatch _ rest
  | _ => rfl

/-- No step looks at the effects. -/
theorem step_behind (listeners : Listeners) (past : Array Effect) (work : Work) :
    step listeners (work.behind past) = (step listeners work).behind past := by
  obtain ⟨dispatch, tasks⟩ := work
  cases tasks with
  | nil => rfl
  | cons task rest =>
    cases task with
    | serve places tie message =>
      cases places with
      | nil => exact perform_behind past dispatch _ rest
      | cons place places => rfl
    | offer places event =>
      cases places with
      | nil => rfl
      | cons place places =>
        simp only [step, behind]
        cases dispatch.slots.node? place <;> rfl
    | bang places => cases places <;> rfl
    | spread slot targets message => cases targets <;> rfl
    | deliver target inlet message =>
      simp only [step, behind]
      split
      · exact perform_behind past dispatch _ rest
      · exact answer_behind past { dispatch with depth := dispatch.depth + 1 } target inlet
          message _
    | flush source height position =>
      simp only [step, behind]
      cases dispatch.stack[position]? with
      | none => rfl
      | some emission =>
        exact begin_behind past
          { dispatch with stack := dispatch.stack.setIfInBounds position .done } source _ emission
    | _ => rfl

theorem Leads.behind {listeners : Listeners} {first second : Work}
    (h : Leads listeners first second) (past : Array Effect) :
    Leads listeners (first.behind past) (second.behind past) := by
  obtain ⟨count, rfl⟩ := h
  have hsteps : Function.Semiconj (Work.behind past) (step listeners) (step listeners) :=
    fun work => (step_behind listeners past work).symm
  exact ⟨count, (hsteps.iterate_right count first).symm⟩

end Work

end Patchbay
