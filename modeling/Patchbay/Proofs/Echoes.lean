import Mathlib.Data.List.Basic
import Patchbay.Proofs.Relays

/-!
# MIDI that goes through a patch

Where a MIDI input is joined to a MIDI output of its family, every event of the family comes
out again, once and as it came in, and no other event makes the output speak.

## Implementation notes

The input and the output may be part of any patch, and the patch of any instance. So the work
is followed to its end whatever the other objects do. What the output still has to say is a
function of the tasks that are left: nothing, but for an event that has not been offered to
the input yet. The deliveries from the input to the output are taken in one stride.
-/

namespace Patchbay

/-! ## What is owed -/

namespace Relay
variable (relay : Relay)

/-- What a task may not do, so that the output hears of nothing but the input's bursts. -/
@[simp] def Spares : Task → Prop
  | .send .. | .leave => True
  | .serve places .. => relay.target ∉ places
  | .midi event => event.kind = relay.kind → event.Exact
  | .offer places event =>
    relay.target ∉ places ∧ places.Nodup ∧ (event.kind = relay.kind → event.Exact)
  | .bang places => relay.source ∉ places ∧ relay.target ∉ places
  | .spread slot targets _ => ∀ target ∈ targets, (⟨slot, target.1⟩ : NodeRef) ≠ relay.target
  | .deliver target .. => target ≠ relay.target
  | .flush source .. => source ≠ relay.source ∧ source ≠ relay.target

/-- The events that a task still has for the output. -/
@[simp] def owed : Task → List MidiEvent
  | .midi event => relay.share event
  | .offer places event => if relay.source ∈ places then relay.share event else []
  | _ => []

end Relay

/-- Whether a task is about a MIDI event from outside. -/
@[simp] def Task.isOffer : Task → Bool
  | .midi _ | .offer .. => true
  | _ => false

namespace Work
variable {slots : Slots} {relay : Relay} {dispatch after : Dispatch} {task : Task}
  {rest : List Task}

/-- The work goes on beside a joined pair. -/
structure Attends (slots : Slots) (relay : Relay) (work : Work) : Prop where
  outline_eq : work.dispatch.slots.outline = slots.outline
  balanced : Balanced work
  spares : ∀ task ∈ work.tasks, relay.Spares task
  /-- Events come in from outside, when no delivery is under way. -/
  shallow : work.tasks.Pairwise fun task later => task.isOffer = true → later.isLeave = false

/-- The events that the tasks still have for the output. -/
def owed (relay : Relay) (work : Work) : List MidiEvent := work.tasks.flatMap relay.owed

/-- Some steps bring the output nearer to having said all that is owed. -/
def Proceeds (slots : Slots) (relay : Relay) (work : Work) : Prop :=
  ∃ count next, (step (.ofSlots slots))^[count + 1] work = next ∧ Attends slots relay next ∧
    relay.target.eventsIn (collect (.ofSlots slots) spoken? (count + 1) work) ++ next.owed relay =
      work.owed relay

/-- A task is replaced by others, which spare the pair and owe what is left. -/
theorem Attends.proceeds (h : Attends slots relay ⟨dispatch, task :: rest⟩)
    (fresh : List Task) {marks : List (NodeRef × MidiEvent)}
    (hmarks : Marks (.ofSlots slots) spoken? (step (.ofSlots slots) ⟨dispatch, task :: rest⟩)
      marks ⟨after, fresh ++ rest⟩)
    (hspares : ∀ task ∈ fresh, relay.Spares task)
    (hshallow : fresh.Pairwise fun task later => task.isOffer = true → later.isLeave = false)
    (hoffers : ∀ new ∈ fresh, new.isOffer = true → task.isOffer = true)
    (howed : relay.target.eventsIn ((spoken? ⟨dispatch, task :: rest⟩).toList ++ marks) ++
      fresh.flatMap relay.owed = relay.owed task) :
    Proceeds slots relay ⟨dispatch, task :: rest⟩ := by
  obtain ⟨count, hcount, rfl⟩ := hmarks
  refine ⟨count, _, hcount, ⟨?_, ?_, ?_, ?_⟩, ?_⟩
  · have houtline := outline_iterate (.ofSlots slots) (count + 1) ⟨dispatch, task :: rest⟩
    rw [Function.iterate_succ_apply, hcount] at houtline
    exact houtline.trans h.outline_eq
  · have hbalanced := iterate_balanced (.ofSlots slots) (count + 1) h.balanced
    rwa [Function.iterate_succ_apply, hcount] at hbalanced
  · intro other hother
    rcases List.mem_append.mp hother with hfresh | hrest
    · exact hspares other hfresh
    · exact h.spares other (List.mem_cons_of_mem _ hrest)
  · obtain ⟨hhead, htail⟩ := List.pairwise_cons.mp h.shallow
    exact List.pairwise_append.mpr
      ⟨hshallow, htail, fun new hnew later hlater hoffer =>
        hhead later hlater (hoffers new hnew hoffer)⟩
  · calc relay.target.eventsIn
            (collect (.ofSlots slots) spoken? (count + 1) ⟨dispatch, task :: rest⟩) ++
          owed relay ⟨after, fresh ++ rest⟩
        = relay.owed task ++ rest.flatMap relay.owed := by
          rw [← howed, owed, List.flatMap_append, List.append_assoc]
          rfl
      _ = owed relay ⟨dispatch, task :: rest⟩ := List.flatMap_cons.symm

/-- One step, in which the output is silent. -/
theorem Attends.proceeds_quietly (h : Attends slots relay ⟨dispatch, task :: rest⟩)
    (fresh : List Task)
    (hstep : step (.ofSlots slots) ⟨dispatch, task :: rest⟩ = ⟨after, fresh ++ rest⟩)
    (hquiet : relay.target.eventsIn (spoken? ⟨dispatch, task :: rest⟩).toList = [])
    (hspares : ∀ task ∈ fresh, relay.Spares task)
    (hshallow : fresh.Pairwise fun task later => task.isOffer = true → later.isLeave = false)
    (hoffers : ∀ new ∈ fresh, new.isOffer = true → task.isOffer = true)
    (howed : fresh.flatMap relay.owed = relay.owed task) :
    Proceeds slots relay ⟨dispatch, task :: rest⟩ := by
  have hmarks : Marks (.ofSlots slots) spoken? (step (.ofSlots slots) ⟨dispatch, task :: rest⟩)
      [] ⟨after, fresh ++ rest⟩ := hstep ▸ Marks.refl (step (.ofSlots slots) _)
  refine h.proceeds fresh hmarks hspares hshallow hoffers ?_
  rw [List.append_nil, hquiet, List.nil_append, howed]

/-- A delivery to the input is silent. -/
theorem Attends.proceeds_deliver (hrelays : slots.Relays relay) {target : NodeRef} {inlet : Nat}
    {message : Message}
    (h : Attends slots relay ⟨dispatch, .deliver target inlet message :: rest⟩) :
    Proceeds slots relay ⟨dispatch, .deliver target inlet message :: rest⟩ := by
  have hspares : target ≠ relay.target := h.spares _ (List.mem_cons_self ..)
  by_cases hfull : maxDepth ≤ dispatch.depth
  · have hstep : step (.ofSlots slots) ⟨dispatch, .deliver target inlet message :: rest⟩ =
        ⟨dispatch.perform (.post .error "stack overflow"), [] ++ rest⟩ := by
      simp only [step, if_pos hfull, List.nil_append]
    exact h.proceeds_quietly [] hstep rfl (by simp) .nil (by simp) rfl
  by_cases hsource : target = relay.source
  · have hnode : dispatch.slots.node? target = some (.midiIn relay.kind) :=
      hsource ▸ (hrelays.of_outline h.outline_eq).hears
    have hanswer : (Node.midiIn relay.kind).answer inlet message =
        (.midiIn relay.kind, ([] : List MidiEvent).map .midi) := rfl
    obtain ⟨effects, hsilent⟩ := marks_deliver_midi (.ofSlots slots) dispatch hnode hanswer
      (Nat.lt_of_not_le hfull) rest
    exact h.proceeds [] hsilent (by simp) .nil (by simp) rfl
  · have hstep : step (.ofSlots slots) ⟨dispatch, .deliver target inlet message :: rest⟩ =
        ⟨{ dispatch with depth := dispatch.depth + 1 }.answer target inlet message,
          [Task.flush target dispatch.stack.size dispatch.stack.size, Task.leave] ++ rest⟩ := by
      simp only [step, if_neg hfull]
      rfl
    refine h.proceeds_quietly _ hstep rfl ?_ ?_ ?_ rfl
    · simp [hsource, hspares]
    · simp
    · simp

/-- Nothing is nested when an event is offered. -/
theorem Attends.depth_eq (h : Attends slots relay ⟨dispatch, task :: rest⟩)
    (hoffer : task.isOffer = true) : dispatch.depth = 0 := by
  refine h.balanced.depth_eq.trans (List.countP_eq_zero.mpr fun other hother => ?_)
  rcases List.mem_cons.mp hother with rfl | hrest
  · cases other <;> simp_all [Task.isLeave]
  · simp [(List.pairwise_cons.mp h.shallow).1 other hrest hoffer]

/-- The burst of the input makes the output say the event, if it is of their family. -/
theorem Attends.proceeds_burst (hrelays : slots.Relays relay) {places : List NodeRef}
    {event : MidiEvent}
    (h : Attends slots relay ⟨dispatch, .offer (relay.source :: places) event :: rest⟩) :
    Proceeds slots relay ⟨dispatch, .offer (relay.source :: places) event :: rest⟩ := by
  obtain ⟨htarget, hnodup, hexact⟩ := h.spares _ (List.mem_cons_self ..)
  obtain ⟨hsource, hplaces⟩ := List.nodup_cons.mp hnodup
  have hnow := hrelays.of_outline h.outline_eq
  obtain ⟨node, stored, hnode, hspeaks⟩ := hnow.exists_speaks hexact
  have hstep : step (.ofSlots slots) ⟨dispatch, .offer (relay.source :: places) event :: rest⟩ =
      ⟨dispatch.push ((relay.burst event).map fun part => .outlet part.1 part.2),
        .flush relay.source dispatch.stack.size dispatch.stack.size ::
          .offer places event :: rest⟩ := by
    simp only [step, hnow.hears, relay.answerMidi_eq]
    rfl
  have hspare : dispatch.depth < maxDepth := by
    rw [h.depth_eq rfl]
    decide
  obtain ⟨final, hfinal⟩ := marks_flush_relayed (.ofSlots slots) hnow.slot_eq hspeaks dispatch
    hnode (hnow.targets_burst event) hspare (.offer places event :: rest)
  refine h.proceeds [.offer places event] (hstep ▸ hfinal) ?_ (by simp) (by simp) ?_
  · intro task htask
    rw [List.mem_singleton.mp htask]
    exact ⟨fun hmem => htarget (List.mem_cons_of_mem _ hmem), hplaces, hexact⟩
  · have hsaid : relay.target.eventsIn ((relay.share event).map fun event =>
        (relay.target, event)) = relay.share event := by
      simp [NodeRef.eventsIn, List.filter_map, Function.comp_def]
    simp [spoken?, hsource, hsaid]

theorem Attends.proceeds_offer (hrelays : slots.Relays relay) {places : List NodeRef}
    {event : MidiEvent} (h : Attends slots relay ⟨dispatch, .offer places event :: rest⟩) :
    Proceeds slots relay ⟨dispatch, .offer places event :: rest⟩ := by
  cases places with
  | nil =>
    refine h.proceeds_quietly [] rfl rfl (by simp) .nil (by simp) ?_
    simp
  | cons place places =>
    obtain ⟨htarget, hnodup, hexact⟩ := h.spares _ (List.mem_cons_self ..)
    obtain ⟨-, hplaces⟩ := List.nodup_cons.mp hnodup
    obtain ⟨hplace, hothers⟩ := not_or.mp (mt List.mem_cons.mpr htarget)
    by_cases hsource : relay.source = place
    · subst hsource
      exact h.proceeds_burst hrelays
    have hleft : relay.owed (.offer places event) =
        relay.owed (.offer (place :: places) event) := by
      simp [hsource]
    cases hnode : dispatch.slots.node? place with
    | none =>
      have hstep : step (.ofSlots slots) ⟨dispatch, .offer (place :: places) event :: rest⟩ =
          ⟨dispatch, [Task.offer places event] ++ rest⟩ := by
        simp only [step, hnode]
        rfl
      refine h.proceeds_quietly _ hstep rfl ?_ (by simp) (by simp) ?_
      · simpa using ⟨hothers, hplaces, hexact⟩
      · simpa using hleft
    | some node =>
      have hstep : step (.ofSlots slots) ⟨dispatch, .offer (place :: places) event :: rest⟩ =
          ⟨dispatch.push (node.answerMidi event),
            [Task.flush place dispatch.stack.size dispatch.stack.size, Task.offer places event] ++
              rest⟩ := by
        simp only [step, hnode]
        rfl
      refine h.proceeds_quietly _ hstep rfl ?_ (by simp)
        (by simp) ?_
      · simpa using
          ⟨⟨Ne.symm hsource, Ne.symm hplace⟩, hothers, hplaces, hexact⟩
      · simpa using hleft

/-- A frame of another object begins nothing that comes to the output. -/
theorem Attends.proceeds_flush (hrelays : slots.Relays relay) {source : NodeRef}
    {height position : Nat}
    (h : Attends slots relay ⟨dispatch, .flush source height position :: rest⟩) :
    Proceeds slots relay ⟨dispatch, .flush source height position :: rest⟩ := by
  obtain ⟨hsource, htarget⟩ := h.spares _ (List.mem_cons_self ..)
  have hquiet : relay.target.eventsIn
      (spoken? ⟨dispatch, .flush source height position :: rest⟩).toList = [] := by
    simp only [spoken?]
    split <;> simp [NodeRef.eventsIn, htarget]
  have hleft : relay.Spares (.flush source height (position + 1)) := ⟨hsource, htarget⟩
  cases hemission : dispatch.stack[position]? with
  | none =>
    have hstep : step (.ofSlots slots) ⟨dispatch, .flush source height position :: rest⟩ =
        ⟨{ dispatch with stack := dispatch.stack.take height }, [] ++ rest⟩ := by
      simp only [step, hemission]
      rfl
    exact h.proceeds_quietly [] hstep hquiet (by simp) .nil (by simp) rfl
  | some emission =>
    let begun : Dispatch :=
      { dispatch with stack := dispatch.stack.setIfInBounds position .done }
    have hstep : step (.ofSlots slots) ⟨dispatch, .flush source height position :: rest⟩ =
        begin begun source (.flush source height (position + 1) :: rest) emission := by
      simp only [step, hemission]
      rfl
    cases emission with
    | outlet outlet message =>
      refine h.proceeds_quietly
        [.spread source.slot (begun.slots.targets source outlet) message,
          .flush source height (position + 1)] hstep hquiet ?_ (by simp)
        (by simp) rfl
      intro task htask
      rcases List.mem_pair.mp htask with rfl | rfl
      · intro target hmem heq
        have hnow := hrelays.of_outline h.outline_eq
        exact hsource (hnow.source_eq source outlet target hmem heq)
      · exact hleft
    | send tie message =>
      refine h.proceeds_quietly [.send tie message, .flush source height (position + 1)] hstep
        hquiet ?_ (by simp) (by simp) rfl
      simpa using hleft
    | _ =>
      refine h.proceeds_quietly [.flush source height (position + 1)] hstep hquiet ?_
        (by simp) (by simp) rfl
      simpa using hleft

/-- Whatever comes next, the output says what it owes, and nothing else. -/
theorem Attends.proceeds_step (hrelays : slots.Relays relay)
    (h : Attends slots relay ⟨dispatch, task :: rest⟩) :
    Proceeds slots relay ⟨dispatch, task :: rest⟩ := by
  have hspares := h.spares _ (List.mem_cons_self ..)
  obtain ⟨hties, hmidi, hsource⟩ := hrelays.listeners
  cases task with
  | send tie message =>
    refine h.proceeds_quietly [.serve ((Listeners.ofSlots slots).listening tie) tie message] rfl
      rfl ?_ (by simp) (by simp) rfl
    simpa using hties tie
  | serve places tie message =>
    cases places with
    | nil => exact h.proceeds_quietly [] rfl rfl (by simp) .nil (by simp) rfl
    | cons place places =>
      obtain ⟨hplace, hothers⟩ := not_or.mp (mt List.mem_cons.mpr hspares)
      refine h.proceeds_quietly [.deliver place 0 message, .serve places tie message] rfl
        rfl ?_ (by simp) (by simp) rfl
      simpa using ⟨Ne.symm hplace, hothers⟩
  | midi event =>
    refine h.proceeds_quietly [.offer (Listeners.ofSlots slots).toMidi event] rfl
      rfl ?_ (by simp) (by simp) ?_
    · rw [Listeners.toMidi_ofSlots] at hmidi ⊢
      simpa using
        ⟨hmidi, Slots.placesOf_nodup slots Node.isMidiIn, hspares⟩
    · simp [hsource]
  | offer places event => exact h.proceeds_offer hrelays
  | bang places =>
    cases places with
    | nil => exact h.proceeds_quietly [] rfl rfl (by simp) .nil (by simp) rfl
    | cons place places =>
      obtain ⟨hin, hout⟩ := hspares
      obtain ⟨hplace, hothers⟩ := not_or.mp (mt List.mem_cons.mpr hin)
      obtain ⟨hplace', hothers'⟩ := not_or.mp (mt List.mem_cons.mpr hout)
      refine h.proceeds_quietly
        [.flush place dispatch.stack.size dispatch.stack.size, .bang places] rfl
        rfl ?_ (by simp) (by simp) rfl
      simpa using
        ⟨⟨Ne.symm hplace, Ne.symm hplace'⟩, hothers, hothers'⟩
  | spread slot targets message =>
    cases targets with
    | nil => exact h.proceeds_quietly [] rfl rfl (by simp) .nil (by simp) rfl
    | cons target targets =>
      obtain ⟨hfirst, hothers⟩ := List.forall_mem_cons.mp hspares
      refine h.proceeds_quietly
        [.deliver ⟨slot, target.1⟩ target.2 message, .spread slot targets message] rfl
        rfl ?_ (by simp) (by simp) rfl
      exact List.forall_mem_cons.mpr ⟨hfirst, List.forall_mem_cons.mpr ⟨hothers, by simp⟩⟩
  | deliver target inlet message => exact h.proceeds_deliver hrelays
  | flush source height position => exact h.proceeds_flush hrelays
  | leave => exact h.proceeds_quietly [] rfl rfl (by simp) .nil (by simp) rfl

/-- At the end of the work the output has said what was owed to it. -/
theorem Attends.said_eq (hrelays : slots.Relays relay) {work : Work} {final : Dispatch}
    {total : Nat} (h : Attends slots relay work)
    (htotal : (step (.ofSlots slots))^[total] work = ⟨final, []⟩) :
    relay.target.eventsIn (collect (.ofSlots slots) spoken? total work) = work.owed relay := by
  -- Strides are longer than steps, and the last one may go past the end, where nothing is said.
  induction total using Nat.strong_induction_on generalizing work with
  | _ total ih =>
    obtain ⟨dispatch, tasks⟩ := work
    cases tasks with
    | nil =>
      rw [collect_nil _ _ _ rfl]
      rfl
    | cons task rest =>
      obtain ⟨count, next, hnext, hattends, howed⟩ := h.proceeds_step hrelays
      rcases Nat.le_total (count + 1) total with hle | hle
      · have hsplit : total = count + 1 + (total - (count + 1)) := (Nat.add_sub_cancel' hle).symm
        have hrest : (step (.ofSlots slots))^[total - (count + 1)] next = ⟨final, []⟩ := by
          rw [← hnext, ← Function.iterate_add_apply, Nat.sub_add_cancel hle, htotal]
        rw [← howed, ← ih _ (by omega) hattends hrest, ← NodeRef.eventsIn_append, ← hnext,
          ← collect_add, ← hsplit]
      · have hsplit : count + 1 = total + (count + 1 - total) := (Nat.add_sub_cancel' hle).symm
        have hpast : next = ⟨final, []⟩ := by
          rw [← hnext, ← Nat.sub_add_cancel hle, Function.iterate_add_apply, htotal,
            step_iterate_nil]
        rw [← howed, hpast, hsplit, collect_add, htotal, collect_nil _ _ _ rfl]
        simp [owed]

end Work

/-! ## In every session -/

/-- The MIDI event of a command, if it is one. -/
def Command.event? : Command → Option MidiEvent
  | .send .. => none
  | .midi event => some event

/-- The MIDI events among some commands, in order. -/
def Command.events (commands : List Command) : List MidiEvent :=
  commands.filterMap Command.event?

/-- The events of the family are owed, whatever else there is to do. -/
theorem Relay.owed_commands (relay : Relay) (commands : List Command) :
    (commands.map Command.task).flatMap relay.owed =
      (Command.events commands).filter fun event => decide (event.kind = relay.kind) := by
  induction commands with
  | nil => rfl
  | cons command rest ih =>
    rw [List.map_cons, List.flatMap_cons, ih]
    cases command with
    | send tie message => rfl
    | midi event =>
      by_cases hkind : event.kind = relay.kind
      · simp [Command.events, Command.event?, Command.task, share, hkind]
      · simp [Command.events, Command.event?, Command.task, share, hkind]

namespace Instance
variable {inst : Instance} {slot : Nat} {kind : MidiKind} {input output : Nat}

/-- An operation makes a MIDI output say these events, and leaves it joined to the input. -/
structure Repeats (inst : Instance) (slot : Nat) (kind : MidiKind) (input output : Nat)
    (tasks : List Task) (done : Instance × List Call) (events : List MidiEvent) : Prop where
  /-- Of all that is said to the MIDI sink, the output says these events, in this order. -/
  voices : ∃ said, inst.Voices tasks done said ∧
    NodeRef.eventsIn { slot, object := output } said = events
  kept : ∃ patch, done.1.engine.slots.patchAt slot = some patch ∧ patch.Echoes kind input output

/-- Work on an instance begins beside every joined pair. -/
theorem attends_start (h : inst.engine.Settled) {relay : Relay} {tasks : List Task}
    (hspares : ∀ task ∈ tasks, relay.Spares task)
    (hleave : ∀ task ∈ tasks, task.isLeave = false) :
    Work.Attends inst.engine.slots relay ⟨inst.engine.start, tasks⟩ where
  outline_eq := rfl
  balanced := balanced_start h hleave
  spares := hspares
  shallow := List.pairwise_of_forall_mem_list fun _ _ later hlater _ => hleave later hlater

/-- What an operation repeats is what its tasks owe. -/
theorem Completes.repeats (hreachable : inst.engine.Reachable) {patch : Patch}
    (hpatch : inst.engine.slots.patchAt slot = some patch) (hwired : patch.Wired)
    (hechoes : patch.Echoes kind input output) {tasks : List Task}
    {done : Instance × List Call} (hdone : inst.Completes tasks done)
    (hspares : ∀ task ∈ tasks, Relay.Spares ⟨kind, ⟨slot, input⟩, ⟨slot, output⟩⟩ task)
    (hleave : ∀ task ∈ tasks, task.isLeave = false)
    (houtline : done.1.engine.slots.outline = inst.engine.slots.outline) :
    inst.Repeats slot kind input output tasks done
      (tasks.flatMap (Relay.owed ⟨kind, ⟨slot, input⟩, ⟨slot, output⟩⟩)) where
  voices := by
    have hrelays := hechoes.relays hpatch hwired
    obtain ⟨said, hsaid⟩ := hdone.exists_voices
    obtain ⟨count, final, hcount, -, hcollect⟩ := hsaid.spoken
    rw [hreachable.settled.listeners_eq] at hcount hcollect
    refine ⟨said, hsaid, ?_⟩
    rw [← hcollect]
    exact (attends_start hreachable.settled hspares hleave).said_eq hrelays hcount
  kept := by
    have hafter := congrArg (fun slots => Slots.patchAt slots slot) houtline
    simp only [Slots.patchAt_outline, hpatch, Option.map_some] at hafter
    obtain ⟨later, hlater, heq⟩ := Option.map_eq_some_iff.mp hafter
    exact ⟨later, hlater, hechoes.of_outline heq⟩

end Instance

/-- In every session MIDI echoes unchanged through a patch. Where an input and an output of one
family are joined outlet by inlet, the output says the events of the family to the MIDI sink,
each once, in order and with all fields as they were, and says nothing else, whatever other
events and messages come in between and whatever it has stored. The events may come to the
instance directly or through the queue that a block takes them from. -/
theorem Rack.Reachable.midi_echoes {rack : Rack} (h : rack.Reachable) {position : Nat}
    {inst : Instance} (hinst : rack.instance? position = some inst) {slot : Nat} {patch : Patch}
    (hpatch : inst.engine.slots.patchAt slot = some patch) {kind : MidiKind}
    {input output : Nat} (hechoes : patch.Echoes kind input output) {commands : List Command}
    (hexact : ∀ event ∈ Command.events commands, event.kind = kind → event.Exact) :
    inst.Repeats slot kind input output (commands.map Command.task) (inst.carryOutAll commands)
        ((Command.events commands).filter fun event => decide (event.kind = kind)) ∧
      ∀ size inputs outputs blocks,
        (inst.perform commands size inputs outputs).result = .ok blocks →
          inst.Repeats slot kind input output
            (commands.map Command.task ++ [.bang inst.engine.chain.ticks])
            ((inst.perform commands size inputs outputs).state,
              (inst.perform commands size inputs outputs).calls)
            ((Command.events commands).filter fun event => decide (event.kind = kind)) := by
  have hreachable := h.engine hinst
  have hwired : patch.Wired := h.every_open Patch.lasting_wired hinst slot patch hpatch
  let relay : Relay := ⟨kind, ⟨slot, input⟩, ⟨slot, output⟩⟩
  have howed := relay.owed_commands commands
  have hspares : ∀ task ∈ commands.map Command.task, relay.Spares task := by
    intro task htask
    obtain ⟨command, hcommand, rfl⟩ := List.mem_map.mp htask
    cases command with
    | send tie message => trivial
    | midi event => exact hexact event (List.mem_filterMap.mpr ⟨_, hcommand, rfl⟩)
  have hleave : ∀ task ∈ commands.map Command.task, task.isLeave = false := by
    simp [Instance.isLeave_task]
  constructor
  · rw [← howed]
    have hcompletes := Instance.carryOutAll_completes hreachable commands
    exact hcompletes.repeats hreachable hpatch hwired hechoes hspares hleave
      (Instance.outline_carryOutAll hreachable commands)
  · intro size inputs outputs blocks hperform
    obtain ⟨format, hprepared, -, -⟩ := Instance.exists_admits_of_perform hperform
    have hbang : relay.Spares (.bang inst.engine.chain.ticks) := by
      rw [hreachable.inStep.ticks_eq hprepared]
      exact (hechoes.relays hpatch hwired).not_mem_ticks
    have hdone := (Instance.perform_completes hreachable hperform).repeats hreachable hpatch hwired
      hechoes (List.forall_mem_append.mpr ⟨hspares, by simpa using hbang⟩)
      (List.forall_mem_append.mpr ⟨hleave, by simp [Task.isLeave]⟩)
      (Instance.outline_perform hreachable commands size inputs outputs)
    rw [List.flatMap_append] at hdone
    rw [← howed]
    simpa using hdone

/-- A session with a joined pair of one family, wired in no particular order, and half a pair of
another. -/
def controlThrough : List HostAction :=
  [.create none,
    .setFiles
      { entries := [(["thru.pd"], .file (.text
          ("#N canvas 0 0 9 9 10;\n#X obj 0 0 ctlout 7 3;\n#X obj 0 0 ctlin;\n" ++
            "#X obj 0 0 notein;\n#X obj 0 0 noteout;\n#X connect 1 1 0 1;\n" ++
            "#X connect 2 0 3 0;\n#X connect 1 0 0 0;\n#X connect 1 2 0 2;\n")))] },
    .request 0 (.setMidi (some (.raw 0))),
    .request 0 (.load "/thru.pd" ""),
    .request 0 (.prepare {})]

/-- Two events of the family of the pair, with one of another family between them. -/
def controlsAndNote : List Command :=
  [.midi (.controlChange 3 7 100), .midi (.noteOn 0 60 64), .midi (.controlChange 16 8 (-33554436))]

/-- The output repeats the two events of its family, whether they come directly or with a block.
What the other output makes of the note is no concern of it. -/
theorem midi_echoes_controlThrough :
    ∃ rack : Rack, ∃ inst patch blocks, rack.Reachable ∧ rack.instance? 0 = some inst ∧
      inst.engine.slots.patchAt 0 = some patch ∧ patch.Echoes .control 1 0 ∧
      (∀ event ∈ Command.events controlsAndNote, event.kind = .control → event.Exact) ∧
      (inst.carryOutAll controlsAndNote).2 =
        [.midi 0 (.controlChange 3 7 100), .midi 0 (.noteOn 0 60 0),
          .midi 0 (.controlChange 16 8 (-33554436))] ∧
      inst.Repeats 0 .control 1 0 (controlsAndNote.map Command.task)
        (inst.carryOutAll controlsAndNote)
        [.controlChange 3 7 100, .controlChange 16 8 (-33554436)] ∧
      (inst.perform controlsAndNote 64 silentStereo silentStereo).result = .ok blocks ∧
      inst.Repeats 0 .control 1 0
        (controlsAndNote.map Command.task ++ [.bang inst.engine.chain.ticks])
        ((inst.perform controlsAndNote 64 silentStereo silentStereo).state,
          (inst.perform controlsAndNote 64 silentStereo silentStereo).calls)
        [.controlChange 3 7 100, .controlChange 16 8 (-33554436)] := by
  have hsession : (({} : Rack).session controlThrough).any (fun rack =>
      (rack.instance? 0).any fun inst => decide
        ((inst.engine.slots.patchAt 0).any (fun patch => decide
            (patch.node? 1 = some (.midiIn .control) ∧
              patch.node? 0 = some (.midiOut .control 7 3) ∧
              patch.connections =
                [⟨1, 1, 0, 1⟩, ⟨2, 0, 3, 0⟩, ⟨1, 0, 0, 0⟩, ⟨1, 2, 0, 2⟩])) = true ∧
          (inst.carryOutAll controlsAndNote).2 =
            [.midi 0 (.controlChange 3 7 100), .midi 0 (.noteOn 0 60 0),
              .midi 0 (.controlChange 16 8 (-33554436))] ∧
          (inst.perform controlsAndNote 64 silentStereo silentStereo).result.toOption.isSome =
            true)) = true := by
    rw [Rack.session_of_load controlThrough 3 ["thru.pd"] rfl rfl rfl
      (append_eq_ofList (append_eq_ofList rfl rfl) rfl) (by decide), readPatch,
      readRecords_ofList]
    decide +kernel
  obtain ⟨rack, inst, hrack, hinst, hseen, hcalls, hran⟩ := Rack.exists_of_session hsession
  obtain ⟨patch, hpatch, hparts⟩ := (Option.any_eq_true _ _).mp hseen
  obtain ⟨hears, hspeaks, hconnections⟩ := of_decide_eq_true hparts
  have hechoes : patch.Echoes .control 1 0 := by
    refine ⟨hears, ⟨7, 3, hspeaks⟩, ?_⟩
    rw [hconnections]
    decide
  have hexact : ∀ event ∈ Command.events controlsAndNote, event.kind = .control → event.Exact := by
    have hfirst : (MidiEvent.controlChange 3 7 100).Exact := by
      simp only [MidiEvent.Exact, MidiEvent.fields, List.forall_mem_cons]
      exact ⟨Number.isSingle_of_lt (by decide), Number.isSingle_of_lt (by decide),
        Number.isSingle_of_lt (by decide), by simp⟩
    have hlast : (MidiEvent.controlChange 16 8 (-33554436)).Exact := by
      simp only [MidiEvent.Exact, MidiEvent.fields, List.forall_mem_cons]
      exact ⟨Number.isSingle_of_lt (by decide), Number.isSingle_of_lt (by decide),
        ⟨8388609, 2, by decide, by decide⟩, by simp⟩
    intro event hevent hkind
    obtain rfl | rfl | rfl : event = .controlChange 3 7 100 ∨ event = .noteOn 0 60 64 ∨
        event = .controlChange 16 8 (-33554436) := by
      simpa [Command.events, Command.event?, controlsAndNote] using hevent
    · exact hfirst
    · cases hkind
    · exact hlast
  obtain ⟨hdirectly, hqueued⟩ := hrack.midi_echoes hinst hpatch hechoes hexact
  cases hresult : (inst.perform controlsAndNote 64 silentStereo silentStereo).result with
  | error failure =>
    rw [hresult] at hran
    cases hran
  | ok blocks =>
    exact ⟨rack, inst, patch, blocks, hrack, hinst, hpatch, hechoes, hexact, hcalls, hdirectly,
      hresult, hqueued 64 _ _ blocks hresult⟩

end Patchbay
