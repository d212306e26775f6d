import Mathlib.Data.List.Basic
import Patchbay.Proofs.OpenPatches

/-!
# Who speaks to the MIDI sink

A MIDI event comes to the host when it is taken off the stack, and the frame that it is taken
from belongs to the object that made it. So every call of the MIDI sink can be put down to an
object, step by step.

## Implementation notes

A stack frame is followed from the dispatch below it. What has been carried out of the frame
lies on top of that dispatch, and what is left of the frame on top of that.
-/

namespace Patchbay

/-- The MIDI event that an effect brings to the host. -/
def Effect.midi? : Effect → Option MidiEvent
  | .midi event => some event
  | _ => none

/-- Whether a call is one of the MIDI sink. -/
def Call.isMidi : Call → Bool
  | .midi .. | .kindMidi .. => true
  | _ => false

/-- The events among those spoken that the object at a place has spoken. -/
def NodeRef.eventsIn (place : NodeRef) (said : List (NodeRef × MidiEvent)) : List MidiEvent :=
  (said.filter fun entry => entry.1 == place).map Prod.snd

theorem NodeRef.eventsIn_append (place : NodeRef) (first second : List (NodeRef × MidiEvent)) :
    place.eventsIn (first ++ second) = place.eventsIn first ++ place.eventsIn second := by
  simp only [eventsIn, List.filter_append, List.map_append]

/-- An object answers messages one after the other, each with nothing but MIDI events. -/
inductive Node.Speaks : Node → List (Nat × Message) → List MidiEvent → Node → Prop
  | nil (node : Node) : Speaks node [] [] node
  | cons {node middle after : Node} {inlet : Nat} {message : Message}
      {burst : List (Nat × Message)} {events more : List MidiEvent} :
      node.answer inlet message = (middle, events.map .midi) →
      Speaks middle burst more after →
      Speaks node ((inlet, message) :: burst) (events ++ more) after

theorem Slots.targets_setNode (slots : Slots) (place : NodeRef) (node : Node)
    (source : NodeRef) (outlet : Nat) :
    (slots.setNode place node).targets source outlet = slots.targets source outlet := by
  simp only [targets, patchAt_setNode]
  by_cases hslot : source.slot = place.slot
  · rw [if_pos hslot]
    cases slots.patchAt source.slot <;> rfl
  · rw [if_neg hslot]

namespace Work
variable {listeners : Listeners}

/-- The event that the next step brings to the MIDI sink, with the object that speaks. -/
def spoken? : Work → Option (NodeRef × MidiEvent)
  | ⟨dispatch, .flush source _ position :: _⟩ =>
    match dispatch.stack[position]? with
    | some (.midi event) => some (source, event)
    | _ => none
  | _ => none

/-- The events that have come to the MIDI sink. -/
def heard (work : Work) : List MidiEvent :=
  work.dispatch.effects.toList.filterMap Effect.midi?

theorem heard_perform (dispatch : Dispatch) (effect : Effect) (tasks : List Task) :
    heard ⟨dispatch.perform effect, tasks⟩ = heard ⟨dispatch, tasks⟩ ++ effect.midi?.toList := by
  simp only [heard, Dispatch.perform, Array.toList_push]
  exact filterMap_snoc _ _ _

/-- A step brings the event that is spoken to the MIDI sink, and no other. -/
theorem step_heard (listeners : Listeners) (work : Work) :
    (step listeners work).heard = work.heard ++ (work.spoken?.map Prod.snd).toList := by
  have hquiet (after : Work) (hheard : after.heard = work.heard) :
      after.heard = work.heard ++ (none : Option MidiEvent).toList :=
    hheard.trans (List.append_nil _).symm
  obtain ⟨dispatch, tasks⟩ := work
  cases tasks with
  | nil => exact hquiet _ rfl
  | cons task rest =>
    cases task with
    | serve places tie message =>
      cases places with
      | nil => exact heard_perform dispatch _ rest
      | cons place places => exact hquiet _ rfl
    | offer places event =>
      cases places with
      | nil => exact hquiet _ rfl
      | cons place places =>
        simp only [step]
        split <;> exact hquiet _ rfl
    | bang places => cases places <;> exact hquiet _ rfl
    | spread slot targets message => cases targets <;> exact hquiet _ rfl
    | deliver target inlet message =>
      simp only [step]
      split
      · exact heard_perform dispatch _ rest
      · refine hquiet _ ?_
        rw [heard, effects_answer]
        rfl
    | flush source height position =>
      simp only [step, spoken?]
      cases dispatch.stack[position]? with
      | none => exact hquiet _ rfl
      | some emission =>
        cases emission with
        | post level text => exact heard_perform _ _ _
        | midi event => exact heard_perform _ _ _
        | _ => exact hquiet _ rfl
    | _ => exact hquiet _ rfl

/-- However far the work has come, the MIDI sink has heard what was spoken on the way. -/
theorem heard_iterate (listeners : Listeners) (count : Nat) (work : Work) :
    ((step listeners)^[count] work).heard =
      work.heard ++ (collect listeners spoken? count work).map Prod.snd := by
  induction count generalizing work with
  | zero => exact (List.append_nil _).symm
  | succ count ih =>
    rw [Function.iterate_succ_apply, ih, step_heard, collect, List.map_append, List.append_assoc]
    cases work.spoken? <;> rfl

/-! ## Marked runs -/

section
variable {α : Type} {mark : Work → Option α} {first second third : Work} {marks more : List α}

theorem collect_add (listeners : Listeners) (mark : Work → Option α) (count further : Nat)
    (work : Work) :
    collect listeners mark (count + further) work =
      collect listeners mark count work ++
        collect listeners mark further ((step listeners)^[count] work) := by
  induction count generalizing work with
  | zero => simp [collect]
  | succ count ih =>
    rw [Nat.add_right_comm, collect, collect, ih, List.append_assoc, Function.iterate_succ_apply]

theorem collect_nil (listeners : Listeners) (count : Nat) (dispatch : Dispatch)
    (hmark : mark ⟨dispatch, []⟩ = none) : collect listeners mark count ⟨dispatch, []⟩ = [] := by
  induction count with
  | zero => rfl
  | succ count ih =>
    rw [collect, hmark, show step listeners ⟨dispatch, []⟩ = ⟨dispatch, []⟩ from rfl, ih]
    rfl

/-- Some number of steps lead from one state of the work to another, marked like this. -/
def Marks (listeners : Listeners) (mark : Work → Option α) (first : Work) (marks : List α)
    (second : Work) : Prop :=
  ∃ count, (step listeners)^[count] first = second ∧ collect listeners mark count first = marks

theorem Marks.refl (work : Work) : Marks listeners mark work [] work := ⟨0, rfl, rfl⟩

theorem Marks.trans (h : Marks listeners mark first marks second)
    (h' : Marks listeners mark second more third) :
    Marks listeners mark first (marks ++ more) third := by
  obtain ⟨count, rfl, rfl⟩ := h
  obtain ⟨further, rfl, rfl⟩ := h'
  refine ⟨count + further, ?_, collect_add listeners mark count further first⟩
  rw [Nat.add_comm, Function.iterate_add_apply]

/-- A step without a mark, and all that follows from it. -/
theorem Marks.after (hmark : mark first = none)
    (h : Marks listeners mark (step listeners first) marks second) :
    Marks listeners mark first marks second := by
  obtain ⟨count, hcount, hmarks⟩ := h
  refine ⟨count + 1, hcount, ?_⟩
  rw [collect, hmark, hmarks]
  rfl

end

/-! ## A stack frame -/

section
variable {dispatch : Dispatch} {source : NodeRef} {height : Nat} {rest : List Task}

/-- A dispatch with one more entry on its stack that has been carried out. -/
def spend (dispatch : Dispatch) : Dispatch :=
  { dispatch with stack := dispatch.stack.push .done }

/-- The lowest entry that is left of a frame is begun. -/
theorem step_flush_cons (listeners : Listeners) (dispatch : Dispatch) (source : NodeRef)
    (height : Nat) (rest : List Task) (emission : Emission) (emissions : List Emission) :
    step listeners ⟨dispatch.push (emission :: emissions),
        .flush source height dispatch.stack.size :: rest⟩ =
      begin ((spend dispatch).push emissions) source
        (.flush source height (spend dispatch).stack.size :: rest) emission := by
  have hentry : (dispatch.push (emission :: emissions)).stack[dispatch.stack.size]? =
      some emission := by
    simp [Dispatch.push]
  have hstack : (dispatch.push (emission :: emissions)).stack.setIfInBounds dispatch.stack.size
      .done = ((spend dispatch).push emissions).stack := by
    apply Array.toList_inj.mp
    simp [Dispatch.push, spend]
  simp only [step, hentry]
  rw [hstack]
  simp [spend, Dispatch.push]

theorem step_flush_nil (listeners : Listeners) (dispatch : Dispatch) (source : NodeRef)
    (height : Nat) (rest : List Task) :
    step listeners ⟨dispatch, .flush source height dispatch.stack.size :: rest⟩ =
      ⟨{ dispatch with stack := dispatch.stack.take height }, rest⟩ := by
  have hend : dispatch.stack[dispatch.stack.size]? = none := by simp
  simp only [step, hend]

theorem take_spend (dispatch : Dispatch) (hheight : height ≤ dispatch.stack.size) :
    (spend dispatch).stack.take height = dispatch.stack.take height := by
  apply Array.toList_inj.mp
  simp [spend, hheight]

theorem push_nil (dispatch : Dispatch) : dispatch.push [] = dispatch := by
  simp [Dispatch.push]

/-- A frame of MIDI events is spoken by the object that it belongs to. -/
theorem marks_flush_midi (listeners : Listeners) (events : List MidiEvent)
    (dispatch : Dispatch) (source : NodeRef) (hheight : height ≤ dispatch.stack.size)
    (rest : List Task) :
    ∃ effects, Marks listeners spoken?
      ⟨dispatch.push (events.map .midi), .flush source height dispatch.stack.size :: rest⟩
      (events.map fun event => (source, event))
      ⟨{ dispatch with stack := dispatch.stack.take height, effects }, rest⟩ := by
  induction events generalizing dispatch with
  | nil =>
    refine ⟨dispatch.effects, 1, ?_, ?_⟩
    · rw [List.map_nil, push_nil]
      exact step_flush_nil listeners dispatch source height rest
    · simp [collect, spoken?, push_nil]
  | cons event events ih =>
    let spoken := (spend dispatch).perform (.midi event)
    obtain ⟨effects, hrest⟩ := ih spoken (Nat.le_trans hheight (by simp [spoken, spend,
      Dispatch.perform]))
    have hstep := step_flush_cons listeners dispatch source height rest
      (.midi event) (events.map .midi)
    have hmark : spoken? ⟨dispatch.push (.midi event :: events.map .midi),
        .flush source height dispatch.stack.size :: rest⟩ = some (source, event) := by
      simp [spoken?, Dispatch.push]
    have hfirst : Marks listeners spoken?
        ⟨dispatch.push (.midi event :: events.map .midi),
          .flush source height dispatch.stack.size :: rest⟩ [(source, event)]
        ⟨spoken.push (events.map .midi), .flush source height spoken.stack.size :: rest⟩ := by
      refine ⟨1, hstep, ?_⟩
      simp [collect, hmark]
    refine ⟨effects, ?_⟩
    have hdone := hfirst.trans hrest
    rw [show spoken.stack.take height = _ from take_spend dispatch hheight] at hdone
    exact hdone

/-- What follows from a delivery that is answered with MIDI events alone. -/
theorem marks_deliver_midi (listeners : Listeners) (dispatch : Dispatch) {target : NodeRef}
    {inlet : Nat} {message : Message} {node after : Node} {events : List MidiEvent}
    (hnode : dispatch.slots.node? target = some node)
    (hanswer : node.answer inlet message = (after, events.map .midi))
    (hspare : dispatch.depth < maxDepth) (rest : List Task) :
    ∃ effects, Marks listeners spoken?
      (step listeners ⟨dispatch, .deliver target inlet message :: rest⟩)
      (events.map fun event => (target, event))
      ⟨{ dispatch with slots := dispatch.slots.setNode target after, effects }, rest⟩ := by
  let entered : Dispatch :=
    { dispatch with
      slots := dispatch.slots.setNode target after, depth := dispatch.depth + 1 }
  have hentered :
      Dispatch.answer { dispatch with depth := dispatch.depth + 1 } target inlet message =
        entered.push (events.map .midi) := by
    simp only [Dispatch.answer, hnode, hanswer]
    rfl
  have hstep : step listeners ⟨dispatch, .deliver target inlet message :: rest⟩ =
      ⟨entered.push (events.map .midi),
        .flush target dispatch.stack.size entered.stack.size :: .leave :: rest⟩ := by
    simp only [step, if_neg (Nat.not_le_of_lt hspare), hentered]
    rfl
  obtain ⟨effects, hflushed⟩ := marks_flush_midi listeners events entered target (Nat.le_refl _)
    (.leave :: rest)
  have hleft : Marks listeners spoken?
      ⟨{ entered with stack := entered.stack.take entered.stack.size, effects }, .leave :: rest⟩
      [] ⟨{ dispatch with slots := dispatch.slots.setNode target after, effects }, rest⟩ :=
    ⟨1, by simp [step, entered], rfl⟩
  have hdone := hflushed.trans hleft
  rw [List.append_nil] at hdone
  refine ⟨effects, ?_⟩
  rw [hstep]
  exact hdone

/-- The lowest message that is left of a frame goes to its only target, which speaks. -/
theorem marks_flush_outlet (listeners : Listeners) {target : NodeRef}
    (hslot : target.slot = source.slot) (dispatch : Dispatch) {node middle : Node}
    {outlet inlet : Nat} {message : Message} {events : List MidiEvent}
    (hnode : dispatch.slots.node? target = some node)
    (htargets : dispatch.slots.targets source outlet = [(target.object, inlet)])
    (hanswer : node.answer inlet message = (middle, events.map .midi))
    (hspare : dispatch.depth < maxDepth) (others : List Emission) (rest : List Task) :
    ∃ effects,
      let answered : Dispatch :=
        { spend dispatch with slots := dispatch.slots.setNode target middle, effects }
      Marks listeners spoken?
        ⟨dispatch.push (.outlet outlet message :: others),
          .flush source height dispatch.stack.size :: rest⟩
        (events.map fun event => (target, event))
        ⟨answered.push others, .flush source height answered.stack.size :: rest⟩ := by
  let begun : Dispatch := (spend dispatch).push others
  let left : List Task := .flush source height (spend dispatch).stack.size :: rest
  have htarget : (⟨source.slot, target.object⟩ : NodeRef) = target := by rw [← hslot]
  have hbegin : begin begun source left (.outlet outlet message) =
      ⟨begun, .spread source.slot [(target.object, inlet)] message :: left⟩ := by
    rw [← htargets]
    rfl
  have hstep : step listeners ⟨dispatch.push (.outlet outlet message :: others),
      .flush source height dispatch.stack.size :: rest⟩ =
        ⟨begun, .spread source.slot [(target.object, inlet)] message :: left⟩ :=
    (step_flush_cons listeners dispatch source height rest _ others).trans hbegin
  obtain ⟨effects, hdelivered⟩ := marks_deliver_midi listeners begun hnode hanswer hspare
    (.spread source.slot [] message :: left)
  -- The message is spread over one target, and nothing of the spread is left then.
  have hspread : Marks listeners spoken?
      ⟨begun, .spread source.slot [(target.object, inlet)] message :: left⟩
      (events.map fun event => (target, event))
      ⟨{ begun with slots := begun.slots.setNode target middle, effects }, left⟩ := by
    have hdone := (hdelivered.after rfl).trans ((Marks.refl _).after rfl)
    rw [List.append_nil] at hdone
    apply Marks.after rfl
    simpa only [step, htarget] using hdone
  refine ⟨effects, Marks.after ?_ ?_⟩
  · simp [spoken?, Dispatch.push]
  · rw [hstep]
    exact hspread

/-- A frame whose every message has one target, the same object for all of them. It answers
them one after the other, and speaks. -/
theorem marks_flush_relayed (listeners : Listeners) {target : NodeRef}
    (hslot : target.slot = source.slot) {node after : Node} {burst : List (Nat × Message)}
    {events : List MidiEvent} (hspeaks : node.Speaks burst events after) (dispatch : Dispatch)
    (hnode : dispatch.slots.node? target = some node)
    (htargets : ∀ outlet ∈ burst.map Prod.fst,
      dispatch.slots.targets source outlet = [(target.object, outlet)])
    (hspare : dispatch.depth < maxDepth) (rest : List Task) :
    ∃ final, Marks listeners spoken?
      ⟨dispatch.push (burst.map fun part => .outlet part.1 part.2),
        .flush source height dispatch.stack.size :: rest⟩
      (events.map fun event => (target, event)) ⟨final, rest⟩ := by
  induction hspeaks generalizing dispatch with
  | nil node =>
    refine ⟨{ dispatch with stack := dispatch.stack.take height }, 1, ?_, ?_⟩
    · rw [List.map_nil, push_nil]
      exact step_flush_nil listeners dispatch source height rest
    · simp [collect, spoken?, push_nil]
  | @cons node middle after inlet message burst events more hanswer _ ih =>
    let others : List Emission := burst.map fun part => .outlet part.1 part.2
    obtain ⟨effects, hone⟩ := marks_flush_outlet listeners hslot dispatch hnode
      (htargets inlet (List.mem_cons_self ..)) hanswer hspare others rest
    let answered : Dispatch :=
      { spend dispatch with slots := dispatch.slots.setNode target middle, effects }
    have hkept (outlet : Nat) : answered.slots.targets source outlet =
        dispatch.slots.targets source outlet := Slots.targets_setNode _ _ _ _ _
    obtain ⟨final, hfinal⟩ := ih answered
      (by simp [answered, Slots.node?_setNode, hnode])
      (fun outlet houtlet => (hkept outlet).trans
        (htargets outlet (List.mem_cons_of_mem _ houtlet))) hspare
    rw [List.map_append]
    exact ⟨final, hone.trans hfinal⟩

end

end Work

/-! ## The calls of the MIDI sink -/

theorem Hooks.isMidi_of_mem_post {hooks : Hooks} {id : Nat} {level : ConsoleLevel}
    {text : String} {call : Call} (h : call ∈ hooks.post id level text) :
    call.isMidi = false := by
  obtain ⟨sink, hsink⟩ | ⟨line, rfl⟩ := exists_of_mem_post h
  · obtain ⟨tag, rfl | rfl⟩ | ⟨history, rfl⟩ := ConsoleSink.exists_of_mem_receive hsink <;> rfl
  · rfl

theorem MidiSink.isMidi_of_mem_receive {sink : MidiSink} {event : MidiEvent} {call : Call}
    (h : call ∈ sink.receive event) : call.isMidi = true := by
  obtain ⟨tag, rfl | rfl⟩ := exists_of_mem_receive h <;> rfl

theorem MessageSink.isMidi_of_mem_receive {sink : MessageSink} {tie : Tie} {message : Message}
    {call : Call} (h : call ∈ sink.receive tie message) : call.isMidi = false := by
  obtain ⟨label, rfl | rfl⟩ := exists_of_mem_receive h <;> rfl

/-- The calls of the MIDI sink for an event, if there is a sink. -/
def Hooks.midiCalls (hooks : Hooks) (event : MidiEvent) : List Call :=
  hooks.midi.toList.flatMap fun sink => sink.receive event

/-- The MIDI sink is called for MIDI effects alone. -/
theorem Hooks.filter_isMidi_calls (hooks : Hooks) (id : Nat) (effect : Effect) :
    (hooks.calls id effect).filter Call.isMidi =
      effect.midi?.toList.flatMap hooks.midiCalls := by
  cases effect with
  | post level text =>
    exact List.filter_eq_nil_iff.mpr fun call hcall => by simp [isMidi_of_mem_post hcall]
  | midi event =>
    have hcalls : hooks.calls id (.midi event) = hooks.midiCalls event := by
      cases hmidi : hooks.midi <;> simp [calls, midiCalls, hmidi]
    rw [hcalls, show (Effect.midi event).midi?.toList = [event] from rfl,
      List.flatMap_singleton]
    refine List.filter_eq_self.mpr fun call hcall => ?_
    obtain ⟨sink, -, hreceived⟩ := List.mem_flatMap.mp hcall
    exact MidiSink.isMidi_of_mem_receive hreceived
  | message tie message =>
    refine List.filter_eq_nil_iff.mpr fun call hcall => ?_
    obtain ⟨sink, -, hreceived⟩ := List.mem_flatMap.mp hcall
    simp [MessageSink.isMidi_of_mem_receive hreceived]
  | log level text => rfl

theorem Hooks.filter_isMidi_run (hooks : Hooks) (id : Nat) (effects : List Effect) :
    (hooks.run id effects).filter Call.isMidi =
      (effects.filterMap Effect.midi?).flatMap hooks.midiCalls := by
  induction effects with
  | nil => rfl
  | cons effect rest ih =>
    have hrun : hooks.run id (effect :: rest) = hooks.calls id effect ++ hooks.run id rest := rfl
    rw [hrun, List.filter_append, ih, filter_isMidi_calls]
    cases hmidi : effect.midi? <;> simp [hmidi]

namespace Instance

/-- The events that an operation brings to the MIDI sink, each with the object that speaks. -/
structure Voices (inst : Instance) (tasks : List Task) (done : Instance × List Call)
    (said : List (NodeRef × MidiEvent)) : Prop where
  /-- They are spoken step by step, until no task is left. -/
  spoken : ∃ count final,
    (Work.step inst.engine.listeners)^[count] ⟨inst.engine.start, tasks⟩ = ⟨final, []⟩ ∧
      final.slots = done.1.engine.slots ∧
      Work.collect inst.engine.listeners Work.spoken? count ⟨inst.engine.start, tasks⟩ = said
  /-- The calls of the MIDI sink are those for the events spoken. -/
  calls_eq : done.2.filter Call.isMidi =
    (said.map Prod.snd).flatMap inst.hooks.midiCalls

theorem Completes.exists_voices {inst : Instance} {tasks : List Task} {done : Instance × List Call}
    (h : inst.Completes tasks done) : ∃ said, inst.Voices tasks done said := by
  obtain ⟨effects, ⟨count, hcount⟩, hcalls⟩ := h.ends
  refine ⟨_, ⟨count, _, hcount, rfl, rfl⟩, ?_⟩
  have hheard :=
    Work.heard_iterate inst.engine.listeners count ⟨inst.engine.start, tasks⟩
  rw [hcount] at hheard
  have heffects : effects.filterMap Effect.midi? =
      (Work.collect inst.engine.listeners Work.spoken? count
        ⟨inst.engine.start, tasks⟩).map Prod.snd := hheard
  rw [← hcalls, Hooks.filter_isMidi_run, heffects]

end Instance

end Patchbay
