import Patchbay.Proofs.Bindings
import Patchbay.Proofs.CheckedChains
import Patchbay.Proofs.CheckedTexts
import Patchbay.Proofs.OpenPatches

/-!
# Loading and control without fault

No session comes upon a fault while a patch is loaded or a message is on its way. A patch is
read from its text and put into a slot, a chain is built from all slots, and from then on the
objects of the patch answer messages. The ends of the ranges of GUI objects are numbers when
their patch has been read, since no word of a text stands for a NaN, and no answer changes
them. This is why they can be clamped to, whatever numbers are sent.

## Implementation notes

Work that actions set off is checked step by step, as the unchecked steps take it. Positions in
the stack of the dispatcher are looked up there and never computed from the content of a message.
-/

namespace Patchbay

namespace Checked

/-! ## Steps of the dispatcher -/

/-- Let an object answer a message. -/
def answerAt (dispatch : Dispatch) (target : NodeRef) (inlet : Nat) (message : Message) :
    Option Dispatch :=
  match dispatch.slots.node? target with
  | some node => do
    let (node, emissions) ← answer node inlet message
    some ({ dispatch with slots := dispatch.slots.setNode target node }.push emissions)
  | none => some dispatch

/-- One step. Objects answer, and the nesting is counted up and down. -/
def step (listeners : Listeners) : Work → Option Work
  | ⟨dispatch, .offer (place :: places) event :: rest⟩ =>
    match dispatch.slots.node? place with
    | some node => do
      let emissions ← answerMidi node event
      some (Work.raise dispatch place emissions (.offer places event :: rest))
    | none => some ⟨dispatch, .offer places event :: rest⟩
  | ⟨dispatch, .deliver target inlet message :: rest⟩ =>
    if maxDepth ≤ dispatch.depth then
      some ⟨dispatch.perform (.post .error "stack overflow"), rest⟩
    else do
      let depth ← add dispatch.depth 1
      let answered ← answerAt { dispatch with depth } target inlet message
      some ⟨answered, .flush target dispatch.stack.size dispatch.stack.size :: .leave :: rest⟩
  | ⟨dispatch, .leave :: rest⟩ => do
    let depth ← sub dispatch.depth 1
    some ⟨{ dispatch with depth }, rest⟩
  | work => some (Work.step listeners work)

/-- A number of steps. -/
def run (listeners : Listeners) : (count : Nat) → Work → Option Work
  | 0, work => some work
  | count + 1, work => (step listeners work).bind (run listeners count)

/-! ## Slots -/

/-- Put a patch into the lowest free slot, which is added if there is none. -/
def insert (slots : Slots) (patch : Patch) : Option (Slots × PatchId) := do
  let (slots, index) ←
    match slots.findIdx? fun slot => slot.patch.isNone with
    | some index => some (slots, index)
    | none => do
      let slots : Slots := slots ++ [{}]
      let index ← sub slots.length 1
      some (slots, index)
  let slot ← slots[index]?
  let generation := slot.generation + 1
  let slots ← set slots index { generation, patch := some patch }
  some (slots, { slot := index, generation })

/-! ## No step makes a fault -/

section
variable {listeners : Listeners} {work : Work}

theorem answerAt_eq_some (dispatch : Dispatch) {target : NodeRef}
    (h : ∀ node, dispatch.slots.node? target = some node → node.Bounded) (inlet : Nat)
    (message : Message) :
    answerAt dispatch target inlet message = some (dispatch.answer target inlet message) := by
  unfold answerAt Dispatch.answer
  cases hnode : dispatch.slots.node? target with
  | none => rfl
  | some node =>
    simp only [answer_eq_some (h node hnode)]
    rfl

/-- With ranges between numbers and a nesting that is counted right, a step goes through. -/
theorem step_eq_some
    (hbounded : ∀ place node, work.dispatch.slots.node? place = some node → node.Bounded)
    (hbalanced : work.Balanced) : step listeners work = some (Work.step listeners work) := by
  obtain ⟨dispatch, tasks⟩ := work
  cases tasks with
  | nil => rfl
  | cons task rest =>
    cases task with
    | offer places event =>
      cases places with
      | nil => rfl
      | cons place places =>
        simp only [step, Work.step, answerMidi_eq_some]
        cases dispatch.slots.node? place <;> rfl
    | deliver target inlet message =>
      simp only [step, Work.step]
      split
      · rfl
      · rename_i hspare
        have hdepth : dispatch.depth + 1 < sizeBound :=
          Nat.lt_of_le_of_lt (Nat.not_le.mp hspare) (by decide)
        have hanswer := answerAt_eq_some { dispatch with depth := dispatch.depth + 1 }
          (hbounded target) inlet message
        simp only [add_eq_some hdepth, hanswer, Option.bind_eq_bind, Option.bind_some]
    | leave =>
      have hnested : dispatch.depth = Work.nested ⟨dispatch, .leave :: rest⟩ :=
        hbalanced.depth_eq
      rw [Work.nested_leave] at hnested
      have hdepth : 1 ≤ dispatch.depth := by omega
      simp only [step, Work.step, sub_eq_some hdepth]
      rfl
    | _ => rfl

end

/-! ## No slot makes a fault -/

/-- There is a slot that is free, or one is added. -/
theorem insert_eq_some (slots : Slots) (patch : Patch) :
    insert slots patch = some (slots.insert patch) := by
  unfold insert
  cases hfound : slots.findIdx? fun slot => slot.patch.isNone with
  | some index =>
    have hfree : slots.freeSlot = index := by rw [Slots.freeSlot, hfound, Option.getD_some]
    have hlt : index < slots.length := (List.findIdx?_eq_some_iff_getElem.mp hfound).1
    simp [Slots.insert, hfree, hlt, set]
  | none =>
    have hfree : slots.freeSlot = slots.length := by rw [Slots.freeSlot, hfound, Option.getD_none]
    simp [Slots.insert, hfree, sub, set]

end Checked

/-! ## Patches -/

/-- All GUI objects of a patch have their ranges between numbers. -/
def Patch.Bounded (patch : Patch) : Prop :=
  ∀ object node, patch.node? object = some node → node.Bounded

theorem Slots.Every.bounded {slots : Slots} (h : slots.Every Patch.Bounded) {place : NodeRef}
    {node : Node} (hnode : slots.node? place = some node) : node.Bounded := by
  obtain ⟨patch, hpatch, hobject⟩ := Option.bind_eq_some_iff.mp hnode
  exact h place.slot patch hpatch place.object node hobject

theorem Patch.lasting_bounded : Patch.Lasting Patch.Bounded where
  read := by
    intro name path text dollarZero patch diagnostics hread object node hnode gui hgui
    rw [hgui] at hnode
    obtain ⟨words, x, y, cellWidth, hcreated⟩ := exists_create_of_readPatch hread hnode
    rw [hcreated]
    exact Gui.bounded_create gui.kind words dollarZero x y cellWidth
  answer := by
    intro patch hbounded object node hnode inlet message other found hfound
    have hnode' := hnode
    simp only [node?, setNode, List.getElem?_modify] at hfound hnode
    by_cases hother : object = other
    · subst hother
      obtain ⟨box, hbox, -⟩ := Option.map_eq_some_iff.mp hnode
      simp only [hbox, if_true] at hfound
      have hanswer : (node.answer inlet message).1 = found := Option.some.inj hfound
      rw [← hanswer]
      exact (hbounded object node hnode').answer inlet message
    · apply hbounded other
      simpa [node?, hother] using hfound

/-! ## In every session -/

/-- A number of steps goes through from a balanced start with bounded patches. -/
theorem Checked.run_eq_some (listeners : Listeners) (count : Nat) {work : Work}
    (hbounded : work.dispatch.slots.Every Patch.Bounded) (hbalanced : work.Balanced) :
    Checked.run listeners count work = some ((Work.step listeners)^[count] work) := by
  induction count generalizing work with
  | zero => rfl
  | succ count ih =>
    rw [run, step_eq_some (fun _ _ => hbounded.bounded) hbalanced, Option.bind_some,
      Function.iterate_succ_apply]
    exact ih (Work.step_every Patch.lasting_bounded listeners hbounded)
      (Work.step_balanced listeners hbalanced)

/-- Work begins in balance, with bounded patches. -/
theorem Rack.Starts.sound {rack : Rack} (h : rack.Reachable) {position : Nat} {inst : Instance}
    (hinst : rack.instance? position = some inst) {action : HostAction}
    {result : Except Failure Reply} {start : Instance} {tasks : List Task}
    (hstarts : rack.Starts position inst action result start tasks) :
    start.engine.slots.Every Patch.Bounded ∧ Work.Balanced ⟨start.engine.start, tasks⟩ := by
  have hreachable := h.engine hinst
  have hevery := h.every_open Patch.lasting_bounded hinst
  cases hstarts with
  | send => exact ⟨hevery, Instance.balanced_start hreachable.settled (by simp [Task.isLeave])⟩
  | midi => exact ⟨hevery, Instance.balanced_start hreachable.settled (by simp [Task.isLeave])⟩
  | @load name directory id patch hread =>
    refine ⟨?_, Instance.balanced_start (hreachable.openPatch patch).settled
      (by simp [Task.isLeave])⟩
    obtain ⟨name, path, text, dollarZero, diagnostics, hpatch⟩ :=
      Environment.exists_read_of_patchNamed? hread
    rw [Instance.opened, Engine.slots_rebuildChain]
    exact hevery.insert (Patch.lasting_bounded.read hpatch)
  | perform =>
    exact ⟨hevery, Instance.balanced_start hreachable.settled
      (forall_mem_blockTasks Instance.isLeave_task (fun _ => rfl) _ _)⟩

/-- Control of an instance makes no fault. -/
structure Rack.Faultless (rack : Rack) (position : Nat) (inst : Instance) : Prop where
  /-- The objects of open patches answer whatever message comes on whatever inlet. -/
  answer_eq : ∀ place node, inst.engine.slots.node? place = some node → ∀ inlet message,
    Checked.answer node inlet message = some (node.answer inlet message)
  /-- They answer whatever MIDI event comes. -/
  answerMidi_eq : ∀ place node, inst.engine.slots.node? place = some node → ∀ event,
    Checked.answerMidi node event = some (node.answerMidi event)
  /-- What an action sets the objects to work on goes through step by step. -/
  run_eq : ∀ action done start tasks, rack.act action = some done →
    rack.Starts position inst action done.result start tasks → ∀ count,
      Checked.run start.engine.listeners count ⟨start.engine.start, tasks⟩ =
        some ((Work.step start.engine.listeners)^[count] ⟨start.engine.start, tasks⟩)
  /-- It comes to an end, which is how the action leaves the objects. -/
  run_ends : ∀ action done start tasks, rack.act action = some done →
    rack.Starts position inst action done.result start tasks →
      ∃ after count effects, done.state.instance? position = some after ∧
        Checked.run start.engine.listeners count ⟨start.engine.start, tasks⟩ =
          some ⟨{ slots := after.engine.slots, stack := #[], depth := 0, effects }, []⟩

/-- Loading and control make no fault. Every text that fits into memory is read, every patch is
put into a slot, and a chain is built from whatever is there. In every session the objects of
open patches answer all that comes, and the work that actions set them to goes through. -/
theorem Rack.Reachable.faultless {rack : Rack} (h : rack.Reachable) :
    (∀ name path text dollarZero, text.length < textBound →
      Checked.readPatch name path text dollarZero =
        some (readPatch name path text dollarZero)) ∧
      (∀ slots patch, Checked.insert slots patch = some (slots.insert patch)) ∧
      (∀ slots format, Checked.build slots format = some (Chain.build slots format)) ∧
      ∀ position inst, rack.instance? position = some inst → rack.Faultless position inst := by
  refine ⟨fun name path text dollarZero hlength => Checked.readPatch_eq_some name path hlength
    dollarZero, Checked.insert_eq_some, Checked.build_eq_some, ?_⟩
  intro position inst hinst
  have hevery : inst.engine.slots.Every Patch.Bounded := h.every_open Patch.lasting_bounded hinst
  have hrun {action : HostAction} {result : Except Failure Reply} {start : Instance}
      {tasks : List Task} (hstarts : rack.Starts position inst action result start tasks)
      (count : Nat) : Checked.run start.engine.listeners count ⟨start.engine.start, tasks⟩ =
        some ((Work.step start.engine.listeners)^[count] ⟨start.engine.start, tasks⟩) := by
    obtain ⟨hbounded, hbalanced⟩ := hstarts.sound h hinst
    exact Checked.run_eq_some start.engine.listeners count hbounded hbalanced
  exact
    { answer_eq := fun _ _ hnode => Checked.answer_eq_some (hevery.bounded hnode)
      answerMidi_eq := fun _ node _ => Checked.answerMidi_eq_some node
      run_eq := fun _ _ _ _ _ hstarts => hrun hstarts
      run_ends := by
        intro action done start tasks hact hstarts
        obtain ⟨after, hafter, -, own, -, -, -, hcompletes, -⟩ :=
          performs_of_starts h hinst hact hstarts
        obtain ⟨effects, ⟨count, hends⟩, -⟩ := hcompletes.ends
        exact ⟨after, count, effects.toArray, hafter, (hrun hstarts count).trans
          (congrArg some hends)⟩ }

/-- A text with a slider from one infinity down to the other, a radio without buttons, and a
MIDI output. -/
def infinitySlider : String :=
  "#N canvas 0 0 9 9 10;\n#X obj 0 0 hsl 9 9 1e50 -1e50 0 0 empty in;\n" ++
    "#X obj 0 0 hradio 9 1 0 0 empty in;\n#X obj 0 0 noteout;\n#X connect 0 0 2 1;\n"

/-- The text is loaded. -/
def acrossInfinities : List HostAction :=
  [.create none,
    .setFiles { entries := [(["a.pd"], .file (.text infinitySlider))] },
    .request 0 (.load "/a.pd" "")]

/-- The slider can be told what is no number. -/
theorem Rack.Reachable.faultless_acrossInfinities :
    ∃ rack : Rack, ∃ inst gui nan, rack.Reachable ∧ rack.instance? 0 = some inst ∧
      inst.engine.slots.node? { slot := 0, object := 0 } = some (.gui gui) ∧
      gui.minimum = Number.ofMagnitude false Number.infinityBits ∧
      gui.maximum = Number.ofMagnitude true Number.infinityBits ∧ ¬ Number.IsNumber nan ∧
      Checked.answer (.gui gui) 0 (.float nan) = some (Node.answer (.gui gui) 0 (.float nan)) ∧
      Checked.readPatch "a.pd" "/a.pd" infinitySlider 1 =
        some (readPatch "a.pd" "/a.pd" infinitySlider 1) ∧
      ∃ done after count effects,
        rack.act (.request 0 (.send ⟨"in"⟩ (.float nan))) = some done ∧
        done.state.instance? 0 = some after ∧
        Checked.run inst.engine.listeners count
            ⟨inst.engine.start, [.send ⟨"in"⟩ (.float nan)]⟩ =
          some ⟨{ slots := after.engine.slots, stack := #[], depth := 0, effects }, []⟩ := by
  have hsession : (guiAfter? acrossInfinities { slot := 0, object := 0 }).any (fun gui => decide
      (gui.minimum = Number.ofMagnitude false Number.infinityBits ∧
        gui.maximum = Number.ofMagnitude true Number.infinityBits)) = true := by
    rw [guiAfter?, Rack.session_of_load acrossInfinities 2 ["a.pd"] rfl rfl rfl
      (append_eq_ofList rfl rfl) (by decide), readPatch, readRecords_ofList]
    decide +kernel
  obtain ⟨gui, hafter, hheld⟩ := (Option.any_eq_true _ _).mp hsession
  obtain ⟨rack, inst, hrack, hinst, hnode⟩ := exists_of_guiAfter? hafter
  obtain ⟨hminimum, hmaximum⟩ := of_decide_eq_true hheld
  have hreachable : rack.Reachable := Rack.Reachable.fresh.session hrack
  let nan := Float32.ofBits 0x7fc00000
  obtain ⟨hread, -, -, hinstances⟩ := hreachable.faultless
  have hfaultless := hinstances 0 inst hinst
  have hact : ∃ done, rack.act (.request 0 (.send ⟨"in"⟩ (.float nan))) = some done := by
    rw [Rack.act, Rack.run, hinst]
    exact ⟨_, rfl⟩
  obtain ⟨done, hact⟩ := hact
  obtain ⟨after, count, effects, hafter, hrun⟩ := hfaultless.run_ends _ done inst _ hact .send
  have hlength : infinitySlider.length < textBound := by
    rw [show infinitySlider = String.ofList _ from append_eq_ofList rfl rfl, String.length_ofList]
    decide +kernel
  exact ⟨rack, inst, gui, nan, hreachable, hinst, hnode, hminimum, hmaximum, by decide,
    hfaultless.answer_eq _ _ hnode 0 (.float nan),
    hread "a.pd" "/a.pd" infinitySlider 1 hlength,
    done, after, count, effects, hact, hafter, hrun⟩

end Patchbay
