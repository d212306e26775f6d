import Mathlib.Data.List.Basic
import Patchbay.Proofs.Bindings
import Patchbay.Proofs.OpenPatches
import Patchbay.Proofs.Speaking

/-!
# What objects have been told

Every object of an open patch has a history: it was made when its patch was loaded, and it
has answered the messages that reached it since, in order. Nothing else has changed it. The
history is told from the chronicle of the session, turn by turn, and within a turn step by
step.

## Implementation notes

Turns that set no object to work tell no object anything. A history ends when the patch is
closed; the next patch in the same slot begins another.
-/

namespace Patchbay

/-- The object once it has answered some messages, each on its inlet. -/
def Node.afterAll (node : Node) (told : List (Nat × Message)) : Node :=
  told.foldl (fun node (inlet, message) => (node.answer inlet message).1) node

theorem Node.afterAll_append (node : Node) (told more : List (Nat × Message)) :
    node.afterAll (told ++ more) = (node.afterAll told).afterAll more := List.foldl_append

/-! ## Step by step -/

namespace Work
variable {place : NodeRef}

/-- What the object at a place is told in the next step. -/
def told? (place : NodeRef) (work : Work) : Option (Nat × Message) :=
  match work.asked? with
  | some (target, inlet, message) => if target = place then some (inlet, message) else none
  | none => none

/-- A step changes an object by what it is told, and in no other way. -/
theorem step_node? (listeners : Listeners) (work : Work) (place : NodeRef) :
    (step listeners work).dispatch.slots.node? place =
      (work.dispatch.slots.node? place).map fun node =>
        node.afterAll (work.told? place).toList := by
  rw [step_slots, told?]
  cases work.asked? with
  | none => simp [Node.afterAll]
  | some asked =>
    obtain ⟨target, inlet, message⟩ := asked
    simp only [Slots.node?_answered]
    by_cases htarget : target = place
    · simp [htarget, Node.afterAll]
    · simp [htarget, Ne.symm htarget, Node.afterAll]

theorem iterate_node? (listeners : Listeners) (count : Nat) (work : Work) (place : NodeRef) :
    ((step listeners)^[count] work).dispatch.slots.node? place =
      (work.dispatch.slots.node? place).map fun node =>
        node.afterAll (collect listeners (told? place) count work) := by
  induction count generalizing work with
  | zero => simp [collect, Node.afterAll]
  | succ count ih =>
    rw [Function.iterate_succ_apply, ih, step_node?, Option.map_map, collect]
    congr 1
    funext node
    exact (Node.afterAll_append _ _ _).symm

end Work

/-! ## Turn by turn -/

/-- What the object at a place is told in a turn. -/
inductive Turn.Tells (position : Nat) (place : NodeRef) (turn : Turn) :
    List (Nat × Message) → Prop
  | work {inst start : Instance} {tasks : List Task} {final : Dispatch}
      {told : List (Nat × Message)} (hinst : turn.before.instance? position = some inst)
      (hstarts : turn.before.Starts position inst turn.action turn.done.result start tasks)
      (hmarks : Work.Marks start.engine.listeners (Work.told? place)
        ⟨start.engine.start, tasks⟩ told ⟨final, []⟩) : Tells position place turn told
  | rest (hrest : ∀ inst start tasks, turn.before.instance? position = some inst →
      ¬ turn.before.Starts position inst turn.action turn.done.result start tasks) :
      Tells position place turn []

/-- A turn loads a patch in which the object at a place is made. -/
def Turn.Makes (position : Nat) (place : NodeRef) (turn : Turn) (made : Node) : Prop :=
  ∃ id patch, turn.handed position = some (id, patch) ∧ id.slot = place.slot ∧
    patch.node? place.object = some made

/-- A turn loads no patch into the slot of a place, and closes none there. -/
structure Turn.Spares (position : Nat) (place : NodeRef) (turn : Turn) : Prop where
  handed : ∀ id patch, turn.handed position = some (id, patch) → id.slot ≠ place.slot
  returned : ∀ id, turn.returned position = some id → id.slot ≠ place.slot

/-- The object at a place was made in one of some turns, and has been told this since. -/
inductive Lived (position : Nat) (place : NodeRef) :
    List Turn → Node → List (Nat × Message) → Prop
  | made {turns : List Turn} {turn : Turn} {made : Node} {told : List (Nat × Message)}
      (hmakes : turn.Makes position place made) (htold : turn.Tells position place told) :
      Lived position place (turns ++ [turn]) made told
  | later {turns : List Turn} {turn : Turn} {made : Node} {told more : List (Nat × Message)}
      (hpast : Lived position place turns made told) (hspares : turn.Spares position place)
      (hmore : turn.Tells position place more) :
      Lived position place (turns ++ [turn]) made (told ++ more)

namespace Instance
variable {inst : Instance} {place : NodeRef}

/-- Work that comes to an end tells an object something, and leaves it changed by that. -/
theorem Completes.exists_told {tasks : List Task} {done : Instance × List Call}
    (h : inst.Completes tasks done) (place : NodeRef) :
    ∃ told final, Work.Marks inst.engine.listeners (Work.told? place)
        ⟨inst.engine.start, tasks⟩ told ⟨final, []⟩ ∧
      done.1.engine.slots.node? place =
        (inst.engine.slots.node? place).map fun node => node.afterAll told := by
  obtain ⟨effects, ⟨count, hcount⟩, -⟩ := h.ends
  refine ⟨_, _, ⟨count, hcount, rfl⟩, ?_⟩
  have hnode := Work.iterate_node? inst.engine.listeners count ⟨inst.engine.start, tasks⟩ place
  rw [hcount] at hnode
  exact hnode

theorem node?_opened (inst : Instance) (patch : Patch) (diagnostics : List String)
    (place : NodeRef) :
    (inst.opened patch).engine.slots.node? place =
      if place.slot = (inst.openPatch patch diagnostics).2.2.slot then patch.node? place.object
      else inst.engine.slots.node? place := by
  have hid : (inst.openPatch patch diagnostics).2.2.slot = inst.engine.slots.freeSlot := rfl
  rw [Slots.node?, Slots.node?, opened, Engine.slots_rebuildChain, hid]
  change ((inst.engine.slots.insert patch).1.patchAt place.slot).bind _ = _
  rw [Slots.patchAt_insert]
  split <;> rfl

/-- An object that is there after a patch has been closed is one of another patch. -/
theorem node?_close {id : PatchId} {node : Node}
    (h : (inst.close id).state.engine.slots.node? place = some node) :
    inst.engine.slots.node? place = some node ∧
      ((inst.close id).result = .ok () → id.slot ≠ place.slot) := by
  cases hclose : (inst.close id).result with
  | error failure =>
    rw [close_of_error hclose] at h
    exact ⟨h, nofun⟩
  | ok =>
    unfold close at h hclose
    split at h
    · rename_i hnone
      rw [hnone] at hclose
      cases hclose
    · rename_i patch rest hremove
      obtain ⟨⟨removed, slots⟩, hslots, hrest⟩ := Option.map_eq_some_iff.mp hremove
      cases hrest
      simp only [settle, Engine.slots_rebuildChain] at h
      change (slots.patchAt place.slot).bind _ = _ at h
      rw [Slots.patchAt_remove hslots] at h
      split at h
      · cases h
      · rename_i hslot
        exact ⟨h, fun _ => Ne.symm hslot⟩

end Instance

namespace Rack
variable {rack : Rack} {position : Nat} {inst : Instance} {place : NodeRef} {node : Node}

/-- Whatever stands at a place after an action was made by it, or stood there before. Either
way it has answered what it was told in this turn. -/
inductive Became (rack : Rack) (position : Nat) (place : NodeRef) (turn : Turn) : Node → Prop
  | made {made : Node} {told : List (Nat × Message)} (hmakes : turn.Makes position place made)
      (htold : turn.Tells position place told) :
      Became rack position place turn (made.afterAll told)
  | later {old : Instance} {former : Node} {told : List (Nat × Message)}
      (hold : rack.instance? position = some old)
      (hformer : old.engine.slots.node? place = some former)
      (hspares : turn.Spares position place) (htold : turn.Tells position place told) :
      Became rack position place turn (former.afterAll told)

theorem requestAt_self {request : Request} {done : Outcome Rack Reply} :
    Turn.requestAt position ⟨rack, .request position request, done⟩ = some request := if_pos rfl

/-- A turn that makes no request of an instance spares all its slots. -/
theorem spares_of_no_request {turn : Turn} (h : turn.requestAt position = none) :
    turn.Spares position place where
  handed := by
    intro id patch hhanded
    rw [Turn.handed, h] at hhanded
    cases hhanded
  returned := by
    intro id hreturned
    rw [Turn.returned, h] at hreturned
    cases hreturned

/-- A request spares a slot unless it is a load into it or closes the patch there. -/
theorem spares_of_request {request : Request} {done : Outcome Rack Reply}
    (hhanded : ∀ id patch, request.handed rack.environment done.result = some (id, patch) →
      id.slot ≠ place.slot)
    (hreturned : ∀ id, request.returned done.result = some id → id.slot ≠ place.slot) :
    Turn.Spares position place ⟨rack, .request position request, done⟩ where
  handed := by
    intro id patch h
    rw [Turn.handed, requestAt_self] at h
    exact hhanded id patch h
  returned := by
    intro id h
    rw [Turn.returned, requestAt_self] at h
    exact hreturned id h

/-- A request that neither gives out a handle nor takes one back spares all slots. -/
theorem spares_of_silent {request : Request} {done : Outcome Rack Reply}
    (hhanded : request.handed rack.environment done.result = none)
    (hreturned : request.returned done.result = none) :
    Turn.Spares position place ⟨rack, .request position request, done⟩ := by
  apply spares_of_request
  · intro id patch h
    rw [hhanded] at h
    cases h
  · intro id h
    rw [hreturned] at h
    cases h

/-- Work of an instance, from whatever it begins with. -/
theorem became_of_starts (h : rack.Reachable) {action : HostAction} {done : Outcome Rack Reply}
    (hact : rack.act action = some done) (hinst : done.state.instance? position = some inst)
    (hnode : inst.engine.slots.node? place = some node) {old start : Instance}
    {tasks : List Task} (hold : rack.instance? position = some old)
    (hstarts : rack.Starts position old action done.result start tasks) :
    rack.Became position place ⟨rack, action, done⟩ node := by
  obtain ⟨after, hafter, earlier, own, later, -, -, hcompletes, -⟩ :=
    performs_of_starts h hold hact hstarts
  obtain rfl : after = inst := Option.some.inj (hafter.symm.trans hinst)
  obtain ⟨told, final, hmarks, htold⟩ := hcompletes.exists_told place
  have htells : Turn.Tells position place ⟨rack, action, done⟩ told :=
    .work hold hstarts hmarks
  rw [hnode] at htold
  obtain ⟨former, hformer, rfl⟩ := Option.map_eq_some_iff.mp htold.symm
  generalize hresult : done.result = result at hstarts
  cases hstarts with
  | send => exact .later hold hformer (spares_of_silent rfl rfl) htells
  | midi => exact .later hold hformer (spares_of_silent rfl rfl) htells
  | perform => exact .later hold hformer (spares_of_no_request rfl) htells
  | @load name directory id patch hread =>
    have hhanded : (Request.load name directory).handed rack.environment done.result =
        some (id, patch) := by
      rw [hresult]
      exact congrArg (Option.map fun patch => (id, patch)) hread
    obtain ⟨given, hgiven, hview⟩ :=
      exists_ok_of_map_eq_ok ((served_of_act hact hold).2.1.symm.trans hresult)
    obtain ⟨path, found, diagnostics, -, hpath, hfound, rfl, -, -⟩ :=
      Instance.exists_read_of_load hgiven
    cases hview
    obtain rfl : patch = found :=
      Option.some.inj (hread.symm.trans (Environment.patchNamed?_eq hpath hfound))
    rw [Instance.node?_opened old patch diagnostics] at hformer
    split at hformer
    · rename_i hslot
      refine .made ⟨_, patch, ?_, hslot.symm, hformer⟩ htells
      rw [Turn.handed, requestAt_self]
      exact hhanded
    · rename_i hslot
      refine .later hold hformer (spares_of_request ?_ ?_) htells
      · intro other found hother
        rw [hhanded] at hother
        cases hother
        exact Ne.symm hslot
      · intro other hother
        cases hother

/-- A load that goes well sets the objects to work. -/
theorem exists_starts_of_load {old : Instance} {name directory : String} {id : PatchId}
    (h : (old.load rack.environment name directory).result = .ok id) :
    ∃ start tasks, rack.Starts position old (.request position (.load name directory))
      (.ok (.handle id)) start tasks := by
  obtain ⟨path, patch, diagnostics, -, hpath, hread, -, -, -⟩ := Instance.exists_read_of_load h
  exact ⟨_, _, .load (Environment.patchNamed?_eq hpath hread)⟩

/-- A patch that is closed takes no other along. -/
theorem spares_of_close {old : Instance} {id : PatchId} {done : Outcome Rack Reply}
    (hresult : done.result = (old.close id).result.map fun _ => Reply.done)
    (hslot : (old.close id).result = .ok () → id.slot ≠ place.slot) :
    Turn.Spares position place ⟨rack, .request position (.close id), done⟩ := by
  refine spares_of_request ?_ ?_
  · intro other patch hhanded
    cases hhanded
  · intro other hother
    rw [hresult] at hother
    cases hclose : (old.close id).result with
    | error failure =>
      rw [hclose] at hother
      cases hother
    | ok =>
      rw [hclose] at hother
      cases hother
      exact hslot hclose

/-- Without work, what stands at a place stood there before. -/
theorem became_of_rest {action : HostAction} {done : Outcome Rack Reply}
    (hact : rack.act action = some done) (hinst : done.state.instance? position = some inst)
    (hnode : inst.engine.slots.node? place = some node)
    (hrest : ∀ old start tasks, rack.instance? position = some old →
      ¬ rack.Starts position old action done.result start tasks) :
    rack.Became position place ⟨rack, action, done⟩ node := by
  have htells : Turn.Tells position place ⟨rack, action, done⟩ [] := .rest hrest
  cases comes_of_act hact hinst with
  | created => cases hnode
  | @served request old _ hold hresult =>
    cases request with
    | send => exact absurd .send (hrest old _ _ hold)
    | midi => exact absurd .midi (hrest old _ _ hold)
    | load name directory =>
      cases hload : (old.load rack.environment name directory).result with
      | ok id =>
        have hhandle : done.result = .ok (.handle id) :=
          hresult.trans (congrArg (Except.map Reply.handle) hload)
        obtain ⟨start, tasks, hstarts⟩ := exists_starts_of_load hload
        rw [← hhandle] at hstarts
        exact absurd hstarts (hrest old _ _ hold)
      | error failure =>
        have hfailure : done.result = .error failure :=
          hresult.trans (congrArg (Except.map Reply.handle) hload)
        have hsame : (old.serve rack.environment (.load name directory)).state.2 = old :=
          congrArg Prod.snd (Instance.load_of_error hload).1
        rw [hsame] at hnode
        refine .later hold hnode (spares_of_silent ?_ rfl) htells
        rw [hfailure]
        rfl
    | close id =>
      obtain ⟨hformer, hslot⟩ := Instance.node?_close hnode
      exact .later hold hformer (spares_of_close hresult hslot) htells
    | prepare format =>
      have hsame : (old.serve rack.environment (.prepare format)).state.2.engine.slots =
          old.engine.slots := old.slots_prepare format
      rw [hsame] at hnode
      exact .later hold hnode (spares_of_silent rfl rfl) htells
    | _ => exact .later hold hnode (spares_of_silent rfl rfl) htells
  | @performed size inputs outputs old _ hold hresult =>
    cases hran : (old.perform (rack.pending old) size inputs outputs).result with
    | ok blocks =>
      have hblocks : done.result = .ok (.outputs blocks) :=
        hresult.trans (congrArg (Except.map Reply.outputs) hran)
      have hstarts : rack.Starts position old (.perform position size inputs outputs)
          (.ok (.outputs blocks)) old
          ((rack.pending old).map Command.task ++ [Task.bang old.engine.chain.ticks]) := .perform
      rw [← hblocks] at hstarts
      exact absurd hstarts (hrest old _ _ hold)
    | error failure =>
      rw [Instance.perform_eq_of_error (Instance.checkBlock_of_error hran)] at hnode
      exact .later hold hnode (spares_of_no_request rfl) htells
  | opened hold => exact .later hold hnode (spares_of_no_request rfl) htells
  | kept hold haction =>
    exact .later hold hnode (spares_of_no_request (requestAt_eq_none haction)) htells

/-- In every session each object of an open patch is the one that was made when the patch was
loaded, after it has answered what it has been told since. -/
theorem Chronicle.exists_lived {turns : List Turn} (h : Chronicle turns rack)
    (hinst : rack.instance? position = some inst)
    (hnode : inst.engine.slots.node? place = some node) :
    ∃ made told, Lived position place turns made told ∧ node = made.afterAll told := by
  induction h generalizing inst node with
  | start => cases hinst
  | @next turns rack action done hpast hact ih =>
    have hbecame : rack.Became position place ⟨rack, action, done⟩ node := by
      by_cases hwork : ∃ old start tasks, rack.instance? position = some old ∧
          rack.Starts position old action done.result start tasks
      · obtain ⟨old, start, tasks, hold, hstarts⟩ := hwork
        exact became_of_starts hpast.reachable hact hinst hnode hold hstarts
      · exact became_of_rest hact hinst hnode fun old start tasks hold hstarts =>
          hwork ⟨old, start, tasks, hold, hstarts⟩
    cases hbecame with
    | made hmakes htold => exact ⟨_, _, .made hmakes htold, rfl⟩
    | later hold hformer hspares htold =>
      obtain ⟨made, told, hlived, rfl⟩ := ih hold hformer
      exact ⟨made, _, hlived.later hspares htold, (Node.afterAll_append _ _ _).symm⟩

end Rack

end Patchbay
