import Mathlib.Data.List.Basic
import Patchbay.Proofs.Ahead
import Patchbay.Proofs.Handles
import Patchbay.Proofs.Replacing

/-!
# Reissued handles

Of two instances that differ in one use of a slot, the handles of that slot are one generation
apart. Whatever is asked of both, with the handles that each of them has given out, they answer
alike.

## Implementation notes

Handles from before the use in question are the same for both instances, and nothing stands behind
them any more. Generations go round, so how far the handles of later loads can reach depends on
how many loads there are.
-/

namespace Patchbay

/-! ## Handles -/

/-- The handle that stands for what `id` stands for, where `undone` has been given out and
taken back: in its slot the handles from `undone` on, as far as `loads` more loads can reach,
are one generation further. -/
def PatchId.reissue (id undone : PatchId) (loads : Nat) : PatchId :=
  if id.slot = undone.slot ∧ (id.generation - undone.generation).toNat ≤ loads then
    { id with generation := id.generation + 1 }
  else id

theorem PatchId.slot_reissue (id undone : PatchId) (loads : Nat) :
    (id.reissue undone loads).slot = id.slot := by
  unfold reissue
  split <;> rfl

theorem PatchId.reissue_eq_shift {id undone : PatchId} {loads : Nat}
    (h : id.slot = undone.slot → (id.generation - undone.generation).toNat ≤ loads) :
    id.reissue undone loads = id.shift undone.slot := by
  unfold reissue shift
  by_cases hslot : id.slot = undone.slot
  · rw [if_pos ⟨hslot, h hslot⟩, if_pos hslot]
  · rw [if_neg fun hboth => hslot hboth.1, if_neg hslot]

/-- A handle from an earlier use is not reissued, unless the generations of later loads come round
to it. -/
theorem PatchId.reissue_of_earlier {id undone : PatchId} {loads : Nat}
    (h : id.slot = undone.slot → ∃ number uses, id.generation = UInt32.ofNat number ∧
      undone.generation = UInt32.ofNat uses ∧ number < uses ∧ uses + loads < 2 ^ 32) :
    id.reissue undone loads = id := by
  rw [reissue, if_neg]
  rintro ⟨hslot, hle⟩
  obtain ⟨number, uses, hnumber, huses, hlt, hbound⟩ := h hslot
  rw [hnumber, huses, UInt32.toNat_sub, UInt32.toNat_ofNat', UInt32.toNat_ofNat'] at hle
  omega

/-- So many uses after the first generation, the distance is not more, whether or not the
generations have gone round. -/
theorem toNat_sub_le_of_uses {first generation : UInt32} {used bound : Nat}
    (h : generation = first + UInt32.ofNat used) (hle : used ≤ bound) :
    (generation - first).toNat ≤ bound := by
  have hdistance : generation - first = UInt32.ofNat used := by
    rw [h, UInt32.add_comm, UInt32.add_sub_cancel]
  rw [hdistance, UInt32.toNat_ofNat']
  exact Nat.le_trans (Nat.mod_le _ _) hle

namespace Slots
variable {slots later rest : Slots} {undone id : PatchId} {patch : Patch} {count loads : Nat}

/-- Since the time when `undone` was the next handle of its slot, the slot has been used at most
`count` times, and it is free if it has not been used. -/
def UsedSince (undone : PatchId) (count : Nat) (slots : Slots) : Prop :=
  ∃ used ≤ count, slots.generationAt undone.slot + 1 = undone.generation + UInt32.ofNat used ∧
    (used = 0 → slots.patchAt undone.slot = none)

theorem usedSince_insert (slots : Slots) (patch : Patch) :
    slots.UsedSince (slots.insert patch).2 0 := by
  refine ⟨0, Nat.le_refl 0, ?_, fun _ => patchAt_freeSlot slots⟩
  simp [insert_snd]

theorem UsedSince.mono (h : slots.UsedSince undone count) {more : Nat} (hle : count ≤ more) :
    slots.UsedSince undone more := by
  obtain ⟨used, hused, hrest⟩ := h
  exact ⟨used, Nat.le_trans hused hle, hrest⟩

theorem UsedSince.of_outline (h : slots.UsedSince undone count)
    (houtline : later.outline = slots.outline) : later.UsedSince undone count := by
  obtain ⟨used, hused, hgeneration, hfree⟩ := h
  refine ⟨used, hused, ?_, ?_⟩
  · rwa [← generationAt_outline, houtline, generationAt_outline]
  · intro hunused
    have hnone := hfree hunused
    rw [← Option.map_eq_none_iff, ← patchAt_outline] at hnone ⊢
    rwa [houtline]

theorem UsedSince.insert (h : slots.UsedSince undone count) (patch : Patch) :
    (slots.insert patch).1.UsedSince undone (count + 1) := by
  obtain ⟨used, hused, hgeneration, hfree⟩ := h
  by_cases hslot : undone.slot = slots.freeSlot
  · refine ⟨used + 1, Nat.succ_le_succ hused, ?_, nofun⟩
    rw [generationAt_insert, if_pos hslot, ← hslot, hgeneration, UInt32.ofNat_add]
    exact UInt32.add_assoc ..
  · refine ⟨used, Nat.le_succ_of_le hused, ?_, ?_⟩
    · rwa [generationAt_insert, if_neg hslot]
    · rwa [patchAt_insert, if_neg hslot]

theorem UsedSince.remove (h : slots.UsedSince undone count)
    (hremove : slots.remove? id = some (patch, rest)) : rest.UsedSince undone count := by
  obtain ⟨used, hused, hgeneration, hfree⟩ := h
  refine ⟨used, hused, ?_, ?_⟩
  · rwa [generationAt_remove hremove]
  · intro hunused
    rw [patchAt_remove hremove, hfree hunused, ite_self]

/-- The handle of an open patch has come after `undone`, or is in another slot. -/
theorem UsedSince.exists_of_patch? (h : slots.UsedSince undone count)
    (hpatch : slots.patch? id = some patch) (hslot : id.slot = undone.slot) :
    ∃ used < count, id.generation = undone.generation + UInt32.ofNat used := by
  obtain ⟨used, hused, hgeneration, hfree⟩ := h
  obtain ⟨hown, hopen⟩ := patch?_eq_some_iff.mp hpatch
  rw [hslot] at hown hopen
  cases used with
  | zero =>
    rw [hfree rfl] at hopen
    cases hopen
  | succ used =>
    refine ⟨used, hused, ?_⟩
    rw [hown, UInt32.ofNat_add, ← UInt32.add_assoc] at hgeneration
    exact (UInt32.add_left_inj 1).mp hgeneration

/-- The handle of an open patch is one that is reissued. -/
theorem UsedSince.reissue_eq_shift (h : slots.UsedSince undone count) (hcount : count ≤ loads)
    (hpatch : slots.patch? id = some patch) :
    id.reissue undone loads = id.shift undone.slot := by
  apply PatchId.reissue_eq_shift
  intro hslot
  obtain ⟨used, hused, hgeneration⟩ := h.exists_of_patch? hpatch hslot
  exact toNat_sub_le_of_uses hgeneration (Nat.le_trans (Nat.le_of_lt hused) hcount)

/-- The next handle is one that is reissued. -/
theorem UsedSince.reissue_insert (h : slots.UsedSince undone count) (hcount : count ≤ loads)
    (patch : Patch) :
    (slots.insert patch).2.reissue undone loads = (slots.insert patch).2.shift undone.slot := by
  obtain ⟨used, hused, hgeneration, -⟩ := h
  apply PatchId.reissue_eq_shift
  rw [insert_snd]
  intro hslot
  apply toNat_sub_le_of_uses _ (Nat.le_trans hused hcount)
  rw [show slots.freeSlot = undone.slot from hslot, hgeneration]

/-- A handle finds what its reissued one finds. A handle that is not reissued finds nothing on
either side. -/
theorem UsedSince.patch?_reissue (h : slots.UsedSince undone count) (hcount : count ≤ loads)
    (hahead : slots.Ahead undone.slot later) (id : PatchId) :
    later.patch? (id.reissue undone loads) = slots.patch? id := by
  by_cases hmoved : id.reissue undone loads = id.shift undone.slot
  · rw [hmoved, hahead.patch?_eq]
  · have hnone : slots.patch? id = none := by
      by_contra hfound
      obtain ⟨patch, hpatch⟩ := Option.ne_none_iff_exists'.mp hfound
      exact hmoved (h.reissue_eq_shift hcount hpatch)
    have hgone : later.patch? id = none := by
      by_contra hfound
      obtain ⟨patch, hpatch⟩ := Option.ne_none_iff_exists'.mp hfound
      obtain ⟨before, rfl⟩ := PatchId.shift_surjective undone.slot id
      rw [hahead.patch?_eq] at hpatch
      refine hmoved (PatchId.reissue_eq_shift fun hslot => ?_)
      rw [PatchId.slot_shift] at hslot
      obtain ⟨used, hused, hgeneration⟩ := h.exists_of_patch? hpatch hslot
      have hnext : used + 1 ≤ loads := Nat.le_trans hused hcount
      apply toNat_sub_le_of_uses _ hnext
      rw [PatchId.shift, if_pos hslot, hgeneration, UInt32.ofNat_add]
      exact UInt32.add_assoc ..
    have hkept : id.reissue undone loads = id := by
      rw [PatchId.reissue, if_neg]
      rintro ⟨-, hle⟩
      exact hmoved (PatchId.reissue_eq_shift fun _ => hle)
    rw [hkept, hnone, hgone]

end Slots

/-! ## Requests -/

/-- The same request, with a reissued handle. -/
def Request.reissue (undone : PatchId) (loads : Nat) : Request → Request
  | .close id => .close (id.reissue undone loads)
  | request => request

/-- Whether a request loads a patch. -/
def Request.isLoad : Request → Bool
  | .load .. => true
  | _ => false

/-- The same reply, with a reissued handle. -/
def Reply.reissue (undone : PatchId) (loads : Nat) : Reply → Reply
  | .handle id => .handle (id.reissue undone loads)
  | reply => reply

namespace Instance
variable {inst later : Instance} {slot : Nat} {undone : PatchId} {count loads : Nat}

/-- Two instances differ in their engines only, and these are alike but for one use of a slot. -/
structure Ahead (slot : Nat) (inst later : Instance) : Prop where
  eq_withEngine : later = inst.withEngine later.engine
  engine : inst.engine.Ahead slot later.engine

/-- Two operations made the same calls, and the instances are alike afterwards. -/
structure Alike (slot : Nat) (done later : Instance × List Call) : Prop where
  inst : done.1.Ahead slot later.1
  calls_eq : later.2 = done.2

theorem Ahead.settle (h : inst.Ahead slot later) {done done' : Engine × List Effect}
    (hdone : Engine.Alike slot done done') :
    Alike slot (inst.settle done) (later.settle done') := by
  rw [h.eq_withEngine]
  exact ⟨⟨rfl, hdone.engine⟩, congrArg (inst.hooks.run inst.id) hdone.effects_eq⟩

theorem Ahead.logLine_eq (h : inst.Ahead slot later) (level : LogLevel) (text : String) :
    later.logLine level text = inst.logLine level text := by
  rw [h.eq_withEngine]
  rfl

/-! ### Commands and blocks -/

theorem Ahead.carryOut (h : inst.Ahead slot later) (command : Command) :
    Alike slot (inst.carryOut command) (later.carryOut command) := by
  cases command with
  | send tie message => exact h.settle (h.engine.send tie message)
  | midi event => exact h.settle (h.engine.midi event)

theorem Ahead.carryOutAll (h : inst.Ahead slot later) (commands : List Command) :
    Alike slot (inst.carryOutAll commands) (later.carryOutAll commands) := by
  induction commands generalizing inst later with
  | nil => exact ⟨h, rfl⟩
  | cons command rest ih =>
    have hfirst := h.carryOut command
    have hrest := ih hfirst.inst
    exact ⟨hrest.inst, congrArg₂ (· ++ ·) hfirst.calls_eq hrest.calls_eq⟩

theorem Ahead.checkBlock_eq (h : inst.Ahead slot later) (size : Nat)
    (inputs outputs : List Block) :
    later.checkBlock size inputs outputs = inst.checkBlock size inputs outputs := by
  unfold checkBlock
  rw [h.engine.format_eq]

/-- Two outcomes for an instance are the same, with alike instances. -/
structure Matches {α : Type} (slot : Nat) (done later : Outcome Instance α) : Prop where
  inst : done.state.Ahead slot later.state
  calls_eq : later.calls = done.calls
  result_eq : later.result = done.result

/-- The pending commands, the block and what fires after it are the same. -/
theorem Ahead.perform (h : inst.Ahead slot later) (pending : List Command) (size : Nat)
    (inputs outputs : List Block) :
    Matches slot (inst.perform pending size inputs outputs)
      (later.perform pending size inputs outputs) := by
  cases hcheck : inst.checkBlock size inputs outputs with
  | error failure =>
    have hcheck' := (h.checkBlock_eq size inputs outputs).trans hcheck
    rw [perform_eq_of_error hcheck, perform_eq_of_error hcheck', h.logLine_eq]
    exact ⟨h, rfl, rfl⟩
  | ok =>
    have hcheck' := (h.checkBlock_eq size inputs outputs).trans hcheck
    have hcarried := h.carryOutAll pending
    obtain ⟨format, hadmits⟩ := checkBlock_eq_ok_iff.mp hcheck
    obtain ⟨hblocks, hran⟩ := hcarried.inst.engine.perform (Admits.afterCommands hadmits pending)
    have hblock := hcarried.inst.settle hran
    rw [perform_eq_of_ok hcheck, perform_eq_of_ok hcheck']
    exact ⟨hblock.inst, congrArg₂ (· ++ ·) hcarried.calls_eq hblock.calls_eq,
      congrArg Except.ok hblocks⟩

/-! ### Requests -/

/-- What opening a patch does to the engine, and what is told. -/
theorem openPatch_eq (inst : Instance) (patch : Patch) (diagnostics : List String) :
    inst.openPatch patch diagnostics =
      let built := (inst.engine.insert patch).1.rebuildChain
      let banged := built.1.loadbang (inst.engine.insert patch).2
      let reports := diagnostics.map fun text => Effect.post .error text
      let settled := inst.settle (banged.1, reports ++ built.2 ++ banged.2)
      (settled.1, settled.2, (inst.engine.insert patch).2) := rfl

theorem Ahead.openPatch (h : inst.Ahead slot later) (patch : Patch) (diagnostics : List String) :
    Alike slot ((inst.openPatch patch diagnostics).1, (inst.openPatch patch diagnostics).2.1)
        ((later.openPatch patch diagnostics).1, (later.openPatch patch diagnostics).2.1) ∧
      (later.openPatch patch diagnostics).2.2 =
        (inst.openPatch patch diagnostics).2.2.shift slot := by
  have hid : (later.engine.insert patch).2 = (inst.engine.insert patch).2.shift slot :=
    h.engine.slots.insert_snd patch
  have hbuilt := h.engine.insert patch
  have hbanged := hbuilt.engine.loadbang (inst.engine.insert patch).2
  rw [← hid] at hbanged
  rw [openPatch_eq, openPatch_eq]
  let reports := diagnostics.map fun text => Effect.post .error text
  have htold := congrArg (reports ++ ·) hbuilt.effects_eq
  exact ⟨h.settle (hbanged.told htold), hid⟩

/-- Both instances answer a request alike: if it is a load, the handle is a reissued one. -/
structure Answers (undone : PatchId) (loads : Nat) (request : Request)
    (done later : Outcome (Environment × Instance) Reply) : Prop where
  environment_eq : later.state.1 = done.state.1
  inst : done.state.2.Ahead undone.slot later.state.2
  calls_eq : later.calls = done.calls
  result_eq : later.result =
    if request.isLoad then done.result.map (Reply.reissue undone loads) else done.result

theorem Ahead.load (h : inst.Ahead undone.slot later)
    (hused : inst.engine.slots.UsedSince undone count) (hcount : count ≤ loads)
    (environment : Environment) (name directory : String) :
    Answers undone loads (.load name directory)
      ((inst.load environment name directory).view .handle)
      ((later.load environment name directory).view .handle) := by
  unfold Instance.load
  split
  · exact ⟨rfl, h, by rw [Outcome.view, Outcome.view, h.logLine_eq], rfl⟩
  · split
    · exact ⟨rfl, h, rfl, rfl⟩
    · rename_i after patch diagnostics _
      obtain ⟨hopened, hid⟩ := h.openPatch patch diagnostics
      have hcalls : (later.openPatch patch diagnostics).2.1 =
          (inst.openPatch patch diagnostics).2.1 := hopened.calls_eq
      refine ⟨rfl, hopened.inst, ?_, ?_⟩
      · simp only [Outcome.view, hcalls, hopened.inst.logLine_eq]
      · have hnew := hused.reissue_insert hcount patch
        exact congrArg (Except.ok ∘ Reply.handle) (hid.trans hnew.symm)

theorem Ahead.close (h : inst.Ahead slot later) {id id' : PatchId} (hslot : id'.slot = id.slot)
    (hfound : later.patch? id' = inst.patch? id) :
    Matches slot (inst.close id) (later.close id') := by
  unfold Instance.close
  rcases h.engine.remove? hslot hfound with
    ⟨hstale, hstale'⟩ | ⟨patch, rest, rest', hclosed, hclosed', hrebuilt⟩
  · rw [hstale, hstale']
    exact ⟨h, rfl, rfl⟩
  · rw [hclosed, hclosed']
    have hsettled := h.settle hrebuilt
    refine ⟨hsettled.inst, ?_, rfl⟩
    simp only [hsettled.calls_eq, hsettled.inst.logLine_eq]

theorem Ahead.prepare (h : inst.Ahead slot later) (format : AudioFormat) :
    Matches slot (inst.prepare format) (later.prepare format) := by
  unfold Instance.prepare
  split
  · exact ⟨h, by rw [h.logLine_eq], rfl⟩
  · rename_i hvalid
    have hsettled := h.settle (h.engine.prepare hvalid)
    refine ⟨⟨?_, hsettled.inst.engine⟩, ?_, rfl⟩
    · rw [h.eq_withEngine]
      rfl
    · simp only [hsettled.calls_eq, hsettled.inst.logLine_eq]

theorem Ahead.release (h : inst.Ahead slot later) : Alike slot inst.release later.release := by
  refine ⟨⟨?_, h.engine.release⟩, ?_⟩
  · rw [h.eq_withEngine]
    rfl
  · simp only [Instance.release, h.engine.format_eq, h.logLine_eq]

/-- A change that cannot fail is answered alike. -/
theorem Alike.answers {changed changed' : Instance × List Call}
    (h : Alike undone.slot changed changed') (environment : Environment) {request : Request}
    (hload : request.isLoad = false) :
    Answers undone loads request ((Outcome.ofChange changed).within environment)
      ((Outcome.ofChange changed').within environment) :=
  ⟨rfl, h.inst, h.calls_eq, by rw [hload]; rfl⟩

theorem Matches.answers {done done' : Outcome Instance Unit} (h : Matches undone.slot done done')
    (environment : Environment) {request : Request} (hload : request.isLoad = false) :
    Answers undone loads request ((done.view fun _ => .done).within environment)
      ((done'.view fun _ => .done).within environment) :=
  ⟨rfl, h.inst, h.calls_eq, by
    rw [hload]
    exact congrArg (Except.map fun _ => Reply.done) h.result_eq⟩

/-- A request is answered alike. -/
theorem Ahead.serve (h : inst.Ahead undone.slot later)
    (hused : inst.engine.slots.UsedSince undone count) (hcount : count ≤ loads)
    (environment : Environment) (request : Request) :
    Answers undone loads request (inst.serve environment request)
      (later.serve environment (request.reissue undone loads)) := by
  cases request with
  | send tie message => exact (h.settle (h.engine.send tie message)).answers environment rfl
  | midi event => exact (h.settle (h.engine.midi event)).answers environment rfl
  | load name directory => exact h.load hused hcount environment name directory
  | close id =>
    have hfound := hused.patch?_reissue hcount h.engine.slots id
    exact (h.close (id.slot_reissue undone loads) hfound).answers environment rfl
  | prepare format => exact (h.prepare format).answers environment rfl
  | release => exact h.release.answers environment rfl
  | _ =>
    rw [h.eq_withEngine]
    exact ⟨rfl, ⟨rfl, h.engine⟩, rfl, rfl⟩

/-! ### Uses of the slot -/

theorem usedSince_close (hused : inst.engine.slots.UsedSince undone count) (id : PatchId) :
    (inst.close id).state.engine.slots.UsedSince undone count := by
  unfold close
  split
  · exact hused
  · rename_i patch rest hremove
    obtain ⟨⟨removed, slots⟩, hslots, hrest⟩ := Option.map_eq_some_iff.mp hremove
    cases hrest
    simp only [settle, Engine.slots_rebuildChain]
    exact hused.remove hslots

theorem usedSince_load (h : inst.engine.Reachable)
    (hused : inst.engine.slots.UsedSince undone count) (environment : Environment)
    (name directory : String) :
    (inst.load environment name directory).state.2.engine.slots.UsedSince undone (count + 1) := by
  cases hload : (inst.load environment name directory).result with
  | ok id =>
    obtain ⟨path, patch, diagnostics, logged, -, -, -, hstate, -⟩ := exists_read_of_load hload
    rw [hstate]
    exact (hused.insert patch).of_outline (outline_openPatch h patch diagnostics)
  | error failure =>
    rw [(load_of_error hload).1]
    exact hused.mono (Nat.le_succ count)

/-- Only loads use the slot. -/
theorem usedSince_serve (h : inst.engine.Reachable)
    (hused : inst.engine.slots.UsedSince undone count) (environment : Environment)
    (request : Request) :
    (inst.serve environment request).state.2.engine.slots.UsedSince undone
      (count + if request.isLoad then 1 else 0) := by
  cases request with
  | load name directory => exact usedSince_load h hused environment name directory
  | close id => exact usedSince_close hused id
  | prepare format =>
    exact hused.of_outline (congrArg Slots.outline (inst.slots_prepare format))
  | send tie message => exact hused.of_outline (outline_carryOut h (.send tie message))
  | midi event => exact hused.of_outline (outline_carryOut h (.midi event))
  | _ => exact hused

end Instance

end Patchbay
