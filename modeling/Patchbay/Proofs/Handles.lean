import Mathlib.Data.List.Basic
import Patchbay.Proofs.Chronicle
import Patchbay.Proofs.Listening
import Patchbay.Proofs.Shelf

/-!
# Handles in sessions

The handles that loading gives out and closing takes back tell the patches of an
instance apart, whatever else a session does. What a handle finds is read off the
chronicle of the session, and nothing else.

## Implementation notes

Messages change the state of objects, so the patch that a handle finds is the patch that
was read up to the state of its objects: it has the same outline. Two patches that are
read have different numbers, so an outline also tells which load a patch came from.
-/

namespace Patchbay

/-- The patch that loading a name reads. -/
def Environment.patchNamed? (environment : Environment) (name directory : String) :
    Option Patch :=
  (environment.searchPath.resolve? environment.files name directory).bind fun path =>
    (environment.readPatchFile path).2.toOption.map Prod.fst

theorem Environment.patchNamed?_eq {environment : Environment} {name directory path : String}
    {patch : Patch} {diagnostics : List String}
    (hpath : environment.searchPath.resolve? environment.files name directory = some path)
    (hread : (environment.readPatchFile path).2 = .ok (patch, diagnostics)) :
    environment.patchNamed? name directory = some patch := by
  simp [patchNamed?, hpath, hread, Except.toOption]

/-- The handle that a successful load has replied with. -/
def Request.loaded : Request → Except Failure Reply → Option PatchId
  | .load .., .ok (.handle id) => some id
  | _, _ => none

/-- The handle that a request has given out, with the patch that was read for it. -/
def Request.handed (environment : Environment) :
    Request → Except Failure Reply → Option (PatchId × Patch)
  | .load name directory, .ok (.handle id) =>
    (environment.patchNamed? name directory).map fun patch => (id, patch)
  | _, _ => none

/-- The handle that a request has taken back. -/
def Request.returned : Request → Except Failure Reply → Option PatchId
  | .close id, .ok _ => some id
  | _, _ => none

namespace Turn

/-- The request that a turn made of the instance at a position. -/
def requestAt (position : Nat) (turn : Turn) : Option Request :=
  match turn.action with
  | .request target request => if target = position then some request else none
  | _ => none

end Turn

/-- The handle that a load in a turn has replied with, for the instance at a position. -/
def Turn.loaded (position : Nat) (turn : Turn) : Option PatchId :=
  (turn.requestAt position).bind fun request => request.loaded turn.done.result

/-- The handle that a turn has given out for the instance at a position. -/
def Turn.handed (position : Nat) (turn : Turn) : Option (PatchId × Patch) :=
  (turn.requestAt position).bind fun request =>
    request.handed turn.before.environment turn.done.result

/-- The handle that a turn has taken back for the instance at a position. -/
def Turn.returned (position : Nat) (turn : Turn) : Option PatchId :=
  (turn.requestAt position).bind fun request => request.returned turn.done.result

/-- The handles that an instance has given out, in order, with the patches read for them. -/
def handed (position : Nat) (turns : List Turn) : List (PatchId × Patch) :=
  turns.filterMap (Turn.handed position)

/-- The handles that an instance has taken back, in order. -/
def returned (position : Nat) (turns : List Turn) : List PatchId :=
  turns.filterMap (Turn.returned position)

/-- What handles stand for: each the patch that was read for it, from the time it was given
out to the time it was taken back. -/
structure Instance.Accounts (inst : Instance) (given : List (PatchId × Patch))
    (taken : List PatchId) : Prop where
  /-- No handle is given out twice. -/
  given_nodup : (given.map Prod.fst).Nodup
  finds : ∀ id patch, (id, patch) ∈ given → id ∉ taken →
    ∃ found, inst.patch? id = some found ∧ found.outline = patch.outline
  finds_nothing : ∀ id, id ∉ given.map Prod.fst ∨ id ∈ taken → inst.patch? id = none
  /-- Closing succeeds with a handle that is out, and fails with any other. -/
  close_eq : ∀ id, (inst.close id).result =
    if id ∈ given.map Prod.fst ∧ id ∉ taken then .ok () else .error .stalePatch
  taken_nodup : taken.Nodup
  given_of_taken : ∀ id ∈ taken, id ∈ given.map Prod.fst
  patchCount_add : inst.engine.slots.patchCount + taken.length = given.length
  /-- The open patches are listed in the order of their slots, with the handles that are out. -/
  patches_pairwise : inst.engine.slots.patches.Pairwise fun a b => a.1.slot < b.1.slot
  mem_patches_iff : ∀ id, id ∈ inst.engine.slots.patches.map Prod.fst ↔
    id ∈ given.map Prod.fst ∧ id ∉ taken
  patches_found : ∀ id patch, (id, patch) ∈ inst.engine.slots.patches →
    inst.patch? id = some patch

namespace Instance
variable {inst : Instance} {given : List (PatchId × Patch)} {taken : List PatchId}

theorem close_result (inst : Instance) (id : PatchId) :
    (inst.close id).result = if (inst.patch? id).isSome then .ok () else .error .stalePatch := by
  unfold close Engine.remove? Slots.remove? patch?
  cases inst.engine.slots.patch? id <;> rfl

theorem accounts_of_kept (h : inst.engine.slots.Kept given taken) : inst.Accounts given taken where
  given_nodup := h.given_nodup
  finds := fun id patch hgiven hout => h.found (id, patch) hgiven hout
  finds_nothing := by
    rintro id (hunknown | htaken)
    · exact h.unknown id hunknown
    · exact h.lost id htaken
  close_eq := by
    intro id
    have hout : (inst.patch? id).isSome ↔ id ∈ given.map Prod.fst ∧ id ∉ taken := by
      rw [← h.mem_map_patches_iff, Slots.mem_map_patches, patch?]
    simp only [close_result, hout]
  taken_nodup := h.taken_nodup
  given_of_taken := h.given_of_taken
  patchCount_add := h.patchCount_add
  patches_pairwise := inst.engine.slots.patches_pairwise
  mem_patches_iff := h.mem_map_patches_iff
  patches_found := by
    intro id patch hmem
    exact Slots.mem_patches_iff_patch?.mp hmem

theorem outline_openPatch (h : inst.engine.Reachable) (patch : Patch)
    (diagnostics : List String) :
    (inst.openPatch patch diagnostics).1.engine.slots.outline =
      (inst.engine.slots.insert patch).1.outline := by
  have hopened := (h.openPatch patch).settled
  have hloadbang := Engine.loadbang_shows {} 0 hopened (inst.openPatch patch diagnostics).2.2
  exact hloadbang.outline_eq.trans (congrArg Slots.outline (Engine.slots_rebuildChain _))

theorem load_kept (h : inst.engine.Reachable) {environment : Environment}
    {name directory : String} {id : PatchId}
    (hload : (inst.load environment name directory).result = .ok id)
    (hkept : inst.engine.slots.Kept given taken) :
    ∃ patch, environment.patchNamed? name directory = some patch ∧
      (Slots.uses given id.slot + 1 < 2 ^ 32 →
        (inst.load environment name directory).state.2.engine.slots.Kept
          (given ++ [(id, patch)]) taken) := by
  obtain ⟨path, patch, diagnostics, logged, hpath, hread, rfl, hstate, -⟩ :=
    exists_read_of_load hload
  refine ⟨patch, Environment.patchNamed?_eq hpath hread, ?_⟩
  intro hbound
  rw [hstate]
  exact (hkept.insert patch hbound).of_outline (outline_openPatch h patch diagnostics)

theorem close_kept {id : PatchId} (hclose : (inst.close id).result = .ok ())
    (hkept : inst.engine.slots.Kept given taken) :
    (inst.close id).state.engine.slots.Kept given (taken ++ [id]) := by
  unfold close at hclose ⊢
  split at hclose
  · cases hclose
  · rename_i patch rest hremove
    obtain ⟨⟨removed, slots⟩, hslots, hrest⟩ := Option.map_eq_some_iff.mp hremove
    cases hrest
    simp only [settle, Engine.slots_rebuildChain]
    exact hkept.remove hslots

theorem slots_prepare (inst : Instance) (format : AudioFormat) :
    (inst.prepare format).state.engine.slots = inst.engine.slots := by
  unfold prepare
  split
  · rfl
  · exact Engine.slots_rebuildChain _

/-- What a request does to the handles. -/
theorem serve_kept (h : inst.engine.Reachable) (environment : Environment) (request : Request)
    (hkept : inst.engine.slots.Kept given taken)
    (hbound : ∀ slot, Slots.uses (given ++ (request.handed environment
      (inst.serve environment request).result).toList) slot < 2 ^ 32) :
    (inst.serve environment request).state.2.engine.slots.Kept
      (given ++ (request.handed environment (inst.serve environment request).result).toList)
      (taken ++ (request.returned (inst.serve environment request).result).toList) := by
  cases request with
  | load name directory =>
    cases hload : (inst.load environment name directory).result with
    | ok id =>
      obtain ⟨patch, hpatch, hinsert⟩ := load_kept h hload hkept
      have hhanded : Request.handed environment (.load name directory)
          (inst.serve environment (.load name directory)).result = some (id, patch) := by
        simp [serve, Outcome.view, hload, Except.map, Request.handed, hpatch]
      rw [hhanded] at hbound ⊢
      have hslot := hbound id.slot
      rw [Option.toList_some, Slots.uses_append, Slots.uses_singleton, if_pos rfl] at hslot
      simp only [Request.returned, Option.toList_none, List.append_nil]
      exact hinsert hslot
    | error failure =>
      have hhanded : Request.handed environment (.load name directory)
          (inst.serve environment (.load name directory)).result = none := by
        simp [serve, Outcome.view, hload, Except.map, Request.handed]
      have hsame : (inst.serve environment (.load name directory)).state.2 = inst :=
        congrArg Prod.snd (load_of_error hload).1
      rw [hhanded, hsame]
      simp only [Request.returned, Option.toList_none, List.append_nil]
      exact hkept
  | close id =>
    cases hclose : (inst.close id).result with
    | ok =>
      have hreturned : Request.returned (.close id)
          (inst.serve environment (.close id)).result = some id := by
        simp [serve, Outcome.view, Outcome.within, hclose, Except.map, Request.returned]
      rw [hreturned]
      simp only [Request.handed, Option.toList_none, List.append_nil]
      exact close_kept hclose hkept
    | error failure =>
      have hreturned : Request.returned (.close id)
          (inst.serve environment (.close id)).result = none := by
        simp [serve, Outcome.view, Outcome.within, hclose, Except.map, Request.returned]
      have hsame : (inst.serve environment (.close id)).state.2 = inst :=
        congrArg Outcome.state (close_of_error hclose)
      rw [hreturned, hsame]
      simp only [Request.handed, Option.toList_none, List.append_nil]
      exact hkept
  | prepare format =>
    simp only [Request.handed, Request.returned, Option.toList_none, List.append_nil]
    exact hkept.of_outline (congrArg Slots.outline (inst.slots_prepare format))
  | send tie message =>
    simp only [Request.handed, Request.returned, Option.toList_none, List.append_nil]
    exact hkept.of_outline (outline_carryOut h (.send tie message))
  | midi event =>
    simp only [Request.handed, Request.returned, Option.toList_none, List.append_nil]
    exact hkept.of_outline (outline_carryOut h (.midi event))
  | _ =>
    simp only [Request.handed, Request.returned, Option.toList_none, List.append_nil]
    exact hkept

end Instance

/-! ## Turn by turn -/

section
variable {position : Nat} {turns : List Turn} {turn : Turn} {rack : Rack} {inst : Instance}

theorem requestAt_eq_none (h : turn.action.position? ≠ some position) :
    turn.requestAt position = none := by
  unfold Turn.requestAt
  split
  · rename_i target request haction
    rw [haction] at h
    exact if_neg fun heq => h (congrArg some heq)
  · rfl

/-- A turn that makes no request of an instance leaves its handles alone. -/
theorem handles_snoc_of_no_request (h : turn.requestAt position = none) :
    handed position (turns ++ [turn]) = handed position turns ∧
      returned position (turns ++ [turn]) = returned position turns := by
  constructor
  · rw [handed, filterMap_snoc, Turn.handed, h]
    exact List.append_nil _
  · rw [returned, filterMap_snoc, Turn.returned, h]
    exact List.append_nil _

/-- An instance that is still to be made has no handles. -/
theorem handles_eq_nil (h : Rack.Chronicle turns rack) (hposition : rack.live.length ≤ position) :
    handed position turns = [] ∧ returned position turns = [] := by
  have hnone (turn : Turn) (hturn : turn ∈ turns) : turn.requestAt position = none :=
    requestAt_eq_none (h.not_addressed hposition turn hturn)
  constructor
  · apply List.filterMap_eq_nil_iff.mpr
    intro turn hturn
    rw [Turn.handed, hnone turn hturn, Option.bind_none]
  · apply List.filterMap_eq_nil_iff.mpr
    intro turn hturn
    rw [Turn.returned, hnone turn hturn, Option.bind_none]

/-- The handles of a live instance after any session. -/
theorem Rack.Chronicle.kept (h : Rack.Chronicle turns rack)
    (hinst : rack.instance? position = some inst)
    (hbound : ∀ slot, Slots.uses (handed position turns) slot < 2 ^ 32) :
    inst.engine.slots.Kept (handed position turns) (returned position turns) := by
  induction h generalizing inst with
  | start => cases hinst
  | @next turns rack action done hpast hdone ih =>
    -- Uses only grow, so the bound on the whole chronicle bounds each part of it.
    have hearlier (slot : Nat) : Slots.uses (handed position turns) slot < 2 ^ 32 := by
      refine Nat.lt_of_le_of_lt ?_ (hbound slot)
      rw [handed, handed, filterMap_snoc, Slots.uses_append]
      exact Nat.le_add_right _ _
    cases Rack.comes_of_act hdone hinst with
    | created hposition =>
      have hnil := handles_eq_nil hpast (Nat.le_of_eq hposition.symm)
      rw [(handles_snoc_of_no_request rfl).1, (handles_snoc_of_no_request rfl).2, hnil.1, hnil.2]
      exact Slots.kept_nil
    | @served request old _ hold hresult =>
      have hrequest : Turn.requestAt position
          { before := rack, action := .request position request, done } = some request :=
        if_pos rfl
      rw [handed, returned, filterMap_snoc, filterMap_snoc, Turn.handed, Turn.returned, hrequest,
        Option.bind_some, Option.bind_some, hresult]
      rw [handed, filterMap_snoc, Turn.handed, hrequest, Option.bind_some, hresult] at hbound
      exact Instance.serve_kept (hpast.reachable.engine hold) rack.environment request
        (ih hold hearlier) hbound
    | performed hold =>
      rw [(handles_snoc_of_no_request rfl).1, (handles_snoc_of_no_request rfl).2]
      exact (ih hold hearlier).of_outline
        (Instance.outline_perform (hpast.reachable.engine hold) _ _ _ _)
    | @opened _ old _ hold =>
      have hold_kept : old.engine.slots.Kept (handed position turns) (returned position turns) :=
        ih hold hearlier
      rw [(handles_snoc_of_no_request rfl).1, (handles_snoc_of_no_request rfl).2]
      exact hold_kept
    | kept hold haction =>
      have hnone : Turn.requestAt position { before := rack, action, done } = none :=
        requestAt_eq_none haction
      rw [(handles_snoc_of_no_request hnone).1, (handles_snoc_of_no_request hnone).2]
      exact ih hold hearlier

theorem action_of_requestAt {request : Request} (h : turn.requestAt position = some request) :
    turn.action = .request position request := by
  unfold Turn.requestAt at h
  split at h
  · rename_i target asked haction
    rw [Option.ite_none_right_eq_some] at h
    obtain ⟨rfl, hasked⟩ := h
    rw [haction, Option.some.inj hasked]
  · cases h

/-- Every successful load has read a patch, and gives out the handle it replies with. -/
theorem map_fst_handed (h : turn.before.act turn.action = some turn.done) :
    (turn.handed position).map Prod.fst = turn.loaded position := by
  unfold Turn.handed Turn.loaded
  cases hrequest : turn.requestAt position with
  | none => rfl
  | some request =>
    rw [action_of_requestAt hrequest] at h
    obtain ⟨inst, -, hdone⟩ := Option.map_eq_some_iff.mp h
    have hresult : turn.done.result = (inst.serve turn.before.environment request).result :=
      congrArg Outcome.result hdone.symm
    rw [Option.bind_some, Option.bind_some, hresult]
    cases request with
    | load name directory =>
      cases hload : (inst.load turn.before.environment name directory).result with
      | ok id =>
        obtain ⟨path, patch, diagnostics, -, hpath, hread, -⟩ := Instance.exists_read_of_load hload
        have hnamed := Environment.patchNamed?_eq hpath hread
        simp [Instance.serve, Outcome.view, hload, Except.map, Request.handed, Request.loaded,
          hnamed]
      | error failure =>
        simp [Instance.serve, Outcome.view, hload, Except.map, Request.handed, Request.loaded]
    | _ => rfl

/-- In every session that uses no slot too often, handles tell the patches of a live
instance apart: those that its successful loads have replied with. -/
theorem Rack.Chronicle.handles_account (h : Rack.Chronicle turns rack)
    (hinst : rack.instance? position = some inst)
    (hbound : ∀ slot, Slots.uses (handed position turns) slot < 2 ^ 32) :
    (handed position turns).map Prod.fst = turns.filterMap (Turn.loaded position) ∧
      inst.Accounts (handed position turns) (returned position turns) := by
  refine ⟨?_, Instance.accounts_of_kept (h.kept hinst hbound)⟩
  rw [handed, List.map_filterMap]
  apply List.filterMap_congr
  intro turn hturn
  exact map_fst_handed (h.act_eq turn hturn)

end

/-- A session in which a slot is used again while another handle is out. -/
def reusing : List HostAction :=
  [.create none,
    .setFiles { entries := [(["a.pd"], .file (.text "#N canvas 0 0 9 9 10;\n#X obj 0 0 r a;\n"))] },
    .request 0 (.load "/a.pd" ""),
    .request 0 (.load "/a.pd" ""),
    .request 0 (.close { slot := 0, generation := 1 }),
    .request 0 (.close { slot := 0, generation := 1 }),
    .request 0 (.load "/a.pd" "")]

/-- The slot is used again under a new handle, and the old handle is out of use. -/
theorem handles_account_reusing :
    ∃ turns, ∃ rack : Rack, ∃ inst, Rack.Chronicle turns rack ∧
      rack.instance? 0 = some inst ∧
      (handed 0 turns).map Prod.fst =
        [{ slot := 0, generation := 1 }, { slot := 1, generation := 1 },
          { slot := 0, generation := 2 }] ∧
      returned 0 turns = [{ slot := 0, generation := 1 }] ∧
      (∀ slot, Slots.uses (handed 0 turns) slot < 2 ^ 32) ∧
      turns.filterMap (Turn.loaded 0) = (handed 0 turns).map Prod.fst ∧
      inst.Accounts (handed 0 turns) (returned 0 turns) := by
  have hsession : (({} : Rack).session reusing).any (fun rack =>
      (rack.instance? 0).any fun _ => decide
        ((handed 0 (({} : Rack).turns reusing)).map Prod.fst =
            [{ slot := 0, generation := 1 }, { slot := 1, generation := 1 },
              { slot := 0, generation := 2 }] ∧
          returned 0 (({} : Rack).turns reusing) = [{ slot := 0, generation := 1 }])) = true := by
    decide +kernel
  obtain ⟨rack, hrack, hfound⟩ := (Option.any_eq_true _ _).mp hsession
  obtain ⟨inst, hinst, hlists⟩ := (Option.any_eq_true _ _).mp hfound
  obtain ⟨hhanded, hreturned⟩ := of_decide_eq_true hlists
  have hchronicle := Rack.Chronicle.start.session hrack
  have hbound (slot : Nat) : Slots.uses (handed 0 (({} : Rack).turns reusing)) slot < 2 ^ 32 := by
    have hthree := congrArg List.length hhanded
    rw [List.length_map] at hthree
    exact Nat.lt_of_le_of_lt (Slots.uses_le_length _ slot) (by rw [hthree]; decide)
  obtain ⟨hloaded, haccounts⟩ := hchronicle.handles_account hinst hbound
  exact ⟨_, rack, inst, hchronicle, hinst, hhanded, hreturned, hbound, hloaded.symm, haccounts⟩

end Patchbay
