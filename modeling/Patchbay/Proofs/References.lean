import Mathlib.Data.List.Basic
import Patchbay.Proofs.Chronicle

/-!
# References to instances

An instance lives as long as a handle or the selection refers to it. What each action does
to the references is said once: to the handles on every instance, to the selection, and to
which instances are alive.

## Implementation notes

`Rack.tally` is all that references are about, so an action that changes the instance at a
position and not its handles is told by one equation.
-/

namespace Patchbay

/-- Whether an action has nothing to do with handles and the selection. -/
def HostAction.leavesReferences : HostAction → Bool
  | .create .. | .select .. | .hold .. | .letGo .. | .free .. | .tryFree .. => false
  | _ => true

namespace Rack
variable {rack after : Rack} {position index count : Nat}

/-! ## Tallies -/

/-- The number of handles on the instance at a position, `none` if none lives there. -/
def tally (rack : Rack) (position : Nat) : Option Nat :=
  (rack.shared? position).map SharedInstance.handles

theorem handles_eq_getD_tally (rack : Rack) (position : Nat) :
    rack.handles position = (rack.tally position).getD 0 :=
  rfl

theorem isSome_shared?_eq_isSome_tally (rack : Rack) (position : Nat) :
    (rack.shared? position).isSome = (rack.tally position).isSome :=
  Option.isSome_map.symm

theorem isSome_instance?_eq_isSome_tally (rack : Rack) (position : Nat) :
    (rack.instance? position).isSome = (rack.tally position).isSome := by
  rw [instance?, tally, Option.isSome_map, Option.isSome_map]

theorem tally_eq_none_iff : rack.tally position = none ↔ rack.instance? position = none := by
  rw [instance?, tally, Option.map_eq_none_iff, Option.map_eq_none_iff]

theorem tally_eq_some_of_handles_pos (h : 0 < rack.handles position) :
    rack.tally position = some (rack.handles position) := by
  rw [handles_eq_getD_tally] at h ⊢
  cases htally : rack.tally position with
  | none => simp [htally] at h
  | some handles => rfl

theorem lt_length_of_isSome_tally (h : (rack.tally position).isSome) :
    position < rack.instances.length := by
  by_contra hle
  rw [tally, shared?, List.getElem?_eq_none (Nat.le_of_not_lt hle)] at h
  cases h

theorem tally_abandonQueue (rack : Rack) (queue : Option Nat) :
    (rack.abandonQueue queue).tally = rack.tally := by
  cases queue <;> rfl

theorem current_abandonQueue (rack : Rack) (queue : Option Nat) :
    (rack.abandonQueue queue).current = rack.current := by
  cases queue <;> rfl

theorem shared?_abandonQueue (rack : Rack) (queue : Option Nat) :
    (rack.abandonQueue queue).shared? = rack.shared? := by
  cases queue <;> rfl

/-- Changing what is kept about one instance. -/
theorem shared?_modify (rack : Rack) (position : Nat) (change : SharedInstance → SharedInstance)
    (index : Nat) :
    ({ rack with instances := rack.instances.modify position (Option.map change) } : Rack).shared?
        index =
      if position = index then (rack.shared? index).map change else rack.shared? index := by
  simp only [shared?, List.getElem?_modify]
  split
  · rcases rack.instances[index]? with _ | _ | shared <;> rfl
  · exact congrArg Option.join (Option.map_id' (x := rack.instances[index]?))

theorem tally_setInstance (rack : Rack) (position : Nat) (inst : Instance) :
    (rack.setInstance position inst).tally = rack.tally := by
  funext index
  rw [tally, setInstance, shared?_modify]
  split
  · rw [Option.map_map]
    rfl
  · rfl

theorem tally_hold (rack : Rack) (position index : Nat) :
    (rack.hold position).tally index =
      if position = index then (rack.tally index).map (· + 1) else rack.tally index := by
  rw [tally, hold, shared?_modify]
  split
  · rw [tally, Option.map_map, Option.map_map]
    rfl
  · rfl

theorem tally_create (rack : Rack) (extension : Option Int) (index : Nat) :
    (rack.create extension).1.tally index =
      if index = rack.instances.length then some 1 else rack.tally index := by
  rw [tally, tally, shared?, shared?, create]
  rcases Nat.lt_trichotomy index rack.instances.length with hlt | rfl | hgt
  · rw [if_neg (Nat.ne_of_lt hlt), List.getElem?_append_left hlt]
  · rw [if_pos rfl, List.getElem?_concat_length]
    rfl
  · rw [if_neg (Nat.ne_of_gt hgt), List.getElem?_append_right (Nat.le_of_lt hgt),
      List.getElem?_eq_none (Nat.sub_pos_of_lt hgt), List.getElem?_eq_none (Nat.le_of_lt hgt)]

theorem tally_length (rack : Rack) : rack.tally rack.instances.length = none := by
  rw [tally, shared?, List.getElem?_eq_none (Nat.le_refl _)]
  rfl

/-! ## Giving handles back -/

/-- The rack with some handles fewer on one instance, and no other change. -/
def giveBack (rack : Rack) (position count : Nat) : Rack :=
  { rack with
    instances := rack.instances.modify position
      (Option.map fun shared => { shared with handles := shared.handles - count }) }

theorem letGo_eq (rack : Rack) (position count : Nat) :
    rack.letGo position count = (rack.giveBack position count).dropUnused position :=
  rfl

theorem shared?_giveBack_of_ne (h : index ≠ position) :
    (rack.giveBack position count).shared? index = rack.shared? index := by
  rw [giveBack, shared?_modify, if_neg (Ne.symm h)]

theorem tally_giveBack (rack : Rack) (position count index : Nat) :
    (rack.giveBack position count).tally index =
      if position = index then (rack.tally index).map (· - count) else rack.tally index := by
  rw [tally, giveBack, shared?_modify]
  split
  · rw [tally, Option.map_map, Option.map_map]
    rfl
  · rfl

theorem handles_giveBack (rack : Rack) (position count index : Nat) :
    (rack.giveBack position count).handles index =
      if position = index then rack.handles index - count else rack.handles index := by
  rw [handles_eq_getD_tally, tally_giveBack, handles_eq_getD_tally]
  split
  · cases rack.tally index with
    | none => exact (Nat.zero_sub count).symm
    | some handles => rfl
  · rfl

/-! ## Dropping what nothing refers to -/

/-- An instance at a position is dropped exactly if nothing refers to it. -/
theorem dropUnused_cases (rack : Rack) (position : Nat) :
    (rack.dropUnused position).1 = rack ∧
        ¬(rack.tally position = some 0 ∧ rack.current ≠ some position) ∨
      (rack.tally position = some 0 ∧ rack.current ≠ some position) ∧
        ∃ queue, (rack.dropUnused position).1 =
          (rack.setShared position none).abandonQueue queue := by
  unfold dropUnused tally
  cases hshared : rack.shared? position with
  | none => exact .inl ⟨rfl, nofun⟩
  | some shared =>
    simp only [Option.map_some, Option.some.injEq]
    split
    · exact .inr ⟨‹_›, _, rfl⟩
    · exact .inl ⟨rfl, ‹_›⟩

theorem current_dropUnused (rack : Rack) (position : Nat) :
    (rack.dropUnused position).1.current = rack.current := by
  rcases rack.dropUnused_cases position with ⟨hsame, -⟩ | ⟨-, queue, hdropped⟩
  · rw [hsame]
  · rw [hdropped, current_abandonQueue]
    rfl

theorem shared?_setShared_none (h : position < rack.instances.length) (index : Nat) :
    (rack.setShared position none).shared? index =
      if index = position then none else rack.shared? index := by
  rw [shared?, setShared, List.getElem?_set, shared?]
  by_cases heq : index = position
  · rw [if_pos heq.symm, if_pos h, if_pos heq]
    rfl
  · rw [if_neg (Ne.symm heq), if_neg heq]

theorem shared?_dropUnused (rack : Rack) (position index : Nat) :
    (rack.dropUnused position).1.shared? index =
      if index = position ∧ rack.tally position = some 0 ∧ rack.current ≠ some position then none
      else rack.shared? index := by
  rcases rack.dropUnused_cases position with ⟨hsame, hused⟩ | ⟨hunused, queue, hdropped⟩
  · rw [hsame, if_neg fun h => hused h.2]
  · have hlt : position < rack.instances.length :=
      lt_length_of_isSome_tally (by rw [hunused.1]; rfl)
    rw [hdropped, shared?_abandonQueue, shared?_setShared_none hlt]
    simp only [hunused, ne_eq, not_false_eq_true, and_self, and_true]

theorem tally_dropUnused (rack : Rack) (position index : Nat) :
    (rack.dropUnused position).1.tally index =
      if index = position ∧ rack.tally position = some 0 ∧ rack.current ≠ some position then none
      else rack.tally index := by
  rw [tally, shared?_dropUnused]
  split <;> rfl

/-- No handle is lost with an instance that is dropped. -/
theorem handles_dropUnused (rack : Rack) (position index : Nat) :
    (rack.dropUnused position).1.handles index = rack.handles index := by
  rw [handles_eq_getD_tally, tally_dropUnused, handles_eq_getD_tally]
  split
  · rename_i hunused
    rw [hunused.1, hunused.2.1]
    rfl
  · rfl

/-! ## References -/

/-- What instances live by: each is referred to by a handle or the selection, and the
selection refers to one that lives. -/
structure Referred (rack : Rack) : Prop where
  selected : ∀ position, rack.current = some position → (rack.tally position).isSome
  held : ∀ position, (rack.tally position).isSome →
    0 < rack.handles position ∨ rack.current = some position

theorem referred_fresh : ({} : Rack).Referred where
  selected := nofun
  held := nofun

theorem Referred.isSome_iff (h : rack.Referred) (position : Nat) :
    (rack.tally position).isSome ↔ 0 < rack.handles position ∨ rack.current = some position := by
  constructor
  · exact h.held position
  · rintro (hhandles | hcurrent)
    · rw [tally_eq_some_of_handles_pos hhandles]
      rfl
    · exact h.selected position hcurrent

theorem Referred.of_eq (h : rack.Referred) (htally : after.tally = rack.tally)
    (hcurrent : after.current = rack.current) : after.Referred where
  selected := by
    intro position
    rw [hcurrent, htally]
    exact h.selected position
  held := by
    intro position
    rw [handles_eq_getD_tally, hcurrent, htally]
    exact h.held position

/-- Dropping makes up for the one position that may have lost its last reference. -/
theorem referred_dropUnused
    (hselected : ∀ index, rack.current = some index → (rack.tally index).isSome)
    (hheld : ∀ index, index ≠ position → (rack.tally index).isSome →
      0 < rack.handles index ∨ rack.current = some index) :
    (rack.dropUnused position).1.Referred where
  selected := by
    intro index hcurrent
    rw [current_dropUnused] at hcurrent
    rw [tally_dropUnused, if_neg]
    · exact hselected index hcurrent
    · rintro ⟨rfl, -, hunselected⟩
      exact hunselected hcurrent
  held := by
    intro index halive
    rw [handles_dropUnused, current_dropUnused]
    rw [tally_dropUnused] at halive
    split at halive
    · cases halive
    · rename_i hused
      by_cases heq : index = position
      · subst heq
        by_cases hcurrent : rack.current = some index
        · exact .inr hcurrent
        · left
          rw [handles_eq_getD_tally]
          cases htally : rack.tally index with
          | none => simp [htally] at halive
          | some handles =>
            refine Nat.pos_of_ne_zero fun hzero => hused ⟨rfl, ?_, hcurrent⟩
            rw [htally, show handles = 0 from hzero]
      · exact hheld index heq halive

/-! ## What actions do to references -/

theorem tally_run {α : Type}
    {operation : Environment → Instance → Outcome (Environment × Instance) α}
    {done : Outcome Rack α} (h : rack.run position operation = some done) :
    done.state.tally = rack.tally ∧ done.state.current = rack.current := by
  obtain ⟨inst, -, rfl⟩ := Option.map_eq_some_iff.mp h
  exact ⟨tally_setInstance _ position _, rfl⟩

theorem tally_perform {size : Nat} {inputs outputs : List Block}
    {done : Outcome Rack (List Block)}
    (h : rack.perform position size inputs outputs = some done) :
    done.state.tally = rack.tally ∧ done.state.current = rack.current := by
  cases hinst : rack.instance? position with
  | none =>
    rw [perform, hinst] at h
    cases h
  | some inst =>
    rw [perform_eq hinst] at h
    cases h
    have hdrained : (if (inst.perform (rack.pending inst) size inputs outputs).result.isOk then
        rack.drain inst else rack).tally = rack.tally ∧
        (if (inst.perform (rack.pending inst) size inputs outputs).result.isOk then
          rack.drain inst else rack).current = rack.current := by
      unfold drain
      split
      · cases inst.queue <;> exact ⟨rfl, rfl⟩
      · exact ⟨rfl, rfl⟩
    exact ⟨(tally_setInstance _ position _).trans hdrained.1, hdrained.2⟩

/-- Most actions do nothing to references. -/
theorem tally_act {action : HostAction} {done : Outcome Rack Reply}
    (h : rack.act action = some done) (haction : action.leavesReferences) :
    done.state.tally = rack.tally ∧ done.state.current = rack.current := by
  cases action with
  | create | select | hold | letGo | free | tryFree => cases haction
  | request target request =>
    have hrun : rack.run target (fun environment inst => inst.serve environment request) =
        some done := h
    exact tally_run hrun
  | perform target size inputs outputs =>
    obtain ⟨ran, hran, rfl⟩ := Option.map_eq_some_iff.mp h
    exact tally_perform hran
  | openQueue target capacity =>
    obtain ⟨opened, hopened, rfl⟩ := Option.map_eq_some_iff.mp h
    obtain ⟨inst, -, rfl⟩ := Option.map_eq_some_iff.mp hopened
    exact ⟨(tally_setInstance _ target _).trans (rack.tally_abandonQueue inst.queue),
      rack.current_abandonQueue inst.queue⟩
  | enqueue queue command =>
    simp only [act, Option.ite_none_right_eq_some, Option.some.injEq] at h
    obtain ⟨-, rfl⟩ := h
    unfold enqueue
    cases (rack.queues[queue]?).bind fun queue => queue.push? command <;> exact ⟨rfl, rfl⟩
  | openHistory | clearHistory | setFiles | addSearchPath | clearSearchPath =>
    cases h
    exact ⟨rfl, rfl⟩

/-! ### The selection -/

theorem current_setCurrent (rack : Rack) (selection : Option Nat) :
    (rack.setCurrent selection).1.current = selection := by
  unfold setCurrent
  split
  · rw [current_dropUnused]
  · rfl

theorem handles_setCurrent (rack : Rack) (selection : Option Nat) (index : Nat) :
    (rack.setCurrent selection).1.handles index = rack.handles index := by
  unfold setCurrent
  split
  · rw [handles_dropUnused]
    rfl
  · rfl

/-- Selecting an instance does nothing to it. -/
theorem shared?_setCurrent_self (rack : Rack) (position : Nat) :
    (rack.setCurrent (some position)).1.shared? position = rack.shared? position := by
  unfold setCurrent
  split
  · rw [shared?_dropUnused, if_neg]
    · rfl
    · rintro ⟨rfl, -, hunselected⟩
      exact hunselected rfl
  · rfl

/-- The selection may change to an instance that lives. -/
theorem Referred.setCurrent (h : rack.Referred) {selection : Option Nat}
    (halive : ∀ position, selection = some position → (rack.tally position).isSome) :
    (rack.setCurrent selection).1.Referred := by
  unfold Rack.setCurrent
  split
  · rename_i old hold
    refine referred_dropUnused halive ?_
    intro index hne hindex
    rcases h.held index hindex with hhandles | hcurrent
    · exact .inl hhandles
    · rw [hold] at hcurrent
      exact absurd (Option.some.inj hcurrent).symm hne
  · rename_i hnone
    refine ⟨halive, ?_⟩
    intro index hindex
    rcases h.held index hindex with hhandles | hcurrent
    · exact .inl hhandles
    · rw [hnone] at hcurrent
      cases hcurrent

/-! ### Handles -/

theorem Referred.create (h : rack.Referred) (extension : Option Int) :
    (rack.create extension).1.Referred where
  selected := by
    intro index hcurrent
    rw [tally_create]
    split
    · rfl
    · exact h.selected index hcurrent
  held := by
    intro index halive
    rw [handles_eq_getD_tally]
    rw [tally_create] at halive ⊢
    split
    · exact .inl Nat.one_pos
    · rename_i hne
      rw [if_neg hne] at halive
      exact h.held index halive

theorem handles_create (rack : Rack) (extension : Option Int) (index : Nat) :
    (rack.create extension).1.handles index =
      rack.handles index + if index = rack.instances.length then 1 else 0 := by
  rw [handles_eq_getD_tally, tally_create, handles_eq_getD_tally]
  split
  · rename_i heq
    rw [heq, tally_length]
    rfl
  · rfl

theorem handles_hold (h : (rack.tally position).isSome) (index : Nat) :
    (rack.hold position).handles index =
      rack.handles index + if position = index then 1 else 0 := by
  rw [handles_eq_getD_tally, tally_hold, handles_eq_getD_tally]
  split
  · rename_i heq
    subst heq
    obtain ⟨handles, htally⟩ := Option.isSome_iff_exists.mp h
    rw [htally]
    rfl
  · rfl

theorem Referred.hold (h : rack.Referred) (position : Nat) : (rack.hold position).Referred where
  selected := by
    intro index hcurrent
    have halive := h.selected index hcurrent
    rw [tally_hold]
    split
    · rw [Option.isSome_map]
      exact halive
    · exact halive
  held := by
    intro index halive
    rw [handles_eq_getD_tally]
    rw [tally_hold] at halive ⊢
    split
    · rename_i heq
      rw [if_pos heq, Option.isSome_map] at halive
      obtain ⟨handles, htally⟩ := Option.isSome_iff_exists.mp halive
      rw [htally]
      exact .inl (Nat.succ_pos handles)
    · rename_i hne
      rw [if_neg hne] at halive
      exact h.held index halive

theorem current_letGo (rack : Rack) (position count : Nat) :
    (rack.letGo position count).1.current = rack.current := by
  rw [letGo_eq, current_dropUnused]
  rfl

theorem handles_letGo (rack : Rack) (position count index : Nat) :
    (rack.letGo position count).1.handles index =
      if position = index then rack.handles index - count else rack.handles index := by
  rw [letGo_eq, handles_dropUnused, handles_giveBack]

theorem Referred.letGo (h : rack.Referred) (position count : Nat) :
    (rack.letGo position count).1.Referred := by
  rw [letGo_eq]
  refine referred_dropUnused ?_ ?_
  · intro index hcurrent
    have halive := h.selected index hcurrent
    rw [tally_giveBack]
    split
    · rw [Option.isSome_map]
      exact halive
    · exact halive
  · intro index hne halive
    rw [tally_giveBack, if_neg (Ne.symm hne)] at halive
    rw [handles_giveBack, if_neg (Ne.symm hne)]
    exact h.held index halive

/-- An instance that something still refers to is not dropped. -/
theorem letGo_eq_giveBack (h : count < rack.handles position ∨ rack.current = some position) :
    (rack.letGo position count).1 = rack.giveBack position count := by
  rw [letGo_eq]
  rcases (rack.giveBack position count).dropUnused_cases position with
    ⟨hsame, -⟩ | ⟨⟨hzero, hunselected⟩, -⟩
  · exact hsame
  · exfalso
    rcases h with hlt | hcurrent
    · have hhandles : (rack.giveBack position count).handles position = 0 := by
        rw [handles_eq_getD_tally, hzero]
        rfl
      rw [handles_giveBack, if_pos rfl] at hhandles
      exact Nat.sub_ne_zero_of_lt hlt hhandles
    · exact hunselected hcurrent

/-- One instance is gone, and nothing else has changed. -/
structure Releases (rack : Rack) (position : Nat) (after : Rack) : Prop where
  gone : after.instance? position = none
  others : ∀ index, index ≠ position → after.shared? index = rack.shared? index
  current_eq : after.current = rack.current

/-- Giving back the last reference to an instance releases it. -/
theorem letGo_releases (hhandles : rack.handles position = count) (hcount : 0 < count)
    (hcurrent : rack.current ≠ some position) :
    rack.Releases position (rack.letGo position count).1 where
  gone := by
    have htally : (rack.giveBack position count).tally position = some 0 := by
      rw [tally_giveBack, if_pos rfl, tally_eq_some_of_handles_pos (hhandles ▸ hcount), hhandles]
      exact congrArg some (Nat.sub_self count)
    rw [letGo_eq, ← tally_eq_none_iff, tally_dropUnused, if_pos ⟨rfl, htally, hcurrent⟩]
  others := by
    intro index hne
    rw [letGo_eq, shared?_dropUnused, if_neg fun h => hne h.1, shared?_giveBack_of_ne hne]
  current_eq := rack.current_letGo position count

/-! ### Freeing -/

/-- What becomes of freeing an instance by way of a handle on it. -/
def freeResult (rack : Rack) (position : Nat) : Except Failure Unit :=
  if rack.current = some position then .error .instanceSelected
  else if rack.handles position = 1 then .ok ()
  else .error .instanceBusy

theorem freeResult_eq_ok_iff :
    rack.freeResult position = .ok () ↔
      rack.current ≠ some position ∧ rack.handles position = 1 := by
  unfold freeResult
  split
  · simp [*]
  · split <;> simp [*]

theorem free_eq (h : 0 < rack.handles position) :
    ∃ done, rack.free position = some done ∧ done.result = rack.freeResult position ∧
      done.state = if rack.freeResult position = .ok () then (rack.letGo position 1).1
        else rack := by
  have htally := tally_eq_some_of_handles_pos h
  obtain ⟨shared, hshared, hhandles⟩ := Option.map_eq_some_iff.mp htally
  simp only [free, hshared, Option.map_some, Option.some.injEq, exists_eq_left', freeResult,
    hhandles]
  split
  · exact ⟨rfl, rfl⟩
  · split
    · exact ⟨rfl, rfl⟩
    · exact ⟨rfl, rfl⟩

/-- Trying to free gives the handle back whatever comes of it. -/
theorem tryFree_eq (h : 0 < rack.handles position) :
    ∃ done, rack.tryFree position = some done ∧ done.result = rack.freeResult position ∧
      done.state = (rack.letGo position 1).1 := by
  obtain ⟨freed, hfreed, hresult, hstate⟩ := free_eq h
  simp only [tryFree, hfreed, Option.map_some, Option.some.injEq, exists_eq_left']
  cases hfree : rack.freeResult position with
  | ok =>
    rw [hresult, hfree, hstate, if_pos hfree]
    exact ⟨hresult.trans hfree, rfl⟩
  | error failure =>
    rw [hresult, hfree, hstate, if_neg (by rw [hfree]; nofun)]
    exact ⟨rfl, rfl⟩

end Rack

end Patchbay
