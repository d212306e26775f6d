import Mathlib.Data.List.Basic
import Patchbay.Proofs.References

/-!
# Selection and freeing

A host selects instances, works on the selected one, keeps handles and frees. All that
matters about handles and the selection is told from what the host has done and been told,
in whatever order: which instance is selected, how many handles there are on each, which
instances live, and what becomes of freeing one.

## Implementation notes

Work on the selected instance is a time, from entering to leaving. In between the host
holds the selector, so it can do anything but select and free.
-/

namespace Patchbay

/-- Anything that is done with one instance at hand. It may also reach the environment and
the command queues. -/
abbrev Visit (α : Type) : Type :=
  Environment → List CommandQueue → Instance →
    Outcome (Environment × List CommandQueue × Instance) α

/-- Run an operation on a live instance. -/
def Rack.attend {α : Type} (rack : Rack) (position : Nat) (operation : Visit α) :
    Option (Outcome Rack α) :=
  (rack.instance? position).map fun inst =>
    let done := operation rack.environment rack.queues inst
    let (environment, queues, inst) := done.state
    { state := ({ rack with environment, queues }.setInstance position inst).record done.calls
      calls := done.calls
      result := done.result }

/-- Whether an action asks for the selector. -/
def HostAction.asksSelector : HostAction → Bool
  | .select .. | .free .. | .tryFree .. => true
  | _ => false

/-! ## Deeds -/

/-- One thing that a host has done, with what it was told. -/
inductive Deed where
  | acted (action : HostAction) (result : Except Failure Reply)
  /-- An operation on an instance. -/
  | operated (position : Nat)
  /-- The start of work on the selected instance. -/
  | enteredCurrent
  /-- The start of work on an instance that is selected for it. -/
  | enteredSelected (position : Nat)
  /-- The end of work on the selected instance. -/
  | left

namespace Deed

/-- The selection that a deed has made. -/
def selection? : Deed → Option (Option Nat)
  | .acted (.select selection) _ => some selection
  | .enteredSelected position => some (some position)
  | _ => none

/-- The handles on the instance at a position after a deed. -/
def handlesAfter (position before : Nat) : Deed → Nat
  | .acted (.create _) (.ok (.index made)) => before + if made = position then 1 else 0
  | .acted (.hold kept) _ => before + if kept = position then 1 else 0
  | .acted (.letGo given count) _ => if given = position then before - count else before
  | .acted (.free given) (.ok _) => if given = position then before - 1 else before
  | .acted (.tryFree given) _ => if given = position then before - 1 else before
  | _ => before

/-- The position that a deed has freed. -/
def freed? : Deed → Option Nat
  | .acted (.free position) (.ok _) | .acted (.tryFree position) (.ok _) => some position
  | _ => none

end Deed

/-- The latest selection. -/
def lastSelection (deeds : List Deed) : Option Nat :=
  ((deeds.filterMap Deed.selection?).getLast?).join

/-- The handles that a host has been left with on the instance at a position. -/
def handlesLeft (position : Nat) (deeds : List Deed) : Nat :=
  deeds.foldl (fun left deed => deed.handlesAfter position left) 0

/-- The positions that have been freed. -/
def freed (deeds : List Deed) : List Nat :=
  deeds.filterMap Deed.freed?

/-- All references to the instance at a position: the handles, and the selection. -/
def references (position : Nat) (deeds : List Deed) : Nat :=
  handlesLeft position deeds + if lastSelection deeds = some position then 1 else 0

/-- What should become of freeing an instance by way of a handle on it: it must not be
selected, and the handle has to be the only reference. -/
def freeing (position : Nat) (deeds : List Deed) : Except Failure Reply :=
  if lastSelection deeds = some position then .error .instanceSelected
  else if references position deeds = 1 then .ok .done
  else .error .instanceBusy

section Deeds
variable (deeds : List Deed) (deed : Deed) (position : Nat)

theorem lastSelection_snoc :
    lastSelection (deeds ++ [deed]) = deed.selection?.getD (lastSelection deeds) := by
  rw [lastSelection, filterMap_snoc]
  cases deed.selection? with
  | none => rw [Option.toList_none, List.append_nil, Option.getD_none, lastSelection]
  | some selection => rw [Option.toList_some, List.getLast?_concat, Option.getD_some]; rfl

theorem handlesLeft_snoc :
    handlesLeft position (deeds ++ [deed]) =
      deed.handlesAfter position (handlesLeft position deeds) := by
  rw [handlesLeft, List.foldl_append]
  rfl

theorem freed_snoc : freed (deeds ++ [deed]) = freed deeds ++ deed.freed?.toList :=
  filterMap_snoc Deed.freed? deeds deed

theorem references_pos_iff :
    0 < references position deeds ↔
      0 < handlesLeft position deeds ∨ lastSelection deeds = some position := by
  unfold references
  split <;> simp [*]

end Deeds

/-- What leaves references alone is no deed about them. -/
theorem Deed.of_leavesReferences {action : HostAction} (h : action.leavesReferences)
    (result : Except Failure Reply) :
    (Deed.acted action result).selection? = none ∧ (Deed.acted action result).freed? = none ∧
      ∀ position before, (Deed.acted action result).handlesAfter position before = before := by
  cases action with
  | create | select | hold | letGo | free | tryFree => cases h
  | _ => exact ⟨rfl, rfl, fun _ _ => rfl⟩

namespace Rack
variable {rack after : Rack} {position : Nat}

/-! ## What one deed does -/

/-- Freeing keeps the handle if it fails. -/
theorem act_free {target : Nat} {done : Outcome Rack Reply}
    (h : rack.act (.free target) = some done) :
    0 < rack.handles target ∧
      done.result = (rack.freeResult target).map (fun _ => .done) ∧
      done.state = if rack.freeResult target = .ok () then (rack.letGo target 1).1 else rack := by
  simp only [act, Option.ite_none_right_eq_some] at h
  obtain ⟨hpos, hmap⟩ := h
  obtain ⟨freed, hfreed, hresult, hstate⟩ := free_eq hpos
  rw [hfreed, Option.map_some, Option.some.injEq] at hmap
  subst hmap
  exact ⟨hpos, congrArg (Except.map _) hresult, hstate⟩

/-- Trying to free gives the handle back. -/
theorem act_tryFree {target : Nat} {done : Outcome Rack Reply}
    (h : rack.act (.tryFree target) = some done) :
    0 < rack.handles target ∧
      done.result = (rack.freeResult target).map (fun _ => .done) ∧
      done.state = (rack.letGo target 1).1 := by
  simp only [act, Option.ite_none_right_eq_some] at h
  obtain ⟨hpos, hmap⟩ := h
  obtain ⟨freed, hfreed, hresult, hstate⟩ := tryFree_eq hpos
  rw [hfreed, Option.map_some, Option.some.injEq] at hmap
  subst hmap
  exact ⟨hpos, congrArg (Except.map _) hresult, hstate⟩

/-- What an action does to references is what its deed tells. -/
theorem act_tells (hreferred : rack.Referred) {action : HostAction} {done : Outcome Rack Reply}
    (h : rack.act action = some done) :
    done.state.Referred ∧
      done.state.current = (Deed.acted action done.result).selection?.getD rack.current ∧
      ∀ index, done.state.handles index =
        (Deed.acted action done.result).handlesAfter index (rack.handles index) := by
  by_cases haction : action.leavesReferences
  · obtain ⟨htally, hcurrent⟩ := tally_act h haction
    obtain ⟨hselection, -, hhandles⟩ := Deed.of_leavesReferences haction done.result
    refine ⟨hreferred.of_eq htally hcurrent, by rw [hselection]; exact hcurrent, ?_⟩
    intro index
    rw [hhandles, handles_eq_getD_tally, htally]
    rfl
  cases action with
  | create extension =>
    cases h
    refine ⟨hreferred.create extension, rfl, ?_⟩
    intro index
    refine (rack.handles_create extension index).trans ?_
    rw [if_congr eq_comm rfl rfl]
    rfl
  | select selection =>
    have halive : ∀ target, selection = some target → (rack.tally target).isSome := by
      rintro target rfl
      simp only [act, Option.ite_none_right_eq_some] at h
      rw [← isSome_shared?_eq_isSome_tally]
      exact h.1
    have hdone : done =
        (rack.setCurrent selection).1.settled .done (rack.setCurrent selection).2 := by
      cases selection with
      | none => exact (Option.some.inj h).symm
      | some target =>
        simp only [act, Option.ite_none_right_eq_some, Option.some.injEq] at h
        exact h.2.symm
    rw [hdone]
    exact ⟨hreferred.setCurrent halive, rack.current_setCurrent selection,
      rack.handles_setCurrent selection⟩
  | hold target =>
    simp only [act, Option.ite_none_right_eq_some, Option.some.injEq] at h
    obtain ⟨halive, rfl⟩ := h
    rw [isSome_shared?_eq_isSome_tally] at halive
    exact ⟨hreferred.hold target, rfl, handles_hold halive⟩
  | letGo target count =>
    simp only [act, Option.ite_none_right_eq_some, Option.some.injEq] at h
    obtain ⟨-, rfl⟩ := h
    exact ⟨hreferred.letGo target count, rack.current_letGo target count,
      rack.handles_letGo target count⟩
  | free target =>
    obtain ⟨-, hresult, hstate⟩ := act_free h
    rw [hresult, hstate]
    cases rack.freeResult target with
    | ok =>
      rw [if_pos rfl]
      exact ⟨hreferred.letGo target 1, rack.current_letGo target 1, rack.handles_letGo target 1⟩
    | error failure =>
      rw [if_neg (by simp)]
      exact ⟨hreferred, rfl, fun _ => rfl⟩
  | tryFree target =>
    obtain ⟨-, -, hstate⟩ := act_tryFree h
    rw [hstate]
    exact ⟨hreferred.letGo target 1, rack.current_letGo target 1, rack.handles_letGo target 1⟩
  | _ => exact absurd rfl haction

theorem gone_of_drops (h : rack.Drops after) (hgone : rack.instance? position = none) :
    after.instance? position = none := by
  rw [Option.eq_none_iff_forall_ne_some] at hgone ⊢
  intro inst hinst
  cases h with
  | none hlive =>
    rw [instance?_of_live_eq hlive] at hinst
    exact hgone inst hinst
  | one _ hlive =>
    rcases instance?_of_set hlive hinst with ⟨-, hnew⟩ | ⟨-, hsame⟩
    · cases hnew
    · exact hgone inst hsame

theorem length_of_drops (h : rack.Drops after) : after.live.length = rack.live.length := by
  cases h with
  | none hlive => rw [hlive]
  | one _ hlive => rw [hlive, List.length_set]

/-- An instance that is gone does not come back. -/
theorem act_gone {action : HostAction} {done : Outcome Rack Reply}
    (h : rack.act action = some done) (hposition : position < rack.live.length)
    (hgone : rack.instance? position = none) : done.state.instance? position = none := by
  rw [Option.eq_none_iff_forall_ne_some]
  intro inst hinst
  cases comes_of_act h hinst with
  | created hnew => exact Nat.ne_of_lt hposition hnew
  | served hold | performed hold | opened hold | kept hold =>
    rw [hgone] at hold
    cases hold

/-- An action frees the one instance that its deed tells. -/
theorem gone_of_freed {action : HostAction} {done : Outcome Rack Reply}
    (h : rack.act action = some done)
    (hfreed : (Deed.acted action done.result).freed? = some position) :
    0 < rack.handles position ∧ rack.Releases position done.state := by
  by_cases haction : action.leavesReferences
  · rw [(Deed.of_leavesReferences haction done.result).2.1] at hfreed
    cases hfreed
  cases action with
  | free target =>
    obtain ⟨hpos, hresult, hstate⟩ := act_free h
    rw [hresult] at hfreed
    rw [hstate]
    cases hfree : rack.freeResult target with
    | ok =>
      obtain ⟨hcurrent, hone⟩ := freeResult_eq_ok_iff.mp hfree
      rw [hfree] at hfreed
      cases hfreed
      rw [if_pos rfl]
      exact ⟨hpos, letGo_releases hone Nat.one_pos hcurrent⟩
    | error failure =>
      rw [hfree] at hfreed
      cases hfreed
  | tryFree target =>
    obtain ⟨hpos, hresult, hstate⟩ := act_tryFree h
    rw [hresult] at hfreed
    rw [hstate]
    cases hfree : rack.freeResult target with
    | ok =>
      obtain ⟨hcurrent, hone⟩ := freeResult_eq_ok_iff.mp hfree
      rw [hfree] at hfreed
      cases hfreed
      exact ⟨hpos, letGo_releases hone Nat.one_pos hcurrent⟩
    | error failure =>
      rw [hfree] at hfreed
      cases hfreed
  | _ => cases hfreed

/-- An operation has been run on one instance: it alone has changed, and no reference. -/
structure Attended {α : Type} (rack : Rack) (position : Nat) (operation : Visit α)
    (inst : Instance) (done : Outcome Rack α) : Prop where
  calls_eq : done.calls = (operation rack.environment rack.queues inst).calls
  result_eq : done.result = (operation rack.environment rack.queues inst).result
  live_eq : done.state.live = rack.live.set position
    (some (operation rack.environment rack.queues inst).state.2.2)
  tally_eq : done.state.tally = rack.tally
  current_eq : done.state.current = rack.current

theorem attended_of_attend {α : Type} {operation : Visit α} {done : Outcome Rack α}
    (h : rack.attend position operation = some done) :
    ∃ inst, rack.instance? position = some inst ∧ rack.Attended position operation inst done := by
  obtain ⟨inst, hinst, rfl⟩ := Option.map_eq_some_iff.mp h
  exact ⟨inst, hinst,
    { calls_eq := rfl
      result_eq := rfl
      live_eq := live_setInstance hinst _
      tally_eq := tally_setInstance _ position _
      current_eq := rfl }⟩

theorem exists_attended {α : Type} (operation : Visit α) {inst : Instance}
    (hinst : rack.instance? position = some inst) :
    ∃ done, rack.attend position operation = some done ∧
      rack.Attended position operation inst done := by
  have hdone : (rack.attend position operation).isSome := by
    rw [attend, hinst]
    rfl
  obtain ⟨done, hdone⟩ := Option.isSome_iff_exists.mp hdone
  obtain ⟨found, hfound, hattended⟩ := attended_of_attend hdone
  cases hfound.symm.trans hinst
  exact ⟨done, hdone, hattended⟩

/-! ## Whole runs -/

/-- The runs of a host: what it has done, the rack that it has come to, and the instance
that it is at work on while it holds the selector. -/
inductive Custody : List Deed → Rack → Option Nat → Prop
  | start : Custody [] {} none
  | act {deeds : List Deed} {rack : Rack} {busy : Option Nat} {action : HostAction}
      {done : Outcome Rack Reply} : Custody deeds rack busy →
        (busy = none ∨ action.asksSelector = false) → rack.act action = some done →
        Custody (deeds ++ [.acted action done.result]) done.state busy
  | operate {deeds : List Deed} {rack : Rack} {busy : Option Nat} {position : Nat} {α : Type}
      {operation : Visit α} {done : Outcome Rack α} : Custody deeds rack busy →
        rack.attend position operation = some done →
        Custody (deeds ++ [.operated position]) done.state busy
  | enterCurrent {deeds : List Deed} {rack inside : Rack} {position : Nat} :
      Custody deeds rack none → rack.withCurrent Prod.mk = some (inside, position) →
        Custody (deeds ++ [.enteredCurrent]) inside (some position)
  | enterSelected {deeds : List Deed} {rack inside : Rack} {position target : Nat}
      {calls : List Call} : Custody deeds rack none → (rack.shared? position).isSome →
        rack.withSelected position Prod.mk = ((inside, target), calls) →
        Custody (deeds ++ [.enteredSelected position]) inside (some target)
  | leave {deeds : List Deed} {rack : Rack} {busy : Option Nat} :
      Custody deeds rack busy → Custody (deeds ++ [.left]) rack none

/-- The references of a rack are those that deeds tell. -/
structure Tells (rack : Rack) (deeds : List Deed) (busy : Option Nat) : Prop where
  referred : rack.Referred
  current_eq : rack.current = lastSelection deeds
  handles_eq : ∀ position, rack.handles position = handlesLeft position deeds
  gone : ∀ position ∈ freed deeds,
    position < rack.live.length ∧ rack.instance? position = none
  busy_eq : ∀ position, busy = some position → rack.current = some position

namespace Tells
variable {deeds : List Deed} {busy : Option Nat}

theorem start : ({} : Rack).Tells [] none where
  referred := referred_fresh
  current_eq := rfl
  handles_eq _ := rfl
  gone := by
    intro position hfreed
    exact absurd hfreed List.not_mem_nil
  busy_eq := nofun

theorem act (h : rack.Tells deeds busy) {action : HostAction} {done : Outcome Rack Reply}
    (hbusy : busy = none ∨ action.asksSelector = false) (hdone : rack.act action = some done) :
    done.state.Tells (deeds ++ [Deed.acted action done.result]) busy := by
  obtain ⟨hreferred, hcurrent, hhandles⟩ := act_tells h.referred hdone
  refine ⟨hreferred, ?_, ?_, ?_, ?_⟩
  · rw [lastSelection_snoc, ← h.current_eq]
    exact hcurrent
  · intro position
    rw [handlesLeft_snoc, ← h.handles_eq]
    exact hhandles position
  · intro position hfreed
    rw [freed_snoc] at hfreed
    rcases List.mem_append.mp hfreed with hpast | hlast
    · obtain ⟨hlt, hgone⟩ := h.gone position hpast
      exact ⟨Nat.lt_of_lt_of_le hlt (act_changes hdone).length_le, act_gone hdone hlt hgone⟩
    · obtain ⟨hpos, hreleases⟩ := gone_of_freed hdone (Option.mem_toList.mp hlast)
      have halive : (rack.instance? position).isSome := by
        rw [isSome_instance?_eq_isSome_tally, tally_eq_some_of_handles_pos hpos]
        rfl
      obtain ⟨inst, hinst⟩ := Option.isSome_iff_exists.mp halive
      exact ⟨Nat.lt_of_lt_of_le (lt_length_of_instance? hinst) (act_changes hdone).length_le,
        hreleases.gone⟩
  · intro position heq
    rcases hbusy with hnone | hasks
    · rw [hnone] at heq
      cases heq
    · have hselection : (Deed.acted action done.result).selection? = none := by
        cases action with
        | select => cases hasks
        | _ => rfl
      rw [hcurrent, hselection]
      exact h.busy_eq position heq

/-- What leaves the selection, the handles and the instances that live as they are, and is
no deed about them. -/
theorem of_tally_eq (h : rack.Tells deeds busy) {deed : Deed} {next : Option Nat}
    (htally : after.tally = rack.tally) (hcurrent : after.current = rack.current)
    (hlength : after.live.length = rack.live.length) (hselection : deed.selection? = none)
    (hfreed : deed.freed? = none)
    (hhandles : ∀ position before, deed.handlesAfter position before = before)
    (hnext : ∀ position, next = some position → rack.current = some position) :
    after.Tells (deeds ++ [deed]) next where
  referred := h.referred.of_eq htally hcurrent
  current_eq := by
    rw [lastSelection_snoc, hselection, hcurrent]
    exact h.current_eq
  handles_eq := by
    intro position
    rw [handlesLeft_snoc, hhandles, ← h.handles_eq, handles_eq_getD_tally, htally]
    rfl
  gone := by
    intro position hmem
    rw [freed_snoc, hfreed, Option.toList_none, List.append_nil] at hmem
    rw [hlength, ← tally_eq_none_iff, htally, tally_eq_none_iff]
    exact h.gone position hmem
  busy_eq := by
    intro position heq
    rw [hcurrent]
    exact hnext position heq

theorem enterSelected (h : rack.Tells deeds none) (halive : (rack.tally position).isSome) :
    (rack.setCurrent (some position)).1.Tells (deeds ++ [Deed.enteredSelected position])
      (some position) where
  referred := by
    refine h.referred.setCurrent ?_
    rintro target heq
    cases heq
    exact halive
  current_eq := by
    rw [lastSelection_snoc, current_setCurrent]
    rfl
  handles_eq := by
    intro index
    rw [handlesLeft_snoc, handles_setCurrent]
    exact h.handles_eq index
  gone := by
    intro index hfreed
    have hpast : index ∈ freed deeds := by
      simpa [freed_snoc, Deed.freed?] using hfreed
    obtain ⟨hlt, hgone⟩ := h.gone index hpast
    have hdrops := rack.setCurrent_drops (some position)
    exact ⟨length_of_drops hdrops ▸ hlt, gone_of_drops hdrops hgone⟩
  busy_eq := by
    intro target heq
    cases heq
    exact rack.current_setCurrent (some position)

end Tells

theorem Custody.tells {deeds : List Deed} {busy : Option Nat} (h : Custody deeds rack busy) :
    rack.Tells deeds busy := by
  induction h with
  | start => exact .start
  | act _ hbusy hdone ih => exact ih.act hbusy hdone
  | operate _ hdone ih =>
    obtain ⟨inst, -, hattended⟩ := attended_of_attend hdone
    have hlength := congrArg List.length hattended.live_eq
    rw [List.length_set] at hlength
    exact ih.of_tally_eq hattended.tally_eq hattended.current_eq hlength rfl rfl
      (fun _ _ => rfl) ih.busy_eq
  | enterCurrent _ hinside ih =>
    obtain ⟨position, hcurrent, heq⟩ := Option.map_eq_some_iff.mp hinside
    cases heq
    exact ih.of_tally_eq rfl rfl rfl rfl rfl (fun _ _ => rfl)
      fun target htarget => htarget ▸ hcurrent
  | enterSelected _ halive hinside ih =>
    cases hinside
    rw [isSome_shared?_eq_isSome_tally] at halive
    exact ih.enterSelected halive
  | leave _ ih => exact ih.of_tally_eq rfl rfl rfl rfl rfl (fun _ _ => rfl) nofun

/-! ## What a host can rely on -/

/-- What becomes of freeing by way of a handle: if that fails, the rack is the one that
`failed` is; if it succeeds, the instance is gone and nothing else has changed. -/
structure Frees (rack : Rack) (deeds : List Deed) (position : Nat) (failed : Rack)
    (done : Outcome Rack Reply) : Prop where
  result_eq : done.result = freeing position deeds
  state_of_error : ∀ failure, done.result = .error failure → done.state = failed
  releases_of_ok : done.result = .ok .done → rack.Releases position done.state

/-- What a host can rely on, told from what it has done. -/
structure Safe (rack : Rack) (deeds : List Deed) (busy : Option Nat) : Prop where
  /-- The selection is the latest one, on a live instance that has not been freed. -/
  current_eq : rack.current = lastSelection deeds
  selection_alive : ∀ position, lastSelection deeds = some position →
    (rack.instance? position).isSome ∧ position ∉ freed deeds
  /-- Handles are counted exactly, and an instance lives as long as there are references. -/
  handles_eq : ∀ position, rack.handles position = handlesLeft position deeds
  alive_iff : ∀ position, (rack.instance? position).isSome ↔ 0 < references position deeds
  freed_gone : ∀ position ∈ freed deeds, rack.instance? position = none
  /-- Who has a handle can free with it; a failure changes nothing. -/
  free_frees : ∀ position, 0 < handlesLeft position deeds →
    ∃ done, rack.act (.free position) = some done ∧ rack.Frees deeds position rack done
  /-- Who only tries to free is told the same, and loses that handle and nothing else. -/
  tryFree_frees : ∀ position, 0 < handlesLeft position deeds →
    ∃ done, rack.act (.tryFree position) = some done ∧
      rack.Frees deeds position (rack.giveBack position 1) done
  /-- Work on the selected instance is work on the latest selection, from start to end. -/
  busy_selected : ∀ position, busy = some position → lastSelection deeds = some position
  withCurrent_eq : ∀ {α : Type} (operation : Rack → Nat → α),
    rack.withCurrent operation = (lastSelection deeds).map (operation rack)
  withCurrent_runs : ∀ {α : Type} (operation : Visit α) (position : Nat),
    lastSelection deeds = some position →
      ∃ inst done, rack.instance? position = some inst ∧
        (rack.withCurrent fun rack target => rack.attend target operation) = some (some done) ∧
        rack.Attended position operation inst done
  /-- An instance is selected before the operation is run on it, and is the same as before. -/
  withSelected_runs : ∀ position, 0 < references position deeds →
    ∃ inside calls inst, inside.current = some position ∧
      rack.instance? position = some inst ∧ inside.instance? position = some inst ∧
      (∀ {α : Type} (operation : Rack → Nat → α),
        rack.withSelected position operation = (operation inside position, calls)) ∧
      ∀ {α : Type} (operation : Visit α), ∃ done,
        inside.attend position operation = some done ∧
          inside.Attended position operation inst done

section Safe
variable {deeds : List Deed} {busy : Option Nat}

theorem Tells.isSome_instance?_iff (h : rack.Tells deeds busy) (position : Nat) :
    (rack.instance? position).isSome ↔ 0 < references position deeds := by
  rw [isSome_instance?_eq_isSome_tally, h.referred.isSome_iff, references_pos_iff, h.handles_eq,
    h.current_eq]

theorem Tells.freeResult_map (h : rack.Tells deeds busy) (position : Nat) :
    (rack.freeResult position).map (fun _ => Reply.done) = freeing position deeds := by
  rw [freeResult, freeing, references, h.current_eq, h.handles_eq]
  split
  · rfl
  · rw [Nat.add_zero]
    split <;> rfl

theorem Tells.free_frees (h : rack.Tells deeds busy) (hpos : 0 < handlesLeft position deeds) :
    ∃ done, rack.act (.free position) = some done ∧ rack.Frees deeds position rack done := by
  rw [← h.handles_eq] at hpos
  obtain ⟨freed, hfreed, -⟩ := free_eq hpos
  have hdone : rack.act (.free position) = some (freed.view fun _ => .done) := by
    rw [Rack.act, if_pos hpos, hfreed, Option.map_some]
  obtain ⟨-, hresult, hstate⟩ := act_free hdone
  refine ⟨_, hdone, hresult.trans (h.freeResult_map position), ?_, ?_⟩
  · intro failure hfailure
    refine hstate.trans (if_neg ?_)
    intro hok
    rw [hresult, hok] at hfailure
    cases hfailure
  · intro hok
    refine (gone_of_freed hdone ?_).2
    rw [hok]
    rfl

theorem Tells.tryFree_frees (h : rack.Tells deeds busy) (hpos : 0 < handlesLeft position deeds) :
    ∃ done, rack.act (.tryFree position) = some done ∧
      rack.Frees deeds position (rack.giveBack position 1) done := by
  rw [← h.handles_eq] at hpos
  obtain ⟨freed, hfreed, -⟩ := tryFree_eq hpos
  have hdone : rack.act (.tryFree position) = some (freed.view fun _ => .done) := by
    rw [Rack.act, if_pos hpos, hfreed, Option.map_some]
  obtain ⟨-, hresult, hstate⟩ := act_tryFree hdone
  refine ⟨_, hdone, hresult.trans (h.freeResult_map position), ?_, ?_⟩
  · intro failure hfailure
    refine hstate.trans (letGo_eq_giveBack ?_)
    -- Freeing has failed, so something else still refers to the instance.
    by_contra hunused
    obtain ⟨hle, hunselected⟩ := not_or.mp hunused
    have hone : rack.handles position = 1 := Nat.le_antisymm (Nat.le_of_not_lt hle) hpos
    rw [hresult, freeResult_eq_ok_iff.mpr ⟨hunselected, hone⟩] at hfailure
    cases hfailure
  · intro hok
    refine (gone_of_freed hdone ?_).2
    rw [hok]
    rfl

/-- Selecting and freeing are safe in every order. -/
theorem Custody.selection_safe (h : Custody deeds rack busy) : rack.Safe deeds busy := by
  have htells := h.tells
  have hselected : ∀ position, lastSelection deeds = some position →
      (rack.instance? position).isSome := by
    intro position hposition
    rw [htells.isSome_instance?_iff, references_pos_iff]
    exact .inr hposition
  exact
    { current_eq := htells.current_eq
      selection_alive := by
        intro position hposition
        refine ⟨hselected position hposition, fun hfreed => ?_⟩
        have halive := hselected position hposition
        rw [(htells.gone position hfreed).2] at halive
        cases halive
      handles_eq := htells.handles_eq
      alive_iff := htells.isSome_instance?_iff
      freed_gone := fun position hfreed => (htells.gone position hfreed).2
      free_frees := fun _ => htells.free_frees
      tryFree_frees := fun _ => htells.tryFree_frees
      busy_selected := by
        intro position hposition
        rw [← htells.current_eq]
        exact htells.busy_eq position hposition
      withCurrent_eq := by
        intro α operation
        rw [withCurrent, htells.current_eq]
      withCurrent_runs := by
        intro α operation position hposition
        obtain ⟨inst, hinst⟩ := Option.isSome_iff_exists.mp (hselected position hposition)
        obtain ⟨done, hdone, hattended⟩ := exists_attended operation hinst
        refine ⟨inst, done, hinst, ?_, hattended⟩
        rw [withCurrent, htells.current_eq, hposition, Option.map_some, hdone]
      withSelected_runs := by
        intro position hposition
        obtain ⟨inst, hinst⟩ :=
          Option.isSome_iff_exists.mp ((htells.isSome_instance?_iff position).mpr hposition)
        have hinside : (rack.setCurrent (some position)).1.instance? position = some inst := by
          rw [instance?, shared?_setCurrent_self]
          exact hinst
        exact ⟨_, _, inst, rack.current_setCurrent (some position), hinst, hinside,
          fun _ => rfl, fun operation => exists_attended operation hinside⟩ }

/-- Two instances take turns: a handle on the first one is refused while that one is selected
and given back while it is kept twice. -/
def turnsOfTwo : List Deed :=
  [.acted (.create none) (.ok (.index 0)), .acted (.create none) (.ok (.index 1)),
    .acted (.select (some 0)) (.ok .done), .acted (.hold 0) (.ok .done),
    .acted (.free 0) (.error .instanceSelected), .enteredSelected 1, .operated 1,
    .acted (.letGo 0 1) (.ok .done), .left]

theorem exists_custody_turnsOfTwo : ∃ rack, Custody turnsOfTwo rack none := by
  have first := Custody.start.act (.inl rfl) (show Rack.act _ (.create none) = some _ from rfl)
  have second := first.act (.inl rfl) (show Rack.act _ (.create none) = some _ from rfl)
  have selected := second.act (.inl rfl) (show Rack.act _ (.select (some 0)) = some _ from rfl)
  have kept := selected.act (.inl rfl) (show Rack.act _ (.hold 0) = some _ from rfl)
  have refused := kept.act (.inl rfl) (show Rack.act _ (.free 0) = some _ from rfl)
  have entered := refused.enterSelected (show (Rack.shared? _ 1).isSome from rfl) rfl
  have extended := entered.operate (show Rack.attend _ 1 (fun environment queues inst =>
    { state := (environment, queues, { inst with extension := some 7 }), result := .ok () }) =
      some _ from rfl)
  have given := extended.act (.inr rfl) (show Rack.act _ (.letGo 0 1) = some _ from rfl)
  exact ⟨_, given.leave⟩

theorem selection_safe_turnsOfTwo :
    ∃ rack, Custody turnsOfTwo rack none ∧ rack.Safe turnsOfTwo none ∧
      rack.current = some 1 ∧ rack.handles 0 = 1 ∧
      freeing 0 turnsOfTwo = .ok .done ∧ freeing 1 turnsOfTwo = .error .instanceSelected := by
  obtain ⟨rack, hrack⟩ := exists_custody_turnsOfTwo
  have hsafe := hrack.selection_safe
  exact ⟨rack, hrack, hsafe, hsafe.current_eq, hsafe.handles_eq 0, rfl, rfl⟩

end Safe

end Rack

end Patchbay
