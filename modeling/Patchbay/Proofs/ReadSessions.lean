import Patchbay.Proofs.Processes
import Patchbay.Proofs.ReadRacks

/-!
# Sessions read by names

A session of a process, read by names, is the session of a rack that has never seen a
number. So whatever else is numbered in the meantime, by the host or for other patches, is
seen in no event, no result, no sample and no later state.

## Implementation notes

Only the tables at the end of a session are asked to fit. All earlier ones are parts of
them.
-/

namespace Patchbay.Numbered

variable {ρ : Reading} {tables : Tables}

/-- What is made of a value, of its meaning. -/
theorem means_view {State State' Value Shown : Type} [Named State State']
    {done : Outcome State Value} {done' : Patchbay.Outcome State' Value}
    (h : Means tables done done') (view : Value → Shown) :
    Means tables (done.view view) (done'.view view) := by
  intro hproper ρ hρ
  rw [← h hproper ρ hρ]
  rfl

namespace Numbering

/-! ## Requests -/

section
variable {inst : Instance} {inst' : Patchbay.Instance}

theorem means_within {α : Type} {done : Outcome Instance α}
    {done' : Patchbay.Outcome Patchbay.Instance α} (h : Means tables done done')
    (environment : Environment) :
    Means tables (done.within environment) (done'.within environment) := by
  intro hproper ρ hρ
  rw [← h hproper ρ hρ]
  rfl

/-- A change that cannot fail, as the answer to a request. -/
theorem means_changed {changed : Instance × List Call}
    {changed' : Patchbay.Instance × List Patchbay.Call} (h : Means tables changed changed')
    (environment : Environment) :
    Means tables ((Outcome.ofChange changed).within environment)
      ((Patchbay.Outcome.ofChange changed').within environment) :=
  means_within (means_outcome h.fst h.snd (.ok Reply.done)) environment

theorem means_unbind (h : Means tables inst inst') {number : Tie} {tie : Patchbay.Tie}
    (hnumber : Means tables number tie) (environment : Environment) :
    Means tables
      ({ state := (environment, { inst with hooks := (inst.hooks.unbind number).1 })
         result := .ok (.flag (inst.hooks.unbind number).2) } : Outcome _ Reply)
      ({ state := (environment, { inst' with hooks := (inst'.hooks.unbind tie).1 })
         result := .ok (.flag (inst'.hooks.unbind tie).2) } : Patchbay.Outcome _ Reply) := by
  intro hproper ρ hρ
  rw [← h hproper ρ hρ, ← hnumber hproper ρ hρ]
  exact congrArg
    (fun unbound =>
      ({ state := (environment, { named ρ inst with hooks := unbound.1 })
         result := .ok (.flag unbound.2) } : Patchbay.Outcome _ Reply))
    (hρ.unbind_named inst.hooks number).symm

theorem gives_serve (h : Means tables inst inst') (environment : Environment)
    (request : Request) :
    Gives tables (inst.serve environment request) (inst'.serve environment request) := by
  have hkept {later : Tables} {changed : Instance} {changed' : Patchbay.Instance}
      (h : Means later changed changed') :
      Means later ((Outcome.ofChange (changed, [])).within environment)
        ((Patchbay.Outcome.ofChange (changed', [])).within environment) :=
    means_changed (h.prod (.of_named fun _ _ => rfl)) environment
  cases request with
  | setConsole sink =>
    exact .pure (hkept (h.map
      (f := fun inst => { inst with hooks := { inst.hooks with console := sink } })
      (g := fun inst => { inst with hooks := { inst.hooks with console := sink } })
      fun _ _ => rfl))
  | setMidi sink =>
    exact .pure (hkept (h.map
      (f := fun inst => { inst with hooks := { inst.hooks with midi := sink } })
      (g := fun inst => { inst with hooks := { inst.hooks with midi := sink } })
      fun _ _ => rfl))
  | bind tie sink =>
    refine (gives_tie tables tie.name).bind fun later hlater number hnumber => ?_
    exact .pure (hkept ((h.mono hlater).map₂ hnumber
      (f := fun inst tie => { inst with hooks := inst.hooks.bind tie sink })
      (g := fun inst tie => { inst with hooks := inst.hooks.bind tie sink }) fun _ _ => rfl))
  | unbind tie =>
    refine (gives_tie tables tie.name).bind fun later hlater number hnumber => ?_
    exact .pure (means_unbind (h.mono hlater) hnumber environment)
  | setExtension extension =>
    exact .pure (hkept (h.map (f := fun inst => { inst with extension })
      (g := fun inst => { inst with extension }) fun _ _ => rfl))
  | post level text =>
    refine .pure (means_changed (h.prod ?_) environment)
    exact h.map (f := fun inst => inst.post level text) (g := fun inst => inst.post level text)
      fun _ _ => (post_hooks_named _ _ level text).symm
  | send tie message =>
    refine (gives_tie tables tie.name).bind fun later hlater number hnumber => ?_
    refine (gives_message later message).bind fun second hsecond sent hsent => ?_
    refine (gives_sendTie ((h.mono hlater).mono hsecond) (hnumber.mono hsecond) hsent).bind
      fun last _ changed hchanged => ?_
    exact .pure (means_changed hchanged environment)
  | midi event =>
    refine (gives_midiEvent h event).bind fun later _ changed hchanged => ?_
    exact .pure (means_changed hchanged environment)
  | load name directory =>
    refine (gives_load h environment name directory).bind fun later _ done hdone => ?_
    exact .pure (means_view hdone Reply.handle)
  | close id => exact .pure (means_within (means_view (means_close h id) _) environment)
  | prepare format => exact .pure (means_within (means_view (means_prepare h format) _) environment)
  | release => exact .pure (means_changed (means_release h) environment)

end

/-! ## Actions -/

section
variable {rack : Rack} {rack' : Patchbay.Rack}

theorem means_instance? (h : Means tables rack rack') (position : Nat) :
    Means tables (rack.instance? position) (rack'.instance? position) :=
  h.map (f := fun rack => rack.instance? position) (g := fun rack => rack.instance? position)
    fun _ _ => (Rack.instance?_named _ position).symm

theorem gives_run {α : Type} (h : Means tables rack rack') (position : Nat)
    {f : Environment → Instance → Numbering (Outcome (Environment × Instance) α)}
    {g : Environment → Patchbay.Instance →
      Patchbay.Outcome (Environment × Patchbay.Instance) α}
    (hfg : ∀ environment inst inst', Means tables inst inst' →
      Gives tables (f environment inst) (g environment inst')) :
    Gives tables (rack.run position f) (rack'.run position g) := by
  refine .of_proper fun hproper => ?_
  have henvironment : rack'.environment = rack.environment := h.same hproper fun _ _ => rfl
  have hinst := means_instance? h position
  unfold Rack.run Patchbay.Rack.run
  rw [henvironment]
  rcases hinst.option hproper with ⟨hnone, hnone'⟩ | ⟨inst, inst', hsome, hsome', hinst⟩
  · rw [hnone, hnone']
    exact .pure (.of_named fun _ _ => rfl)
  · rw [hsome, hsome']
    refine (hfg rack.environment inst inst' hinst).bind fun later hlater done hdone => ?_
    refine .pure fun hproper ρ hρ => ?_
    rw [Option.map_some, ← hdone hproper ρ hρ, ← (h.mono hlater) hproper ρ hρ]
    obtain ⟨⟨environment, inst⟩, calls, result⟩ := done
    refine congrArg (fun state => some ({ state, calls := named ρ calls, result } :
      Patchbay.Outcome Patchbay.Rack α)) ?_
    rw [← Rack.record_named, ← Rack.setInstance_named]
    rfl

theorem gives_runPending (h : Means tables rack rack') (position size : Nat)
    (inputs outputs : List Block) :
    Gives tables
      (rack.run position fun environment inst => do
        let done ← inst.perform (rack.pending inst) size inputs outputs
        return { state := (environment, done.state), calls := done.calls, result := done.result })
      (rack'.runAlone position fun inst =>
        inst.perform (rack'.pending inst) size inputs outputs) := by
  refine gives_run h position fun environment inst inst' hinst => ?_
  have hpending : Means tables (rack.pending inst) (rack'.pending inst') :=
    h.map₂ hinst fun _ _ => (Rack.pending_named rack inst).symm
  refine (gives_performBlock hinst hpending size inputs outputs).bind fun later _ done hdone => ?_
  exact .pure (means_within hdone environment)

theorem gives_performAt (h : Means tables rack rack') (position size : Nat)
    (inputs outputs : List Block) :
    Gives tables (rack.perform position size inputs outputs)
      (rack'.perform position size inputs outputs) := by
  refine .of_proper fun hproper => ?_
  unfold Rack.perform Patchbay.Rack.perform
  rcases (means_instance? h position).option hproper with
    ⟨hnone, hnone'⟩ | ⟨inst, inst', hsome, hsome', hinst⟩
  · rw [hnone, hnone']
    exact .pure (.of_named fun _ _ => rfl)
  · rw [hsome, hsome']
    refine (gives_runPending h position size inputs outputs).bind fun later hlater ran hran => ?_
    refine .pure (hran.optionMap fun {done done'} hdone hproper ρ hρ => ?_)
    rw [← hdone hproper ρ hρ, ← hinst.mono hlater hproper ρ hρ]
    -- The commands are taken only if the block has been run.
    obtain ⟨state, calls, failure | blocks⟩ := done
    · rfl
    · exact congrArg
        (fun state => ({ state, calls := named ρ calls, result := .ok blocks } :
          Patchbay.Outcome Patchbay.Rack (List Block))) (Rack.drain_named state inst).symm

theorem means_settled (h : Means tables rack rack') (reply : Reply) {calls : List Call}
    {calls' : List Patchbay.Call} (hcalls : Means tables calls calls') :
    Means tables (some (rack.settled reply calls)) (some (rack'.settled reply calls')) :=
  (means_outcome h hcalls (.ok reply)).some

/-- Changes that cannot fail settle alike. -/
theorem means_settled_done {changed : Rack × List Call}
    {changed' : Patchbay.Rack × List Patchbay.Call} (h : Means tables changed changed') :
    Means tables (some (changed.1.settled .done changed.2))
      (some (changed'.1.settled .done changed'.2)) :=
  means_settled h.fst .done h.snd

theorem gives_commandOfNamed (tables : Tables) (command : Patchbay.Command) :
    Gives tables (Command.ofNamed command) command := by
  cases command with
  | send tie message =>
    refine (gives_tie tables tie.name).bind fun later _ number hnumber => ?_
    refine (gives_message later message).bind fun second hsecond sent hsent => ?_
    exact .pure ((hnumber.mono hsecond).map₂ hsent (f := Command.send)
      (g := Patchbay.Command.send) fun _ _ => rfl)
  | midi event => exact .pure (.of_named fun _ _ => rfl)

theorem isSome_shared?_eq (h : Means tables rack rack') (hproper : tables.Proper)
    (position : Nat) : (rack'.shared? position).isSome = (rack.shared? position).isSome :=
  h.same hproper (f := fun rack => (rack.shared? position).isSome)
    (g := fun rack => (rack.shared? position).isSome) fun ρ _ => by
      rw [Rack.shared?_named]
      exact Option.isSome_map

theorem handles_eq (h : Means tables rack rack') (hproper : tables.Proper) (position : Nat) :
    rack'.handles position = rack.handles position :=
  h.same hproper (f := fun rack => rack.handles position)
    (g := fun rack => rack.handles position) fun ρ _ => by
      rw [Patchbay.Rack.handles, Rack.handles, Rack.shared?_named]
      cases rack.shared? position <;> rfl

/-- An instance is freed by way of a handle. -/
theorem gives_freeing (h : Means tables rack rack') (position : Nat)
    {freed : Option (Outcome Rack Unit)} {freed' : Option (Patchbay.Outcome Patchbay.Rack Unit)}
    (hfreed : Means tables freed freed') :
    Gives tables
      (pure (if 0 < rack.handles position then freed.map fun done => done.view fun _ => Reply.done
        else none) : Numbering (Option (Outcome Rack Reply)))
      (if 0 < rack'.handles position then freed'.map fun done => done.view fun _ => Reply.done
        else none) := by
  refine .of_proper fun hproper => .pure ?_
  rw [handles_eq h hproper]
  split
  · exact hfreed.optionMap fun hdone => means_view hdone _
  · exact .of_named fun _ _ => rfl

theorem gives_enqueue (h : Means tables rack rack') (queue : Nat) (command : Patchbay.Command) :
    Gives tables (rack.act (.enqueue queue command)) (rack'.act (.enqueue queue command)) := by
  refine .of_proper fun hproper => ?_
  have hlength : rack'.queues.length = rack.queues.length :=
    h.same hproper (f := fun rack => rack.queues.length)
      (g := fun rack => rack.queues.length) fun _ _ => List.length_map _
  simp only [Rack.act, Patchbay.Rack.act]
  rw [hlength]
  split
  · refine (gives_commandOfNamed tables command).bind fun later hlater number hcommand => ?_
    have hdone : Means later (rack.enqueue queue number) (rack'.enqueue queue command) :=
      (h.mono hlater).map₂ hcommand (f := fun rack number => rack.enqueue queue number)
        (g := fun rack command => rack.enqueue queue command)
        fun _ _ => (rack.enqueue_named queue number).symm
    exact .pure (means_view hdone _).some
  · exact .pure (.of_named fun _ _ => rfl)

/-- What a process does by numbers, a rack does by names. -/
theorem gives_act (h : Means tables rack rack') (action : HostAction) :
    Gives tables (rack.act action) (rack'.act action) := by
  refine .of_proper fun hproper => ?_
  cases action with
  | create extension =>
    refine .pure fun hproper ρ hρ => ?_
    rw [← h hproper ρ hρ]
    simp only [Patchbay.Rack.act]
    rw [Rack.create_named]
    rfl
  | request position request =>
    exact gives_run h position fun environment inst inst' hinst =>
      gives_serve hinst environment request
  | perform position size inputs outputs =>
    refine (gives_performAt h position size inputs outputs).bind fun later _ done hdone => ?_
    exact .pure (hdone.optionMap fun hdone => means_view hdone Reply.outputs)
  | openQueue position capacity =>
    refine .pure fun hproper ρ hρ => ?_
    rw [← h hproper ρ hρ]
    simp only [Patchbay.Rack.act]
    rw [Rack.openQueue_named]
    cases rack.openQueue position capacity <;> rfl
  | enqueue queue command => exact gives_enqueue h queue command
  | select selection =>
    have hselected : Means tables (rack.setCurrent selection) (rack'.setCurrent selection) :=
      h.map (f := fun rack => rack.setCurrent selection)
        (g := fun rack => rack.setCurrent selection)
        fun _ _ => (rack.setCurrent_named selection).symm
    cases selection with
    | none => exact .pure (means_settled_done hselected)
    | some position =>
      simp only [Rack.act, Patchbay.Rack.act]
      rw [isSome_shared?_eq h hproper]
      split
      · exact .pure (means_settled_done hselected)
      · exact .pure (.of_named fun _ _ => rfl)
  | hold position =>
    have hheld : Means tables (rack.hold position) (rack'.hold position) :=
      h.map (f := fun rack => rack.hold position) (g := fun rack => rack.hold position)
        fun _ _ => (rack.hold_named position).symm
    simp only [Rack.act, Patchbay.Rack.act]
    rw [isSome_shared?_eq h hproper]
    refine .pure ?_
    split
    · exact means_settled hheld .done means_nil
    · exact .of_named fun _ _ => rfl
  | letGo position count =>
    have hless : Means tables (rack.letGo position count) (rack'.letGo position count) :=
      h.map (f := fun rack => rack.letGo position count)
        (g := fun rack => rack.letGo position count)
        fun _ _ => (rack.letGo_named position count).symm
    simp only [Rack.act, Patchbay.Rack.act]
    rw [handles_eq h hproper]
    split
    · exact .pure (means_settled_done hless)
    · exact .pure (.of_named fun _ _ => rfl)
  | free position =>
    exact gives_freeing h position (h.map (f := fun rack => rack.free position)
      (g := fun rack => rack.free position) fun _ _ => (rack.free_named position).symm)
  | tryFree position =>
    exact gives_freeing h position (h.map (f := fun rack => rack.tryFree position)
      (g := fun rack => rack.tryFree position) fun _ _ => (rack.tryFree_named position).symm)
  | openHistory | clearHistory | setFiles =>
    refine .pure fun hproper ρ hρ => ?_
    rw [← h hproper ρ hρ]
    rfl
  | addSearchPath directory =>
    refine .pure fun hproper ρ hρ => ?_
    rw [← h hproper ρ hρ]
    let environment := (rack.environment.addSearchPath directory).1
    exact congrArg
      (fun calls => some (({ named ρ rack with environment } : Patchbay.Rack).settled .done calls))
      (named_plain _)
  | clearSearchPath =>
    refine .pure fun hproper ρ hρ => ?_
    rw [← h hproper ρ hρ]
    let environment := rack.environment.clearSearchPath.1
    exact congrArg
      (fun calls => some (({ named ρ rack with environment } : Patchbay.Rack).settled .done calls))
      (named_plain _)

/-! ## Questions -/

theorem gives_instanceAnswer {inst : Instance} {inst' : Patchbay.Instance}
    (h : Means tables inst inst') (query : Query) :
    Gives tables (inst.answer query) (inst'.answer query) := by
  have hslots : Means tables inst.engine.slots inst'.engine.slots :=
    h.map (f := fun inst => inst.engine.slots) (g := fun inst => inst.engine.slots) fun _ _ => rfl
  have hfound (id : PatchId) : Means tables (inst.engine.slots.patch? id) (inst'.patch? id) :=
    hslots.map (f := fun slots => slots.patch? id)
      (g := fun slots => Patchbay.Slots.patch? slots id)
      fun _ _ => (Slots.patch?_named _ id).symm
  cases query with
  | bindingCount tie =>
    refine (gives_tie tables tie.name).bind fun later hlater number hnumber => ?_
    refine .pure fun hproper ρ hρ => ?_
    have hbound := hρ.bound_named inst.hooks number
    rw [hnumber hproper ρ hρ] at hbound
    rw [← h.mono hlater hproper ρ hρ]
    exact congrArg (fun sinks : List MessageSink => Patchbay.Answer.count sinks.length) hbound.symm
  | patches =>
    exact .pure (hslots.map (f := fun slots => Answer.patches slots.patches)
      (g := fun slots => Patchbay.Answer.patches (Patchbay.Slots.patches slots))
      fun _ _ => congrArg Patchbay.Answer.patches (Slots.patches_named _).symm)
  | patch id => exact .pure ((hfound id).map (f := Answer.patch) (g := .patch) fun _ _ => rfl)
  | tieFor id ending =>
    refine .of_proper fun hproper => ?_
    simp only [Instance.answer, Patchbay.Instance.answer]
    rcases (hfound id).option hproper with ⟨hnone, hnone'⟩ | ⟨patch, patch', hsome, hsome', h'⟩
    · rw [hnone, hnone']
      exact .pure (.of_named fun _ _ => rfl)
    · rw [hsome, hsome']
      have hnumber : patch'.dollarZero = patch.dollarZero := h'.same hproper fun _ _ => rfl
      refine (gives_tie tables _).bind fun _ _ tie htie => ?_
      rw [← hnumber] at htie
      exact .pure (htie.map (f := fun tie => Answer.tie (some tie))
        (g := fun tie => Patchbay.Answer.tie (some tie)) fun _ _ => rfl)
  | standing =>
    refine .pure fun hproper ρ hρ => ?_
    rw [← h hproper ρ hρ]
    rfl

theorem gives_rackAnswer (h : Means tables rack rack') (position : Nat) (query : Query) :
    Gives tables (rack.answer position query)
      ((rack'.instance? position).map fun inst => inst.answer query) := by
  refine .of_proper fun hproper => ?_
  have hinst := means_instance? h position
  unfold Rack.answer
  rcases hinst.option hproper with ⟨hnone, hnone'⟩ | ⟨inst, inst', hsome, hsome', hinst⟩
  · rw [hnone, hnone']
    exact .pure (.of_named fun _ _ => rfl)
  · rw [hsome, hsome']
    exact (gives_instanceAnswer hinst query).bind fun _ _ _ htold => .pure htold.some

end

end Numbering

instance : LawfulNamed Answer where
  named_eq h x hx := by
    cases x with
    | patches found => exact congrArg _ (named_eq h (Patchbay.Answer.patches.inj hx))
    | patch found => exact congrArg _ (named_eq h (Patchbay.Answer.patch.inj hx))
    | tie found => exact congrArg _ (named_eq h (Patchbay.Answer.tie.inj hx))
    | count | standing => rfl

/-! ## Sessions -/

/-- The calls that are seen, by number. -/
def Sight.calls : Sight → List Call
  | .turn _ _ done _ => done.calls
  | .answer .. => []

namespace Process

/-- A session only numbers names. -/
theorem later_course (process : Process) (h : process.tables.Grown) (errands : List Errand) :
    process.tables.Later (process.course errands).2 := by
  induction errands generalizing process with
  | nil => exact .refl h
  | cons errand rest ih =>
    cases errand with
    | intern use =>
      have hlater := h.later_note use
      exact hlater.trans (ih { process with tables := process.tables.note use } hlater.grown)
    | ask position query =>
      have hlater := (process.rack.answer position query).later_run h
      exact hlater.trans (ih { process with tables := _ } hlater.grown)
    | act action =>
      have hlater := (process.rack.act action).later_run h
      unfold course
      dsimp only
      split
      · exact hlater.trans (ih { tables := _, rack := _ } hlater.grown)
      · exact hlater

/-- What is seen of a process, read by names, is what is seen of a rack of names. -/
theorem named_course (process : Process) {rack : Patchbay.Rack} (hgrown : process.tables.Grown)
    (h : Means process.tables process.rack rack) (errands : List Errand)
    (hfits : (process.course errands).2.Fits) :
    (process.course errands).1.map Sight.named = rack.sights errands := by
  induction errands generalizing process rack with
  | nil => rfl
  | cons errand rest ih =>
    cases errand with
    | intern use =>
      have hlater := hgrown.later_note use
      exact ih { process with tables := _ } hlater.grown (h.mono hlater) hfits
    | ask position query =>
      have hlater := (process.rack.answer position query).later_run hgrown
      have hend := later_course { process with tables := _ } hlater.grown rest
      have hproper := hend.proper ⟨hend.grown, hfits⟩
      have htold := Numbering.gives_rackAnswer h position query hgrown
      have hrest := ih { process with tables := _ } hlater.grown (h.mono hlater) hfits
      exact congrArg₂ List.cons (congrArg Patchbay.Sight.answer (htold.named_reading hproper)) hrest
    | act action =>
      have hlater := (process.rack.act action).later_run hgrown
      have hacted := Numbering.gives_act h action hgrown
      have hend : ((process.rack.act action).run process.tables).2.Later
          (process.course (.act action :: rest)).2 := by
        unfold course
        dsimp only
        split
        · exact later_course { tables := _, rack := _ } hlater.grown rest
        · exact .refl hlater.grown
      have hproper := hend.proper ⟨hend.grown, hfits⟩
      have hbefore := h.named_reading (hlater.proper hproper)
      rcases hacted.option hproper with ⟨hnone, hnone'⟩ | ⟨done, done', hsome, hsome', hdone⟩
      · simp only [course, hnone, Patchbay.Rack.sights, hnone', List.map_nil]
      · have hafter : Means _ done.state done'.state :=
          hdone.map (f := Outcome.state) (g := Patchbay.Outcome.state) fun _ _ => rfl
        simp only [course, hsome] at hfits ⊢
        simp only [Patchbay.Rack.sights, hsome', List.map_cons]
        refine congrArg₂ List.cons ?_ (ih { tables := _, rack := _ } hlater.grown hafter hfits)
        show Patchbay.Sight.turn { before := _, action, done := _ } = _
        rw [hbefore, hdone.named_reading hproper]

/-- Names that are numbered for nothing are not seen in a rack of names. -/
theorem sights_filter (rack : Patchbay.Rack) (errands : List Errand) :
    rack.sights (errands.filter fun errand => !errand.isIntern) = rack.sights errands := by
  induction errands generalizing rack with
  | nil => rfl
  | cons errand rest ih =>
    cases errand with
    | intern use => exact ih rack
    | ask position query => exact congrArg (List.cons _) (ih rack)
    | act action =>
      show rack.sights (.act action :: rest.filter _) = _
      unfold Patchbay.Rack.sights
      split
      · exact congrArg (List.cons _) (ih _)
      · rfl

/-- What is seen of a process depends on no names that are numbered besides: sessions that
differ in these alone are read alike by names, as what is seen of a rack where nothing is
numbered. -/
theorem named_course_eq_of_filter_eq {errands others : List Errand}
    (h : errands.filter (fun errand => !errand.isIntern) =
      others.filter fun errand => !errand.isIntern)
    (hfits : (({} : Process).course errands).2.Fits)
    (hothers : (({} : Process).course others).2.Fits) :
    (({} : Process).course errands).1.map Sight.named =
        (({} : Process).course others).1.map Sight.named ∧
      (({} : Process).course others).1.map Sight.named = ({} : Patchbay.Rack).sights others := by
  have hnamed (errands : List Errand) (hfits : (({} : Process).course errands).2.Fits) :
      (({} : Process).course errands).1.map Sight.named = ({} : Patchbay.Rack).sights errands :=
    named_course {} Tables.grown_fresh (.of_named fun _ _ => rfl) errands hfits
  have hsame : ({} : Patchbay.Rack).sights errands = ({} : Patchbay.Rack).sights others := by
    rw [← sights_filter, h, sights_filter]
  exact ⟨(hnamed errands hfits).trans (hsame.trans (hnamed others hothers).symm),
    hnamed others hothers⟩

/-- A session on one patch, in which a receiver passes a queued symbol on to a sink. -/
def relayed : List Errand :=
  [.act (.create none),
    .act (.setFiles
      { entries :=
          [(["a.pd"], .file (.text ("#N canvas 0 0 9 9 10;\n#X obj 0 0 r \\$0-x;\n" ++
            "#X msg 0 0 \\; out told \\$1;\n#X connect 0 0 1 0;\n")))] }),
    .act (.request 0 (.bind ⟨"out"⟩ (.raw "sink"))),
    .act (.request 0 (.load "/a.pd" "")),
    .ask 0 (.tieFor ⟨0, 1⟩ "-x"),
    .act (.request 0 (.prepare { inputs := 0, outputs := 0 })),
    .act (.openQueue 0 1),
    .act (.enqueue 0 (.send ⟨"1000-x"⟩ (.symbol ⟨"hello"⟩))),
    .act (.perform 0 64 [] [])]

/-- The same session with names numbered before it and in its midst. -/
def crowded : List Errand :=
  .intern (.tie ⟨"told"⟩) :: .intern (.symbol ⟨"out"⟩) :: .intern (.tie ⟨"1000-x"⟩) ::
    relayed.take 3 ++ .intern (.symbol ⟨"hello"⟩) :: .intern (.tie ⟨""⟩) :: relayed.drop 3

/-- By number, the sink is told different things in the two sessions. -/
theorem named_course_eq_of_filter_eq_crowded :
    (relayed.filter (fun errand => !errand.isIntern) =
        crowded.filter fun errand => !errand.isIntern) ∧
      (({} : Process).course relayed).2.Fits ∧ (({} : Process).course crowded).2.Fits ∧
      (({} : Process).course relayed).1.getLast?.map Sight.calls =
        some [.message "sink" ⟨1⟩ (.anything ⟨9⟩ [.symbol ⟨12⟩])] ∧
      (({} : Process).course crowded).1.getLast?.map Sight.calls =
        some [.message "sink" ⟨3⟩ (.anything ⟨11⟩ [.symbol ⟨8⟩])] ∧
      (({} : Process).course relayed).1.map Sight.named =
          (({} : Process).course crowded).1.map Sight.named ∧
        (({} : Process).course crowded).1.map Sight.named =
          ({} : Patchbay.Rack).sights crowded := by
  have ⟨hfits, hcrowded, htold, htold'⟩ :
      (({} : Process).course relayed).2.Fits ∧ (({} : Process).course crowded).2.Fits ∧
        (({} : Process).course relayed).1.getLast?.map Sight.calls =
          some [.message "sink" ⟨1⟩ (.anything ⟨9⟩ [.symbol ⟨12⟩])] ∧
        (({} : Process).course crowded).1.getLast?.map Sight.calls =
          some [.message "sink" ⟨3⟩ (.anything ⟨11⟩ [.symbol ⟨8⟩])] := by
    decide +kernel
  exact ⟨rfl, hfits, hcrowded, htold, htold', named_course_eq_of_filter_eq rfl hfits hcrowded⟩

end Process

end Patchbay.Numbered
