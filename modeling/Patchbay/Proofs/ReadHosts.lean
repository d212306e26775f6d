import Patchbay.Proofs.ReadEngines

/-!
# Hosts read by names

What an instance does for its host is the same by numbers and by names: the sinks bound to a
number are those bound to its name, so the same calls are made in the same order.
-/

namespace Patchbay.Numbered

variable {ρ : Reading} {tables : Tables}

/-! ## Hooks -/

theorem named_plain (calls : List Patchbay.Call) : named ρ (calls.map Call.plain) = calls := by
  rw [named_list, List.map_map]
  exact List.map_id calls

theorem receive_named (tie : Tie) (message : Message) (sink : MessageSink) :
    sink.receive (named ρ tie) (named ρ message) = named ρ (receive tie message sink) := by
  cases sink with
  | raw label => rfl
  | kinds label wanted =>
    show (if wanted.contains (named ρ message).kind then _ else _) =
      named ρ (if wanted.contains message.kind then _ else _)
    rw [kind_named]
    split <;> rfl

theorem post_hooks_named (hooks : Hooks) (id : Nat) (level : ConsoleLevel) (text : String) :
    (named ρ hooks).post id level text = named ρ (hooks.post id level text) := by
  have hconsole : (named ρ hooks).console = hooks.console := rfl
  unfold Patchbay.Hooks.post Hooks.post
  rw [hconsole]
  cases hooks.console with
  | none => rfl
  | some sink => exact (named_plain (sink.receive level text)).symm

namespace Reading.Faithful
variable (hρ : ρ.Faithful)
include hρ

/-- The sinks bound to a number are those bound to its name. -/
theorem bound_named (hooks : Hooks) (tie : Tie) :
    (named ρ hooks).bound (named ρ tie) = hooks.bound tie := by
  have hbindings : (named ρ hooks).bindings = hooks.bindings.map (named ρ) := rfl
  have hfilter : (hooks.bindings.filter fun binding => named ρ binding.1 == named ρ tie) =
      hooks.bindings.filter fun binding => binding.1 == tie :=
    List.filter_congr fun binding _ => hρ.beq_tie_named binding.1 tie
  rw [Patchbay.Hooks.bound, Hooks.bound, hbindings, List.filter_map, List.map_map]
  exact congrArg (fun bindings => (bindings.map Prod.snd).reverse) hfilter

theorem unbind_named (hooks : Hooks) (tie : Tie) :
    (named ρ hooks).unbind (named ρ tie) = named ρ (hooks.unbind tie) := by
  have hbindings : (named ρ hooks).bindings = hooks.bindings.map (named ρ) := rfl
  have hbound : ((fun binding : Patchbay.Tie × MessageSink => binding.1 == named ρ tie) ∘ named ρ) =
      fun binding : Tie × MessageSink => binding.1 == tie :=
    funext fun binding => hρ.beq_tie_named binding.1 tie
  refine Prod.ext ?_ ?_
  · refine congrArg (fun bindings => ({ named ρ hooks with bindings } : Patchbay.Hooks)) ?_
    rw [hbindings, List.eraseP_map, hbound]
    rfl
  · show (named ρ hooks).bindings.any _ = hooks.bindings.any _
    rw [hbindings, List.any_map, hbound]

theorem calls_named (hooks : Hooks) (id : Nat) (effect : Effect) :
    (named ρ hooks).calls id (named ρ effect) = named ρ (hooks.calls id effect) := by
  cases effect with
  | post level text => exact post_hooks_named hooks id level text
  | midi event =>
    exact (named_plain ((hooks.midi.map fun sink => sink.receive event).getD [])).symm
  | message tie message =>
    show ((named ρ hooks).bound (named ρ tie)).flatMap _ = named ρ ((hooks.bound tie).flatMap _)
    rw [hρ.bound_named, named_list, List.map_flatMap]
    exact congrArg (fun f => (hooks.bound tie).flatMap f)
      (funext fun sink => receive_named tie message sink)
  | log level text => rfl

theorem run_named (hooks : Hooks) (id : Nat) (effects : List Effect) :
    (named ρ hooks).run id (named ρ effects) = named ρ (hooks.run id effects) := by
  rw [Patchbay.Hooks.run, Hooks.run, named_list, named_list, List.flatMap_map, List.map_flatMap]
  exact congrArg (fun f => effects.flatMap f) (funext fun effect => hρ.calls_named hooks id effect)

theorem settle_named (inst : Instance) (done : Engine × List Effect) :
    (named ρ inst).settle (named ρ done) = named ρ (inst.settle done) :=
  congrArg (Prod.mk _) (hρ.run_named inst.hooks inst.id done.2)

end Reading.Faithful

/-! ## Instances -/

namespace Numbering
variable {inst : Instance} {inst' : Patchbay.Instance}

theorem means_engine (h : Means tables inst inst') : Means tables inst.engine inst'.engine :=
  h.map (f := Instance.engine) (g := Patchbay.Instance.engine) fun _ _ => rfl

theorem gives_settle (h : Means tables inst inst') {work : Numbering (Engine × List Effect)}
    {done' : Patchbay.Engine × List Patchbay.Effect} (hwork : Gives tables work done') :
    Gives tables (work >>= fun done => pure (inst.settle done)) (inst'.settle done') :=
  hwork.bind fun _ hlater _ hdone =>
    .pure ((h.mono hlater).map₂ hdone fun _ hρ => (hρ.settle_named _ _).symm)

theorem gives_sendTie (h : Means tables inst inst') {tie : Tie} {tie' : Patchbay.Tie}
    (htie : Means tables tie tie') {message : Message} {message' : Patchbay.Message}
    (hmessage : Means tables message message') :
    Gives tables (inst.send tie message) (inst'.send tie' message') :=
  gives_settle h (gives_send (means_engine h) htie hmessage)

theorem gives_midiEvent (h : Means tables inst inst') (event : MidiEvent) :
    Gives tables (inst.midi event) (inst'.midi event) :=
  gives_settle h (gives_midi (means_engine h) event)

theorem gives_command (h : Means tables inst inst') {command : Command}
    {command' : Patchbay.Command} (hcommand : Means tables command command') :
    Gives tables (inst.carryOut command) (inst'.carryOut command') := by
  refine .of_proper fun hproper => ?_
  obtain rfl := hcommand.named_reading hproper
  cases command with
  | send tie message =>
    have htie : Means tables tie (named tables.reading tie) :=
      fun hproper ρ hρ => (Patchbay.Command.send.inj (hcommand hproper ρ hρ)).1
    have hmessage : Means tables message (named tables.reading message) :=
      fun hproper ρ hρ => (Patchbay.Command.send.inj (hcommand hproper ρ hρ)).2
    exact gives_sendTie h htie hmessage
  | midi event => exact gives_midiEvent h event

theorem means_nil {α β : Type} [Named α β] : Means tables ([] : List α) ([] : List β) :=
  .of_named fun _ _ => rfl

theorem means_append {α β : Type} [Named α β] {xs ys : List α} {xs' ys' : List β}
    (hxs : Means tables xs xs') (hys : Means tables ys ys') :
    Means tables (xs ++ ys) (xs' ++ ys') :=
  hxs.map₂ hys fun _ _ => List.map_append

theorem gives_commands (h : Means tables inst inst') {commands : List Command}
    {commands' : List Patchbay.Command} (hcommands : Means tables commands commands') :
    Gives tables (inst.carryOutAll commands) (inst'.carryOutAll commands') := by
  induction commands generalizing tables inst inst' commands' with
  | nil =>
    refine .of_proper fun hproper => ?_
    obtain rfl := hcommands.named_reading hproper
    exact .pure (h.prod (.of_named fun _ _ => rfl))
  | cons command rest ih =>
    refine .of_proper fun hproper => ?_
    obtain rfl := hcommands.named_reading hproper
    have hcommand : Means tables command (named tables.reading command) :=
      fun hproper ρ hρ => (List.cons.inj (hcommands hproper ρ hρ)).1
    have hrest : Means tables rest (named tables.reading rest) :=
      fun hproper ρ hρ => (List.cons.inj (hcommands hproper ρ hρ)).2
    refine (gives_command h hcommand).bind fun later hlater first hfirst => ?_
    refine (ih hfirst.fst (hrest.mono hlater)).bind fun last hlast others hothers => ?_
    exact .pure (hothers.fst.prod (means_append (hfirst.snd.mono hlast) hothers.snd))

/-- A patch of numbers is opened as the patch of the names. -/
theorem gives_openPatch (h : Means tables inst inst') {patch : Patch} {patch' : Patchbay.Patch}
    (hpatch : Means tables patch patch') (diagnostics : List String) :
    Gives tables (inst.openPatch patch diagnostics) (inst'.openPatch patch' diagnostics) := by
  have hopened : Means tables (inst.engine.insert patch) (inst'.engine.insert patch') :=
    (means_engine h).map₂ hpatch fun _ hρ => (hρ.insert_named _ _).symm
  have hreports : Means tables (diagnostics.map fun text => Effect.post .error text)
      (diagnostics.map fun text => Patchbay.Effect.post .error text) :=
    .of_named fun ρ _ => by
      rw [named_list, List.map_map]
      rfl
  unfold Instance.openPatch Patchbay.Instance.openPatch
  generalize inst.engine.insert patch = opened at hopened ⊢
  generalize inst'.engine.insert patch' = opened' at hopened ⊢
  obtain ⟨engine, id⟩ := opened
  obtain ⟨engine', id'⟩ := opened'
  refine .of_proper fun hproper => ?_
  obtain rfl : id' = id := hopened.snd.same hproper (f := fun id => id)
    (g := fun id => id) fun _ _ => rfl
  have hrebuilt : Means tables engine.rebuildChain engine'.rebuildChain :=
    hopened.fst.map fun _ _ => (rebuildChain_named engine).symm
  refine (gives_loadbang hrebuilt.fst id').bind fun later hlater done hdone => ?_
  have hdone' : Means later (done.1, _ ++ engine.rebuildChain.2 ++ done.2)
      ((engine'.rebuildChain.1.loadbang id').1,
        _ ++ engine'.rebuildChain.2 ++ (engine'.rebuildChain.1.loadbang id').2) :=
    hdone.fst.prod (means_append (means_append (hreports.mono hlater) (hrebuilt.snd.mono hlater))
      hdone.snd)
  have hsettled : Means later (inst.settle _) (inst'.settle _) :=
    (h.mono hlater).map₂ hdone' fun _ hρ => (hρ.settle_named _ _).symm
  exact .pure (hsettled.fst.prod (hsettled.snd.prod (.of_named fun _ _ => rfl)))

theorem gives_readPatchFile (tables : Tables) (environment : Environment) (path : String) :
    Gives tables (readPatchFile environment path) (environment.readPatchFile path) := by
  unfold readPatchFile Patchbay.Environment.readPatchFile
  cases environment.files.readText? path with
  | none => exact .pure (.of_named fun _ _ => rfl)
  | some text =>
    refine (gives_readPatch tables _ path text _).bind fun _ _ done hdone => ?_
    exact .pure ((Means.of_named (x := { environment with
      nextDollarZero := environment.nextDollarZero + 1 }) fun _ _ => rfl).prod hdone)

theorem means_outcome {State State' Value : Type} [Named State State'] {state : State}
    {state' : State'} {calls : List Call} {calls' : List Patchbay.Call}
    (hstate : Means tables state state') (hcalls : Means tables calls calls')
    (result : Except Failure Value) :
    Means tables ({ state, calls, result } : Outcome State Value)
      ({ state := state', calls := calls', result } : Patchbay.Outcome State' Value) := by
  intro hproper ρ hρ
  rw [← hstate hproper ρ hρ, ← hcalls hproper ρ hρ]
  rfl

theorem means_logLine (h : Means tables inst inst') (level : LogLevel) (text : String) :
    Means tables [inst.logLine level text] [inst'.logLine level text] :=
  h.map (f := fun inst => [inst.logLine level text]) (g := fun inst => [inst.logLine level text])
    fun _ _ => rfl

theorem gives_load (h : Means tables inst inst') (environment : Environment)
    (name directory : String) :
    Gives tables (Instance.load environment inst name directory)
      (inst'.load environment name directory) := by
  unfold Instance.load Patchbay.Instance.load
  cases environment.searchPath.resolve? environment.files name directory with
  | none =>
    exact .pure (means_outcome (h.map (f := Prod.mk environment) (g := Prod.mk environment)
      fun _ _ => rfl) (means_logLine h _ _) _)
  | some path =>
    dsimp only
    refine (gives_readPatchFile tables environment path).bind fun later hlater read hread => ?_
    refine .of_proper fun hproper => ?_
    generalize environment.readPatchFile path = read' at hread ⊢
    obtain ⟨environment, done⟩ := read
    obtain ⟨environment', done'⟩ := read'
    obtain rfl : environment = environment' :=
      hread.fst hproper _ (hproper.grown.reads_extended 'a')
    have hkept {later : Tables} {inst : Instance} {inst' : Patchbay.Instance}
        (h : Means later inst inst') : Means later (environment, inst) (environment, inst') :=
      h.map (f := Prod.mk environment) (g := Prod.mk environment) fun _ _ => rfl
    rcases hread.snd.except hproper with
      ⟨failure, hfailure, hfailure'⟩ | ⟨read, read', hok, hok', h'⟩
    · simp only at hfailure hfailure'
      subst hfailure hfailure'
      exact .pure (means_outcome (hkept (h.mono hlater)) (.of_named fun _ _ => rfl) _)
    · simp only at hok hok'
      subst hok hok'
      obtain ⟨patch, diagnostics⟩ := read
      obtain ⟨patch', diagnostics'⟩ := read'
      obtain rfl : diagnostics = diagnostics' := by
        have hsame := h'.snd hproper _ (hproper.grown.reads_extended 'a')
        rwa [named_texts] at hsame
      have hnumber : patch'.dollarZero = patch.dollarZero :=
        h'.fst.same hproper fun _ _ => rfl
      dsimp only
      rw [hnumber]
      refine (gives_openPatch (h.mono hlater) h'.fst diagnostics).bind
        fun last _ opened hopened => ?_
      refine .of_proper fun hproper => ?_
      generalize inst'.openPatch patch' diagnostics = opened' at hopened ⊢
      obtain ⟨inst, calls, id⟩ := opened
      obtain ⟨inst', calls', id'⟩ := opened'
      obtain rfl : id = id' := hopened.snd.snd hproper _ (hproper.grown.reads_extended 'a')
      exact .pure (means_outcome (hkept hopened.fst)
        (means_append hopened.snd.fst (means_logLine hopened.fst _ _)) _)

theorem means_settle (h : Means tables inst inst') {done : Engine × List Effect}
    {done' : Patchbay.Engine × List Patchbay.Effect} (hdone : Means tables done done') :
    Means tables (inst.settle done) (inst'.settle done') :=
  h.map₂ hdone fun _ hρ => (hρ.settle_named inst done).symm

theorem means_close (h : Means tables inst inst') (id : PatchId) :
    Means tables (inst.close id) (inst'.close id) := by
  have hremoved : Means tables (inst.engine.remove? id) (inst'.engine.remove? id) :=
    (means_engine h).map (f := fun engine => engine.remove? id)
      (g := fun engine => engine.remove? id) fun _ hρ => (hρ.remove?_named _ id).symm
  refine .of_proper fun hproper => ?_
  unfold Instance.close Patchbay.Instance.close
  rcases hremoved.option hproper with ⟨hnone, hnone'⟩ | ⟨removed, removed', hsome, hsome', h'⟩
  · rw [hnone, hnone']
    exact means_outcome h (.of_named fun _ _ => rfl) _
  · rw [hsome, hsome']
    obtain ⟨patch, engine⟩ := removed
    obtain ⟨patch', engine'⟩ := removed'
    have hname : patch'.name = patch.name := h'.fst.same hproper fun _ _ => rfl
    have hrebuilt : Means tables engine.rebuildChain engine'.rebuildChain :=
      h'.snd.map fun _ _ => (rebuildChain_named engine).symm
    have hsettled := means_settle h hrebuilt
    dsimp only
    rw [hname]
    exact means_outcome hsettled.fst (means_append hsettled.snd (means_logLine hsettled.fst _ _)) _

theorem means_prepare (h : Means tables inst inst') (format : AudioFormat) :
    Means tables (inst.prepare format) (inst'.prepare format) := by
  unfold Instance.prepare Patchbay.Instance.prepare
  cases format.validate with
  | error failure => exact means_outcome h (means_logLine h _ _) _
  | ok =>
    have hprepared : Means tables (inst.engine.prepare format) (inst'.engine.prepare format) :=
      (means_engine h).map (f := fun engine => engine.prepare format)
        (g := fun engine => engine.prepare format) fun _ _ => (prepare_named _ format).symm
    have hsettled := means_settle h hprepared
    generalize inst.settle (inst.engine.prepare format) = settled at hsettled ⊢
    generalize inst'.settle (inst'.engine.prepare format) = settled' at hsettled ⊢
    obtain ⟨inst, calls⟩ := settled
    obtain ⟨inst', calls'⟩ := settled'
    obtain ⟨inputs, outputs, sampleRate, blockSize⟩ := format
    have hstate : Means tables ({ inst with sampleRate } : Instance) { inst' with sampleRate } :=
      hsettled.fst.map (f := fun inst => { inst with sampleRate })
        (g := fun inst => { inst with sampleRate }) fun _ _ => rfl
    exact means_outcome hstate (means_append hsettled.snd (means_logLine hsettled.fst _ _)) _

theorem means_release (h : Means tables inst inst') :
    Means tables inst.release inst'.release := by
  refine .of_proper fun hproper => ?_
  have hformat : inst'.engine.format = inst.engine.format :=
    h.same hproper (f := fun inst => inst.engine.format)
      (g := fun inst => inst.engine.format) fun _ _ => rfl
  have hstate : Means tables ({ inst with engine := inst.engine.release } : Instance)
      { inst' with engine := inst'.engine.release } :=
    h.map (f := fun inst => { inst with engine := inst.engine.release })
      (g := fun inst => { inst with engine := inst.engine.release }) fun _ _ => rfl
  unfold Instance.release Patchbay.Instance.release
  rw [hformat]
  refine hstate.prod ?_
  split
  · exact means_logLine h _ _
  · exact .of_named fun _ _ => rfl

theorem gives_performBlock (h : Means tables inst inst') {pending : List Command}
    {pending' : List Patchbay.Command} (hpending : Means tables pending pending') (size : Nat)
    (inputs outputs : List Block) :
    Gives tables (inst.perform pending size inputs outputs)
      (inst'.perform pending' size inputs outputs) := by
  refine .of_proper fun hproper => ?_
  have hchecked : inst'.checkBlock size inputs outputs = inst.checkBlock size inputs outputs :=
    h.same hproper (f := fun inst => inst.checkBlock size inputs outputs)
      (g := fun inst => inst.checkBlock size inputs outputs) fun _ _ => rfl
  unfold Instance.perform Patchbay.Instance.perform
  rw [hchecked]
  cases inst.checkBlock size inputs outputs with
  | error failure =>
    dsimp only
    refine .pure (means_outcome h ?_ _)
    split
    · exact means_logLine h _ _
    · exact .of_named fun _ _ => rfl
  | ok =>
    refine (gives_commands h hpending).bind fun later hlater carried hcarried => ?_
    refine (gives_perform (means_engine hcarried.fst) size inputs outputs).bind
      fun last hlast ran hran => ?_
    refine .of_proper fun hproper => ?_
    generalize inst'.carryOutAll pending' = carried' at hcarried hran ⊢
    obtain ⟨inst', calls'⟩ := carried'
    obtain ⟨inst, calls⟩ := carried
    dsimp only at hran ⊢
    generalize inst'.engine.perform size inputs outputs = ran' at hran ⊢
    obtain ⟨engine, blocks, effects⟩ := ran
    obtain ⟨engine', blocks', effects'⟩ := ran'
    obtain rfl : blocks = blocks' := by
      have hsame := hran.snd.fst hproper _ (hproper.grown.reads_extended 'a')
      rwa [named_blocks] at hsame
    have hsettled := means_settle (hcarried.fst.mono hlast) (hran.fst.prod hran.snd.snd)
    exact .pure (means_outcome hsettled.fst
      (means_append (hcarried.snd.mono hlast) hsettled.snd) _)

end Numbering

end Patchbay.Numbered
