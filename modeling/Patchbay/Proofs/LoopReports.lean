import Patchbay.Proofs.Connections
import Patchbay.Proofs.Freshness
import Patchbay.Proofs.Loading
import Patchbay.Proofs.Maximality
import Patchbay.Proofs.Sinks

/-!
# Reports of DSP loops

Whenever a chain is built for a prepared engine and leaves objects out, one post at error level
says how many. Nothing else that happens while a patch is opened or closed or an engine is
prepared makes the same post: objects post what they print at another level, dispatch posts that
its deliveries nest too deep, and the diagnostics of a patch text end in other words.
-/

namespace Patchbay

/-- The text posted about signal objects that are left out. -/
def loopReport (left : Nat) : String := s!"DSP loop detected ({left} objects not scheduled)"

/-! ## What messages do outside -/

/-- A post among the emissions of an object is at normal level. -/
def Emission.Plain : Emission → Prop
  | .post level _ => level = .normal
  | _ => True

/-- Messages post what is printed, and that deliveries nest too deep. -/
def Effect.OfMessages : Effect → Prop
  | .post level text => level = .normal ∨ text = "stack overflow"
  | .log .. => False
  | _ => True

theorem Gui.plain_output (state : Gui) : ∀ emission ∈ state.output, emission.Plain := by
  unfold output
  intro emission hemission
  rcases List.mem_append.mp hemission with hsend | houtlet
  · split at hsend
    · cases hsend
    · rw [List.mem_singleton.mp hsend]
      trivial
  · rw [List.mem_singleton.mp houtlet]
    trivial

theorem Gui.plain_answer (state : Gui) (message : Message) :
    ∀ emission ∈ (state.answer message).2, emission.Plain := by
  have hnone : ∀ emission ∈ ([] : List Emission), emission.Plain := by simp
  unfold answer
  split
  · exact hnone
  · split <;> exact hnone
  · dsimp only
    split
    · exact hnone
    · exact state.plain_output
  · split
    · exact Gui.plain_output _
    · split <;> exact hnone
    · split
      · exact Gui.plain_output _
      · exact hnone

theorem plain_answerMessageBox (pieces : List Piece) (message : Message) :
    ∀ emission ∈ (answerMessageBox pieces message).2, emission.Plain := by
  have hpieces (arguments : Payload) :
      ∀ emission ∈ pieces.map (Piece.emit arguments), emission.Plain := by
    intro emission hemission
    obtain ⟨piece, -, rfl⟩ := List.mem_map.mp hemission
    unfold Piece.emit
    split <;> trivial
  unfold answerMessageBox
  split
  · split
    · simp
    · exact hpieces _
  · exact hpieces _

namespace Node

theorem plain_answerNumber (stored : Float32) (message : Message) :
    ∀ emission ∈ (answerNumber stored message).2, emission.Plain := by
  unfold answerNumber
  split
  · simp [Emission.Plain]
  · split
    · split <;> simp
    · simp
  · split <;> simp [Emission.Plain]

theorem plain_answerSend (tie : Tie) (inlet : Nat) (message : Message) :
    ∀ emission ∈ (answerSend tie inlet message).2, emission.Plain := by
  unfold answerSend
  split
  · split <;> simp
  · dsimp only
    split <;> simp [Emission.Plain]

theorem plain_answerMidiOut (kind : MidiKind) (second third : Int32) (inlet : Nat)
    (message : Message) :
    ∀ emission ∈ (answerMidiOut kind second third inlet message).2, emission.Plain := by
  unfold answerMidiOut
  split
  · dsimp only
    split <;> simp [Emission.Plain]
  · dsimp only
    split <;> simp [Emission.Plain]
  · split
    · split
      · simp
      · split <;> simp
    · simp

/-- Whatever an object answers, it posts at normal level only. -/
theorem plain_answer (node : Node) (inlet : Nat) (message : Message) :
    ∀ emission ∈ (node.answer inlet message).2, emission.Plain := by
  cases node with
  | send tie => exact plain_answerSend tie inlet message
  | messageBox pieces => exact plain_answerMessageBox pieces message
  | number stored => exact plain_answerNumber stored message
  | midiOut kind second third => exact plain_answerMidiOut kind second third inlet message
  | arithmetic operation right =>
    cases right with
    | none => simp [answer]
    | some right =>
      simp only [answer]
      split <;> simp
  | constant stored =>
    simp only [answer]
    split <;> simp
  | gui state => exact state.plain_answer message
  | _ => simp [answer, Emission.Plain]

end Node

namespace Dispatch

/-- Whatever waits on the stack or has been done is what messages lead to. -/
structure Tame (dispatch : Dispatch) : Prop where
  stack : ∀ emission ∈ dispatch.stack, emission.Plain
  effects : ∀ effect ∈ dispatch.effects, effect.OfMessages

section
variable {dispatch : Dispatch} {delivery : Delivery} {listeners : Listeners}

theorem Tame.perform (h : dispatch.Tame) (effect : Effect) (heffect : effect.OfMessages) :
    (dispatch.perform effect).Tame where
  stack := h.stack
  effects := by
    intro other hother
    rcases Array.mem_push.mp hother with hold | rfl
    · exact h.effects other hold
    · exact heffect

theorem Tame.push (h : dispatch.Tame) {emissions : List Emission}
    (hemissions : ∀ emission ∈ emissions, emission.Plain) : (dispatch.push emissions).Tame where
  stack := by
    intro emission hemission
    rcases Array.mem_append.mp hemission with hold | hnew
    · exact h.stack emission hold
    · exact hemissions emission (List.mem_toArray.mp hnew)
  effects := h.effects

theorem Tame.answer (h : dispatch.Tame) (target : NodeRef) (inlet : Nat) (message : Message) :
    (dispatch.answer target inlet message).Tame := by
  unfold Dispatch.answer
  split
  · rename_i node _
    have hslots : Tame { dispatch with
        slots := dispatch.slots.setNode target (node.answer inlet message).1 } :=
      ⟨h.stack, h.effects⟩
    exact hslots.push (node.plain_answer inlet message)
  · exact h

theorem Tame.foldl {α : Type} (h : dispatch.Tame) (items : List α) {work : Dispatch → α → Dispatch}
    (hwork : ∀ dispatch : Dispatch, dispatch.Tame → ∀ item ∈ items, (work dispatch item).Tame) :
    (items.foldl work dispatch).Tame :=
  List.foldlRecOn items work h hwork

/-- A delivery adds what messages lead to. -/
def TameDelivery (delivery : Delivery) : Prop :=
  ∀ dispatch : Dispatch, dispatch.Tame → ∀ target inlet message,
    (delivery dispatch target inlet message).Tame

theorem Tame.carryOut (h : dispatch.Tame) (hdelivery : TameDelivery delivery) (source : NodeRef)
    {emission : Emission} (hemission : emission.Plain) :
    (carryOut listeners delivery source dispatch emission).Tame := by
  cases emission with
  | outlet outlet message => exact h.foldl _ fun dispatch h target _ => hdelivery dispatch h _ _ _
  | send tie message =>
    have hserved := h.foldl (listeners.listening tie)
      fun dispatch h target _ => hdelivery dispatch h target 0 message
    exact hserved.perform (.message tie message) trivial
  | post level text => exact h.perform (.post level text) (Or.inl hemission)
  | midi event => exact h.perform (.midi event) trivial
  | done => exact h

theorem Tame.drain (h : dispatch.Tame) (hdelivery : TameDelivery delivery) (source : NodeRef)
    (count position : Nat) : (drain listeners delivery source count position dispatch).Tame := by
  induction count generalizing dispatch position with
  | zero => exact h
  | succ count ih =>
    simp only [Dispatch.drain]
    split
    · rename_i emission hentry
      have hmarked : Tame { dispatch with
          stack := dispatch.stack.setIfInBounds position .done } := by
        refine ⟨?_, h.effects⟩
        intro other hother
        rcases Array.mem_or_eq_of_mem_setIfInBounds hother with hold | rfl
        · exact h.stack other hold
        · trivial
      exact ih (hmarked.carryOut hdelivery source
        (h.stack emission (Array.mem_of_getElem? hentry))) (position + 1)
    · exact h

theorem Tame.flush (h : dispatch.Tame) (listeners : Listeners)
    (hdelivery : TameDelivery delivery) (source : NodeRef) (height : Nat) :
    (flush listeners delivery source height dispatch).Tame := by
  have hdrained : Tame
      (Dispatch.drain listeners delivery source (dispatch.stack.size - height) height dispatch) :=
    h.drain hdelivery source _ height
  refine ⟨?_, hdrained.effects⟩
  intro emission hemission
  have hcut : (Dispatch.flush listeners delivery source height dispatch).stack.toList =
      (Dispatch.drain listeners delivery source (dispatch.stack.size - height) height
        dispatch).stack.toList.take height := by
    simp [Dispatch.flush]
  rw [Array.mem_def, hcut] at hemission
  exact hdrained.stack emission (Array.mem_def.mpr (List.mem_of_mem_take hemission))

theorem tame_deliver (room : Nat) : TameDelivery (deliver listeners room) := by
  induction room with
  | zero =>
    intro dispatch h target inlet message
    unfold deliver
    split
    · exact h.perform (.post .error "stack overflow") (Or.inr rfl)
    · exact h
  | succ room ih =>
    intro dispatch h target inlet message
    unfold deliver
    split
    · exact h.perform (.post .error "stack overflow") (Or.inr rfl)
    · have hentered : Tame { dispatch with depth := dispatch.depth + 1 } := ⟨h.stack, h.effects⟩
      have hflushed := (hentered.answer target inlet message).flush listeners ih target
        dispatch.stack.size
      exact ⟨hflushed.stack, hflushed.effects⟩

theorem Tame.bangAll (h : dispatch.Tame) (places : List NodeRef) :
    (bangAll listeners dispatch places).Tame := by
  apply h.foldl places
  intro dispatch h place _
  have hbang : ∀ emission ∈ [Emission.outlet 0 .bang], emission.Plain := by
    simp [Emission.Plain]
  exact (h.push hbang).flush listeners (tame_deliver maxDepth) place dispatch.stack.size

end

end Dispatch

/-- What a patch does when it has been loaded is what messages lead to. -/
theorem Engine.Settled.loadbang_effects {engine : Engine} (h : engine.Settled) (id : PatchId) :
    ∀ effect ∈ (engine.loadbang id).2, effect.OfMessages := by
  have hstart : engine.start.Tame := by
    refine ⟨?_, ?_⟩
    · simp [start, h.stack_eq]
    · simp [start]
  intro effect heffect
  exact (hstart.bangAll (engine.loadbangs id)).effects effect (Array.mem_toList_iff.mp heffect)

/-! ## Texts -/

theorem loopReport_injective : Function.Injective loopReport := by
  intro first second h
  have hnumber : toString first = toString second :=
    String.append_right_inj _ |>.mp (String.append_left_inj _ |>.mp h)
  have hdigits : Nat.toDigits 10 first = Nat.toDigits 10 second := String.ofList_injective hnumber
  calc first = Nat.ofDigitChars 10 (Nat.toDigits 10 first) 0 := Nat.ofDigitChars_ten_toDigits.symm
    _ = second := by rw [hdigits, Nat.ofDigitChars_ten_toDigits]

/-- The last character of a text. -/
def lastOf (text : String) : Option Char := text.toList.getLast?

theorem lastOf_append (first : String) {second : String} {last : Char}
    (h : lastOf second = some last) : lastOf (first ++ second) = some last := by
  rw [lastOf, String.toList_append, List.getLast?_append]
  unfold lastOf at h
  rw [h, Option.some_or]

theorem lastOf_loopReport (left : Nat) : lastOf (loopReport left) = some ')' :=
  lastOf_append _ (by decide)

theorem ne_loopReport {text : String} {last : Char} (h : lastOf text = some last)
    (hlast : last ≠ ')') (left : Nat) : text ≠ loopReport left := by
  rintro rfl
  rw [lastOf_loopReport] at h
  exact hlast (Option.some.inj h).symm

theorem lastOf_creationFailure {canvas : Canvas} {record : Record} {text : String}
    (h : canvas.creationFailure? record = some text) : lastOf text = some 'e' := by
  unfold Canvas.creationFailure? at h
  split at h
  · unfold Canvas.object at h
    dsimp only at h
    split at h
    · cases h
    · split at h
      · cases h
      · split at h
        · cases h
        · cases h
          exact lastOf_append _ (by decide)
  · cases h

theorem lastOf_refusal (name : String) (record : Record) :
    lastOf (record.refusal name) = some 't' ∨ lastOf (record.refusal name) = some 'x' := by
  unfold Record.refusal
  split
  · exact Or.inl (lastOf_append _ (by decide))
  · exact Or.inr (lastOf_append _ (lastOf_append _ (by decide)))

/-- No diagnostic of a patch text reads like a report of a loop. -/
theorem ne_loopReport_of_readPatch {name path text : String} {dollarZero : Int32} {patch : Patch}
    {diagnostics : List String}
    (h : readPatch name path text dollarZero = .ok (patch, diagnostics)) :
    ∀ diagnostic ∈ diagnostics, ∀ left, diagnostic ≠ loopReport left := by
  intro diagnostic hdiagnostic
  rcases List.mem_append.mp ((diagnostics_perm_of_readPatch h).mem_iff.mp hdiagnostic) with
    hfailure | hrefusal
  · obtain ⟨record, -, hcreation⟩ := List.mem_filterMap.mp hfailure
    exact ne_loopReport (lastOf_creationFailure hcreation) (by decide)
  · obtain ⟨record, -, rfl⟩ := List.mem_map.mp hrefusal
    rcases lastOf_refusal patch.name record with hlast | hlast
    · exact ne_loopReport hlast (by decide)
    · exact ne_loopReport hlast (by decide)

/-! ## Calls -/

/-- Whether a call can tell of a post at error level. -/
def Call.canTellError : Call → Bool
  | .post .. | .levelPost .. | .record .. | .log .error _ => true
  | _ => false

namespace Hooks
variable {hooks : Hooks} {id : Nat} {text : String} {call : Call}

/-- Error posts make calls that can be told from those of messages and of other log lines. -/
theorem canTellError_of_mem_post (h : call ∈ hooks.post id .error text) : call.canTellError := by
  obtain ⟨sink, hsink⟩ | ⟨line, rfl⟩ := exists_of_mem_post h
  · obtain ⟨tag, rfl | rfl⟩ | ⟨history, rfl⟩ := ConsoleSink.exists_of_mem_receive hsink <;> rfl
  · rfl

/-- An effect does not make the post with the given text at error level. -/
def Avoids (text : String) : Effect → Prop
  | .post level other => level = .normal ∨ other ≠ text
  | .log level _ => level ≠ .error
  | _ => True

theorem notMem_calls_of_avoids {effect : Effect} (hcall : call ∈ hooks.post id .error text)
    (h : Avoids text effect) : call ∉ hooks.calls id effect := by
  have htells := canTellError_of_mem_post hcall
  intro hagain
  cases effect with
  | post level other =>
    obtain ⟨hlevel, htext⟩ := eq_of_mem_post hcall hagain
    rcases h with rfl | hother
    · cases hlevel
    · exact hother htext.symm
  | log level other =>
    rw [List.mem_singleton.mp hagain] at htells
    cases level with
    | error => exact h rfl
    | _ => cases htells
  | midi event =>
    obtain ⟨received, hreceived, hmem⟩ : ∃ sink : MidiSink, hooks.midi = some sink ∧
        call ∈ sink.receive event := by
      cases hsink : hooks.midi with
      | none => simp [calls, hsink] at hagain
      | some sink => exact ⟨sink, rfl, by simpa [calls, hsink] using hagain⟩
    obtain ⟨tag, rfl | rfl⟩ := MidiSink.exists_of_mem_receive hmem <;> cases htells
  | message tie message =>
    obtain ⟨sink, -, hmem⟩ := List.mem_flatMap.mp hagain
    obtain ⟨label, rfl | rfl⟩ := MessageSink.exists_of_mem_receive hmem <;> cases htells

theorem count_run_of_avoids {effects : List Effect} (hcall : call ∈ hooks.post id .error text)
    (h : ∀ effect ∈ effects, Avoids text effect) : (hooks.run id effects).count call = 0 := by
  apply List.count_eq_zero.mpr
  intro hmem
  obtain ⟨effect, heffect, hagain⟩ := List.mem_flatMap.mp hmem
  exact notMem_calls_of_avoids hcall (h effect heffect) hagain

/-- A post makes one call at most. -/
theorem count_post (hcall : call ∈ hooks.post id .error text) :
    (hooks.post id .error text).count call = 1 := by
  have hlength : (hooks.post id .error text).length ≤ 1 := by
    unfold post
    cases hooks.console with
    | none => exact Nat.le_refl 1
    | some sink =>
      cases sink with
      | levels tag wanted =>
        simp only [ConsoleSink.receive]
        split <;> simp
      | _ => exact Nat.le_refl 1
  have hle := List.count_le_length (a := call) (l := hooks.post id .error text)
  have hpos := List.count_pos_iff.mpr hcall
  omega

end Hooks

theorem Effect.OfMessages.avoids {effect : Effect} (h : effect.OfMessages) (left : Nat) :
    Hooks.Avoids (loopReport left) effect := by
  cases effect with
  | post level text =>
    rcases h with hlevel | rfl
    · exact Or.inl hlevel
    · have hlast : lastOf "stack overflow" = some 'w' := by decide
      exact Or.inr (ne_loopReport hlast (by decide) left)
  | log level text => exact h.elim
  | _ => trivial

/-! ## Operations -/

/-- How often a number of objects left out is reported if `left` are. -/
def reportCount (left count : Nat) : Nat := if 0 < left ∧ count = left then 1 else 0

/-- Building a chain reports once how many objects are left out, if any are. -/
theorem Engine.count_rebuildChain (engine : Engine) {hooks : Hooks} {id count : Nat} {call : Call}
    (hcall : call ∈ hooks.post id .error (loopReport count)) :
    (hooks.run id engine.rebuildChain.2).count call =
      reportCount engine.rebuildChain.1.chain.unscheduled count := by
  unfold rebuildChain
  cases engine.format with
  | none => rfl
  | some format =>
    let left := (Chain.build engine.slots format).unscheduled
    have hrun (effects : List Effect) (line : String) :
        (hooks.run id (effects ++ [Effect.log .debug line])).count call =
          (hooks.run id effects).count call := by
      have hline : (hooks.run id [Effect.log .debug line]).count call = 0 :=
        Hooks.count_run_of_avoids hcall (by simp [Hooks.Avoids])
      rw [Hooks.run, List.flatMap_append, List.count_append]
      exact Nat.add_eq_left.mpr hline
    simp only [chainEffects, hrun]
    by_cases hleft : 0 < (Chain.build engine.slots format).unscheduled
    · rw [if_pos hleft]
      by_cases hsame : count = left
      · subst hsame
        rw [reportCount, if_pos ⟨hleft, rfl⟩]
        have hpost : hooks.run id [.post .error (loopReport left)] =
            hooks.post id .error (loopReport left) := List.append_nil _
        exact hpost ▸ Hooks.count_post hcall
      · rw [reportCount, if_neg fun h => hsame h.2]
        apply Hooks.count_run_of_avoids hcall
        intro effect heffect
        rw [List.mem_singleton.mp heffect]
        exact Or.inr fun h => hsame (loopReport_injective h).symm
    · rw [if_neg hleft, reportCount, if_neg fun h => hleft h.1]
      rfl

theorem Chain.Sorts.congr {slots : Slots} {chain chain' : Chain} (h : chain.Sorts slots)
    (hsteps : chain'.steps = chain.steps) (hunscheduled : chain'.unscheduled = chain.unscheduled) :
    chain'.Sorts slots :=
  ⟨h.vertices_eq, h.edges_eq, hsteps ▸ h.nodup, hsteps ▸ h.mem_iff, hsteps ▸ h.sources,
    hsteps ▸ hunscheduled ▸ h.unscheduled_eq, hsteps ▸ h.counts⟩

theorem Engine.InStep.sorts {engine : Engine} (h : engine.InStep)
    (hprepared : engine.format.isSome) : engine.chain.Sorts engine.slots := by
  obtain ⟨format, hformat⟩ := Option.isSome_iff_exists.mp hprepared
  have hfresh := h.fresh format hformat
  exact (Chain.build_sorts engine.slots format).congr hfresh.steps_eq hfresh.unscheduled_eq

namespace Instance
variable {inst : Instance}

/-- What the host gets when the chain of an instance is built anew: the chain has every signal
object that no cycle leads to, and the number of those left out is posted once as an error if
there are any. The instance is `after` then, for a format if it is prepared. -/
structure Rebuilds (inst after : Instance) (format : Option AudioFormat) (calls : List Call) :
    Prop where
  format_eq : after.engine.format = format
  sorts : format.isSome → after.engine.chain.Sorts after.engine.slots
  unprepared : format = none → after.engine.chain = {}
  reported : ∀ count, ∀ call ∈ inst.post .error (loopReport count),
    calls.count call = reportCount after.engine.chain.unscheduled count

/-- Whatever builds the chain of an instance anew and succeeds reports what is left out. -/
structure ReportsLoops (inst : Instance) (environment : Environment) : Prop where
  prepare : ∀ format, (inst.prepare format).result = .ok () →
    inst.Rebuilds (inst.prepare format).state (some format) (inst.prepare format).calls
  load : ∀ name directory id, (inst.load environment name directory).result = .ok id →
    inst.Rebuilds (inst.load environment name directory).state.2 inst.engine.format
      (inst.load environment name directory).calls
  close : ∀ id, (inst.close id).result = .ok () →
    inst.Rebuilds (inst.close id).state inst.engine.format (inst.close id).calls

/-- Reports of loops are the same wherever other calls are made that cannot be taken for them. -/
theorem rebuilds_of_reachable {after : Instance} {format : Option AudioFormat} {calls : List Call}
    (h : after.engine.Reachable) (hformat : after.engine.format = format)
    (hcount : ∀ count, ∀ call ∈ inst.post .error (loopReport count),
      calls.count call = reportCount after.engine.chain.unscheduled count) :
    inst.Rebuilds after format calls where
  format_eq := hformat
  sorts := fun hprepared => h.inStep.sorts (hformat ▸ hprepared)
  unprepared := fun hnone => h.inStep.unprepared (hformat.trans hnone)
  reported := hcount

/-- A line of the log about what has been done is no report. -/
theorem count_logLine {count : Nat} {call : Call}
    (hcall : call ∈ inst.post .error (loopReport count)) (calls : List Call) (line : String) :
    (calls ++ [inst.logLine .info line]).count call = calls.count call := by
  have hline : call ≠ inst.logLine .info line := by
    rintro rfl
    exact Bool.false_ne_true (Hooks.canTellError_of_mem_post hcall)
  rw [List.count_append, List.count_singleton, beq_eq_false_iff_ne.mpr hline.symm]
  rfl

theorem prepare_rebuilds (h : inst.engine.Reachable) {format : AudioFormat}
    (hprepare : (inst.prepare format).result = .ok ()) :
    inst.Rebuilds (inst.prepare format).state (some format) (inst.prepare format).calls := by
  have hreachable := prepare_reachable h format
  unfold prepare at hprepare hreachable ⊢
  split
  · rename_i failure hinvalid
    simp [hinvalid] at hprepare
  · rename_i hvalid
    simp only [hvalid] at hreachable
    refine rebuilds_of_reachable hreachable (Engine.format_rebuildChain _) ?_
    intro count call hcall
    obtain ⟨inputs, outputs, sampleRate, blockSize⟩ := format
    simp only [settle, Engine.prepare]
    exact (count_logLine hcall _ _).trans (Engine.count_rebuildChain _ hcall)

theorem close_rebuilds (h : inst.engine.Reachable) {id : PatchId}
    (hclose : (inst.close id).result = .ok ()) :
    inst.Rebuilds (inst.close id).state inst.engine.format (inst.close id).calls := by
  have hreachable := close_reachable h id
  unfold close at hclose hreachable ⊢
  split
  · rename_i hstale
    simp [hstale] at hclose
  · rename_i patch engine hremoved
    simp only [hremoved] at hreachable
    have hformat : engine.format = inst.engine.format := by
      obtain ⟨removed, -, heq⟩ := Option.map_eq_some_iff.mp hremoved
      cases heq
      rfl
    refine rebuilds_of_reachable hreachable ((Engine.format_rebuildChain _).trans hformat) ?_
    intro count call hcall
    exact (count_logLine hcall _ _).trans (Engine.count_rebuildChain _ hcall)

/-- Opening a patch reports loops once, whatever diagnostics of its text and whatever messages of
its objects stand around the report. -/
theorem count_openPatch (h : inst.engine.Reachable) (patch : Patch) {diagnostics : List String}
    (hdiagnostics : ∀ diagnostic ∈ diagnostics, ∀ left, diagnostic ≠ loopReport left)
    {count : Nat} {call : Call} (hcall : call ∈ inst.post .error (loopReport count)) :
    (inst.openPatch patch diagnostics).2.1.count call =
      reportCount (inst.openPatch patch diagnostics).1.engine.chain.unscheduled count := by
  let opened := (inst.engine.insert patch).1
  have hsettled : opened.rebuildChain.1.Settled :=
    Engine.settled_rebuildChain (Engine.settled_withSlots h.settled _)
  let reports := diagnostics.map fun text => Effect.post .error text
  let bangs := (opened.rebuildChain.1.loadbang (inst.engine.insert patch).2).2
  have hreports : (inst.hooks.run inst.id reports).count call = 0 := by
    apply Hooks.count_run_of_avoids hcall
    intro effect heffect
    obtain ⟨text, htext, rfl⟩ := List.mem_map.mp heffect
    exact Or.inr (hdiagnostics text htext count)
  have hbangs : (inst.hooks.run inst.id bangs).count call = 0 :=
    Hooks.count_run_of_avoids hcall fun effect heffect =>
      (hsettled.loadbang_effects _ effect heffect).avoids count
  have hcalls : (inst.openPatch patch diagnostics).2.1 =
      inst.hooks.run inst.id reports ++ inst.hooks.run inst.id opened.rebuildChain.2 ++
        inst.hooks.run inst.id bangs := by
    simp only [Hooks.run, ← List.flatMap_append]
    rfl
  rw [hcalls, List.count_append, List.count_append, hreports, hbangs, Nat.zero_add, Nat.add_zero]
  exact opened.count_rebuildChain hcall

theorem load_rebuilds (h : inst.engine.Reachable) {environment : Environment}
    {name directory : String} {id : PatchId}
    (hload : (inst.load environment name directory).result = .ok id) :
    inst.Rebuilds (inst.load environment name directory).state.2 inst.engine.format
      (inst.load environment name directory).calls := by
  obtain ⟨path, patch, diagnostics, logged, -, hread, -, hstate, hcalls⟩ :=
    exists_read_of_load hload
  rw [hstate, hcalls]
  have hdiagnostics : ∀ diagnostic ∈ diagnostics, ∀ left, diagnostic ≠ loopReport left := by
    unfold Environment.readPatchFile at hread
    split at hread
    · exact ne_loopReport_of_readPatch hread
    · cases hread
  refine rebuilds_of_reachable (openPatch_reachable h patch diagnostics)
    (Engine.format_rebuildChain _) ?_
  intro count call hcall
  rw [count_logLine hcall]
  exact count_openPatch h patch hdiagnostics hcall

end Instance

/-- Every chain has the signal objects that no cycle leads to, each behind whatever flows into it.
In every session, whatever builds a chain anew posts once how many objects it left out, and posts
nothing about it if there are none. -/
theorem Rack.Reachable.loops_reported {rack : Rack} (h : rack.Reachable) {position : Nat}
    {inst : Instance} (hinst : rack.instance? position = some inst) :
    (∀ slots format, (Chain.build slots format).Sorts slots) ∧
      ∀ environment, inst.ReportsLoops environment :=
  have hreachable := h.engine hinst
  ⟨Chain.build_sorts, fun _ =>
    ⟨fun _ => Instance.prepare_rebuilds hreachable, fun _ _ _ => Instance.load_rebuilds hreachable,
      fun _ => Instance.close_rebuilds hreachable⟩⟩

/-- Files with a patch in which two objects feed each other and one more, and a constant goes to
an output twice. -/
def whirlpool : Environment where
  files :=
    { entries := [(["whirl.pd"], .file (.text (
        "#N canvas 0 0 9 9 10;\n#X obj 0 0 +~;\n#X obj 0 0 +~;\n#X obj 0 0 sig~ 1;\n" ++
        "#X obj 0 0 dac~;\n#X obj 0 0 *~ 2;\n#X connect 0 0 1 0;\n#X connect 1 0 0 0;\n" ++
        "#X connect 1 0 4 0;\n#X connect 2 0 3 0;\n#X connect 2 0 3 0;\n")))] }

theorem loops_reported_whirlpool :
    ∃ rack : Rack, ∃ inst id, rack.Reachable ∧ rack.instance? 0 = some inst ∧
      (inst.load whirlpool "/whirl.pd" "").result = .ok id ∧
      (inst.load whirlpool "/whirl.pd" "").state.2.engine.chain.steps.map ChainStep.place =
        [⟨0, 2⟩, ⟨0, 3⟩] ∧
      BehindCycle (inst.load whirlpool "/whirl.pd" "").state.2.engine.slots.Flows ⟨0, 4⟩ ∧
      (inst.load whirlpool "/whirl.pd" "").calls.count
        (.log .error "[zpd 1] DSP loop detected (3 objects not scheduled)") = 1 := by
  have hopened (inst : Instance) : inst.load whirlpool "/whirl.pd" "" = _ :=
    inst.load_of_leadsTo ["whirl.pd"] rfl (append_eq_ofList (append_eq_ofList rfl rfl) rfl)
      (by decide) _
  have hsession : (({} : Rack).session [.create none, .request 0 (.prepare {})]).any (fun rack =>
      (rack.instance? 0).any fun inst => decide
        ((inst.load whirlpool "/whirl.pd" "").result.toOption = some ⟨0, 1⟩ ∧
          inst.engine.format = some {} ∧
          (inst.load whirlpool "/whirl.pd" "").state.2.engine.chain.steps.map ChainStep.place =
            [⟨0, 2⟩, ⟨0, 3⟩] ∧
          (inst.load whirlpool "/whirl.pd" "").state.2.engine.chain.unscheduled = 3 ∧
          (⟨0, 4⟩ : NodeRef) ∈
            (inst.load whirlpool "/whirl.pd" "").state.2.engine.slots.placesOf Node.isSignal ∧
          inst.post .error (loopReport 3) =
            [.log .error "[zpd 1] DSP loop detected (3 objects not scheduled)"])) = true := by
    simp only [hopened]
    rw [readPatch, readRecords_ofList]
    decide +kernel
  obtain ⟨rack, inst, hrack, hinst, hran, hformat, hplaces, hleft, hsignal, hpost⟩ :=
    Rack.exists_of_session hsession
  have hload : (inst.load whirlpool "/whirl.pd" "").result = .ok ⟨0, 1⟩ := by
    cases hresult : (inst.load whirlpool "/whirl.pd" "").result with
    | error failure =>
      rw [hresult] at hran
      cases hran
    | ok id =>
      rw [hresult] at hran
      exact congrArg Except.ok (Option.some.inj hran)
  have hrebuilds := ((hrack.loops_reported hinst).2 whirlpool).load _ _ _ hload
  refine ⟨rack, inst, _, hrack, hinst, hload, hplaces, ?_, ?_⟩
  · have hsorts := hrebuilds.sorts (by rw [hformat]; rfl)
    by_contra hfree
    have hscheduled := (hsorts.mem_iff ⟨0, 4⟩).mpr ⟨hsignal, hfree⟩
    rw [hplaces] at hscheduled
    exact absurd hscheduled (by decide)
  · rw [hrebuilds.reported 3 _ (hpost ▸ List.mem_singleton_self _), hleft]
    rfl

end Patchbay
