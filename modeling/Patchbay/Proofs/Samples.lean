import Mathlib.Data.List.Basic
import Patchbay.Proofs.Buffers
import Patchbay.Proofs.SignalFlow

/-!
# A block at one moment

Transfers and objects work on whole blocks, but each moment of a block is on its
own: the sample of a buffer is computed from samples of the same moment. Here every
part of a step is described at one moment.

## Implementation notes

Whether a transfer copies was settled when the chain was built. A copy is the first
to arrive, so what has arrived so far is an optional sample, and the flag says that
there is none.
-/

namespace Patchbay
namespace BlockState
open SignalFlow

/-- The sample of a buffer at a moment. -/
def sample (time : Nat) (state : BlockState) (index : Nat) : Sample :=
  (state.buffer index).getD time 0

/-- The sample of a host output at a moment. -/
def heard (time : Nat) (state : BlockState) (channel : Nat) : Sample :=
  (state.outputs.getD channel []).getD time 0

variable {count size time : Nat} {inputs : List Block} {state : BlockState}

theorem getD_zipWith {first second : Block} (hfirst : time < first.length)
    (hsecond : time < second.length) (combine : Sample → Sample → Sample) :
    (List.zipWith combine first second).getD time 0 =
      combine (first.getD time 0) (second.getD time 0) := by
  simp [List.getD_eq_getElem?_getD, List.getElem?_zipWith, List.getElem?_eq_getElem hfirst,
    List.getElem?_eq_getElem hsecond]

theorem foldl_mixIn_filter_cons {α : Type} (keeps : α → Bool) (value : α → Sample)
    (arrived : Option Sample) (first : α) (rest : List α) :
    (((first :: rest).filter keeps).map value).foldl mixIn arrived =
      ((rest.filter keeps).map value).foldl mixIn
        (if keeps first then mixIn arrived (value first) else arrived) := by
  by_cases hfirst : keeps first = true
  · rw [List.filter_cons_of_pos hfirst, if_pos hfirst]
    rfl
  · rw [List.filter_cons_of_neg hfirst, if_neg hfirst]

/-! ## Feeds -/

theorem sample_feed_target (htime : time < size) (h : state.Sound count size) {feed : Feed}
    (hsource : feed.source < count) (htarget : feed.target < count) :
    (state.feed feed).sample time feed.target =
      if feed.copy then state.sample time feed.source
      else state.sample time feed.target + state.sample time feed.source := by
  rw [feed_eq, sample, buffer_setBuffer_self h htarget, fed]
  split
  · rfl
  · exact getD_zipWith (by rwa [h.length_buffer htarget]) (by rwa [h.length_buffer hsource]) _

theorem sample_feed_ne (state : BlockState) {feed : Feed} {buffer : Nat}
    (hne : buffer ≠ feed.target) :
    (state.feed feed).sample time buffer = state.sample time buffer := by
  rw [feed_eq, sample, buffer_setBuffer_ne state hne]
  rfl

/-- One transfer is mixed into its target, and the target is now among those fed. -/
theorem sample_feed_mixed (htime : time < size) {feed : Feed} {fed : List Nat} {buffer : Nat}
    {arrived : Option Sample} {base : Sample} (h : state.Sound count size)
    (hcopy : feed.copy = !fed.contains feed.target) (hsource : feed.source < count)
    (htarget : feed.target < count) (harrived : fed.contains buffer = arrived.isSome)
    (hsample : state.sample time buffer = arrived.getD base) :
    let arrived' := if feed.target == buffer then mixIn arrived (state.sample time feed.source)
      else arrived
    (feed.target :: fed).contains buffer = arrived'.isSome ∧
      (state.feed feed).sample time buffer = arrived'.getD base := by
  by_cases hinto : feed.target = buffer
  · subst hinto
    rw [sample_feed_target htime h hsource htarget, hcopy, harrived, hsample]
    cases arrived <;> simp [mixIn]
  · rw [sample_feed_ne state (Ne.symm hinto), hsample, List.contains_cons, harrived]
    simp [hinto, Ne.symm hinto]

/-- What arrives in a buffer is mixed in, in the order of the transfers. -/
theorem sample_feeds (htime : time < size) {feeds : List Feed} {fed : List Nat} {buffer : Nat}
    {arrived : Option Sample} {base : Sample} (h : state.Sound count size)
    (hcopies : CopiesFirst fed feeds)
    (hlt : ∀ feed ∈ feeds, feed.source < count ∧ feed.target < count)
    (happart : ∀ feed ∈ feeds, ∀ other ∈ feeds, feed.source ≠ other.target)
    (harrived : fed.contains buffer = arrived.isSome)
    (hsample : state.sample time buffer = arrived.getD base) :
    (feeds.foldl feed state).sample time buffer =
      ((((feeds.filter fun feed => feed.target == buffer).map Feed.source).map
        (state.sample time)).foldl mixIn arrived).getD base := by
  induction feeds generalizing state fed arrived with
  | nil => exact hsample
  | cons first rest ih =>
    obtain ⟨hcopy, hrest⟩ := hcopies
    obtain ⟨hsource, htarget⟩ := hlt first List.mem_cons_self
    obtain ⟨hsome, hfirst⟩ := sample_feed_mixed htime h hcopy hsource htarget harrived hsample
    -- The transfers to come read what they would have read before this one.
    have hsources : ((rest.filter fun feed => feed.target == buffer).map Feed.source).map
          ((state.feed first).sample time) =
        ((rest.filter fun feed => feed.target == buffer).map Feed.source).map
          (state.sample time) := by
      apply List.map_congr_left
      intro source hmem
      obtain ⟨other, hother, rfl⟩ := List.mem_map.mp hmem
      have hother := List.mem_cons_of_mem first (List.mem_of_mem_filter hother)
      exact sample_feed_ne state (happart other hother first List.mem_cons_self)
    have hlater : ∀ other ∈ rest, other ∈ first :: rest :=
      fun other hother => List.mem_cons_of_mem first hother
    rw [List.foldl_cons,
      ih (h.feed hsource htarget) hrest
        (fun other hother => hlt other (hlater other hother))
        (fun other hother third hthird =>
          happart other (hlater other hother) third (hlater third hthird))
        hsome hfirst,
      hsources, List.map_map, List.map_map, foldl_mixIn_filter_cons]
    rfl

/-! ## Input converters -/

/-- Every outlet of an input converter holds what its route brings. -/
theorem buffer_readInputs {pairs : List (Route × Nat)} (hnodup : (pairs.map Prod.snd).Nodup)
    (h : state.Sound count size) (hinputs : ∀ input ∈ inputs, size ≤ input.length)
    (hlt : ∀ pair ∈ pairs, pair.2 < count) {route : Route} {outlet : Nat}
    (hpair : (route, outlet) ∈ pairs) :
    (pairs.foldl (fun state pair => state.readInput size inputs pair.1 pair.2) state).buffer
      outlet = arrived size inputs route := by
  induction pairs generalizing state with
  | nil => cases hpair
  | cons first rest ih =>
    rw [List.map_cons, List.nodup_cons] at hnodup
    have hfirst := hlt first List.mem_cons_self
    have hsound := h.readInput hinputs first.1 first.2
    rw [List.foldl_cons]
    rcases List.mem_cons.mp hpair with rfl | hrest
    · have hne : ∀ pair ∈ rest, outlet ≠ pair.2 := by
        intro pair hmem heq
        exact hnodup.1 (List.mem_map.mpr ⟨pair, hmem, heq.symm⟩)
      rw [buffer_readInputs_ne _ hne, readInput_eq]
      exact buffer_setBuffer_self h hfirst _
    · exact ih hnodup.2 hsound (fun pair hmem => hlt pair (List.mem_cons_of_mem _ hmem)) hrest

/-- A route brings the samples of its host input. -/
theorem getD_arrived (htime : time < size) (format : AudioFormat) (channel : Nat) (copy : Bool) :
    (arrived size inputs
        { channel := if channel < format.inputs then some channel else none, copy }).getD time 0 =
      hostInput format inputs time channel := by
  have hsilent : (Block.silence size).getD time 0 = 0 := by
    simp [Block.silence, List.getD_eq_getElem?_getD, htime]
  by_cases hchannel : channel < format.inputs
  · simp only [arrived, hostInput, hchannel, ↓reduceIte, Option.bind_some]
    cases inputs[channel]? with
    | none => exact hsilent
    | some input => simp [List.getD_eq_getElem?_getD, htime]
  · simp only [arrived, hostInput, hchannel, ↓reduceIte, Option.bind_none]
    exact hsilent

/-- At its outlets an input converter leaves the samples of its host inputs. -/
theorem sample_runNode_adc (htime : time < size) (h : state.Sound count size)
    (hinputs : ∀ input ∈ inputs, size ≤ input.length) (format : AudioFormat) {step : ChainStep}
    {channels : List Nat} (hlength : channels.length = step.outlets.length)
    (hlt : ∀ outlet ∈ step.outlets, outlet < count) (hnodup : step.outlets.Nodup)
    (hroutes : step.routes = Chain.inputRoutes format.inputs channels) {outlet buffer : Nat}
    (hbuffer : step.outlets[outlet]? = some buffer) :
    (state.runNode size inputs step (.adc channels)).sample time buffer =
      (channels[outlet]?.map (hostInput format inputs time)).getD 0 := by
  have hsome : outlet < channels.length :=
    hlength ▸ (List.getElem?_eq_some_iff.mp hbuffer).1
  have hchannel : channels[outlet]? = some channels[outlet] := List.getElem?_eq_getElem hsome
  let route : Route :=
    { channel := if channels[outlet] < format.inputs then some channels[outlet] else none
      copy := true }
  have hroute : step.routes[outlet]? = some route := by
    rw [hroutes, Chain.inputRoutes, List.getElem?_map, hchannel]
    rfl
  have hpair : (route, buffer) ∈ step.routes.zip step.outlets :=
    List.mem_of_getElem? (List.getElem?_zip_eq_some.mpr ⟨hroute, hbuffer⟩)
  have houtlets : ((step.routes.zip step.outlets).map Prod.snd).Nodup := by
    rwa [List.map_snd_zip]
    simp [hroutes, Chain.inputRoutes, hlength]
  have hread : (state.runNode size inputs step (.adc channels)).buffer buffer =
      arrived size inputs route :=
    buffer_readInputs houtlets h hinputs (fun pair hpair => hlt _ (List.of_mem_zip hpair).2) hpair
  rw [sample, hread, getD_arrived htime, hchannel]
  rfl

/-! ## Outlets -/

/-- At its outlets an object leaves the samples that it gives out. -/
theorem sample_runNode (htime : time < size) (h : state.Sound count size)
    (hinputs : ∀ input ∈ inputs, size ≤ input.length) (format : AudioFormat) {step : ChainStep}
    {node : Node} (hports : node.signalPorts = (step.inlets.length, step.outlets.length))
    (hlt : ∀ buffer ∈ step.ports, buffer < count) (hnodup : step.outlets.Nodup)
    (hroutes : ∀ channels, node = .adc channels →
      step.routes = Chain.inputRoutes format.inputs channels)
    {outlet buffer : Nat} (hbuffer : step.outlets[outlet]? = some buffer) :
    (state.runNode size inputs step node).sample time buffer =
      emitted format inputs time (fun inlet => state.sample time (step.inlets.getD inlet 0))
        outlet node := by
  have hinlet {inlet : Nat} (hmem : inlet ∈ step.inlets) : inlet < count :=
    hlt inlet (List.mem_append_left _ hmem)
  have houtlet : buffer < count :=
    hlt buffer (List.mem_append_right _ (List.mem_of_getElem? hbuffer))
  cases node with
  | adc channels =>
    exact sample_runNode_adc htime h hinputs format (congrArg Prod.snd hports)
      (fun outlet hmem => hlt outlet (List.mem_append_right _ hmem)) hnodup
      (hroutes channels rfl) hbuffer
  | arithmetic operation right =>
    cases right with
    | none =>
      obtain ⟨hinlets, houtlets⟩ := Prod.mk.inj hports
      obtain ⟨left, other, hinlets⟩ := List.length_eq_two.mp hinlets.symm
      obtain ⟨only, houtlets⟩ := List.length_eq_one_iff.mp houtlets.symm
      obtain rfl : buffer = only := by
        simpa [houtlets] using List.mem_of_getElem? hbuffer
      have hleft : left < count := hinlet (by simp [hinlets])
      have hother : other < count := hinlet (by simp [hinlets])
      simp only [runNode, hinlets, houtlets, emitted]
      rw [sample, buffer_setBuffer_self h houtlet,
        getD_zipWith (by rwa [h.length_buffer hleft]) (by rwa [h.length_buffer hother])]
      rfl
    | some right =>
      obtain ⟨hinlets, houtlets⟩ := Prod.mk.inj hports
      obtain ⟨left, hinlets⟩ := List.length_eq_one_iff.mp hinlets.symm
      obtain ⟨only, houtlets⟩ := List.length_eq_one_iff.mp houtlets.symm
      obtain rfl : buffer = only := by
        simpa [houtlets] using List.mem_of_getElem? hbuffer
      have hleft : time < (state.buffer left).length := by
        rwa [h.length_buffer (hinlet (by simp [hinlets]))]
      simp only [runNode, hinlets, houtlets, emitted]
      rw [sample, buffer_setBuffer_self h houtlet]
      simp [sample, List.getD_eq_getElem?_getD, hleft]
  | constant value =>
    obtain ⟨-, houtlets⟩ := Prod.mk.inj hports
    obtain ⟨only, houtlets⟩ := List.length_eq_one_iff.mp houtlets.symm
    obtain rfl : buffer = only := by
      simpa [houtlets] using List.mem_of_getElem? hbuffer
    simp only [runNode, houtlets, emitted]
    rw [sample, buffer_setBuffer_self h houtlet]
    simp [List.getD_eq_getElem?_getD, htime]
  | _ =>
    have hnone : step.outlets = [] := List.length_eq_zero_iff.mp (congrArg Prod.snd hports).symm
    simp [hnone] at hbuffer

/-! ## Output converters -/

theorem getD_mixedInto (htime : time < size) (h : state.Sound count size) (route : Route)
    {inlet : Nat} (hinlet : inlet < count) {output : Block} (houtput : size ≤ output.length) :
    (state.mixedInto size route inlet output).getD time 0 =
      if route.copy then state.sample time inlet
      else output.getD time 0 + state.sample time inlet := by
  have hlength := h.length_buffer hinlet
  have htake : (output.take size).getD time 0 = output.getD time 0 := by
    simp [List.getD_eq_getElem?_getD, htime]
  have hfirst (block : Block) (hblock : block.length = size) :
      (block ++ output.drop size).getD time 0 = block.getD time 0 := by
    rw [List.getD_eq_getElem?_getD, List.getElem?_append_left (hblock.symm ▸ htime),
      List.getD_eq_getElem?_getD]
  unfold mixedInto
  split
  · exact hfirst _ hlength
  · rw [hfirst _ (by simp [hlength, houtput]),
      getD_zipWith (by rw [List.length_take]; omega) (by rwa [hlength]), htake]
    rfl

theorem length_outputs_writeOutput (state : BlockState) (route : Route) (inlet : Nat) :
    (state.writeOutput size route inlet).outputs.length = state.outputs.length := by
  rw [writeOutput_eq]
  split
  · exact List.length_set
  · rfl

theorem heard_writeOutput (htime : time < size) (h : state.Sound count size) (route : Route)
    {inlet : Nat} (hinlet : inlet < count) {channel : Nat}
    (hchannel : channel < state.outputs.length) :
    (state.writeOutput size route inlet).heard time channel =
      if route.channel = some channel then
        if route.copy then state.sample time inlet
        else state.heard time channel + state.sample time inlet
      else state.heard time channel := by
  obtain ⟨output, houtput⟩ : ∃ output, state.outputs[channel]? = some output :=
    ⟨_, List.getElem?_eq_getElem hchannel⟩
  have hheard : state.heard time channel = output.getD time 0 := by
    simp [heard, List.getD_eq_getElem?_getD, houtput]
  rw [writeOutput_eq]
  by_cases hroute : route.channel = some channel
  · have hlong := h.outputs_long output (List.mem_of_getElem? houtput)
    simp only [hroute, houtput, Option.bind_some, Option.map_some, ↓reduceIte]
    rw [hheard, ← getD_mixedInto htime h route hinlet hlong, heard]
    simp [List.getD_eq_getElem?_getD, hchannel]
  · rw [if_neg hroute]
    split
    · rename_i other block hentry
      obtain ⟨_, hother, hblock⟩ := Option.bind_eq_some_iff.mp hentry
      obtain ⟨_, -, heq⟩ := Option.map_eq_some_iff.mp hblock
      cases heq
      have hne : other ≠ channel := by
        rintro rfl
        exact hroute hother
      simp [heard, List.getD_eq_getElem?_getD, List.getElem?_set_ne hne]
    · rfl

theorem sample_writeOutput (state : BlockState) (route : Route) (inlet buffer : Nat) :
    (state.writeOutput size route inlet).sample time buffer = state.sample time buffer := by
  simp only [sample, BlockState.buffer, buffers_writeOutput]

section
variable {channels inlets : List Nat} {flags : List Bool} {channel : Nat}

/-- One inlet of a converter is mixed into the host output it goes to, and the flag of this
output is raised. -/
theorem heard_passOn (htime : time < size) {arrived : Option Sample} {base : Sample}
    (h : state.Sound count size) {inlet : Nat} (hinlet : inlet < count)
    (houtput : channel < state.outputs.length) (hchannel : channel < flags.length)
    (harrived : flags.getD channel false = arrived.isSome)
    (hheard : state.heard time channel = arrived.getD base) (first : Nat) :
    let arrived' := if first == channel then mixIn arrived (state.sample time inlet) else arrived
    (flags.set first true).getD channel false = arrived'.isSome ∧
      (state.writeOutput size (Chain.outputRoute flags first) inlet).heard time channel =
        arrived'.getD base := by
  rw [Chain.getD_set_true flags first hchannel, harrived,
    heard_writeOutput htime h _ hinlet houtput, hheard]
  by_cases heq : first = channel
  · subst heq
    simp only [Chain.outputRoute, if_pos hchannel, harrived]
    cases arrived <;> simp [mixIn]
  · have hroute : (Chain.outputRoute flags first).channel ≠ some channel := by
      unfold Chain.outputRoute
      split <;> simp [heq]
    simp [heq, hroute, Ne.symm heq]

/-- What a converter passes on to a host output is mixed in, in the order of its inlets. -/
theorem heard_writeOutputs (htime : time < size) {arrived : Option Sample} {base : Sample}
    (h : state.Sound count size) (hlt : ∀ inlet ∈ inlets, inlet < count)
    (houtput : channel < state.outputs.length) (hchannel : channel < flags.length)
    (harrived : flags.getD channel false = arrived.isSome)
    (hheard : state.heard time channel = arrived.getD base) :
    (((Chain.outputRoutes flags channels).1.zip inlets).foldl
        (fun state pair => state.writeOutput size pair.1 pair.2) state).heard time channel =
      ((((channels.zip inlets).filter fun entry => entry.1 == channel).map
        fun entry => state.sample time entry.2).foldl mixIn arrived).getD base := by
  induction channels generalizing state flags inlets arrived with
  | nil => exact hheard
  | cons first rest ih =>
    cases inlets with
    | nil => simpa [Chain.outputRoutes_cons] using hheard
    | cons inlet others =>
      have hinlet := hlt inlet List.mem_cons_self
      obtain ⟨hsome, hnow⟩ := heard_passOn htime h hinlet houtput hchannel harrived hheard first
      rw [Chain.outputRoutes_cons, List.zip_cons_cons, List.foldl_cons,
        ih (h.writeOutput _ hinlet)
          (fun other hother => hlt other (List.mem_cons_of_mem inlet hother))
          ((length_outputs_writeOutput state _ inlet).symm ▸ houtput)
          (by rwa [List.length_set]) hsome hnow,
        List.zip_cons_cons, foldl_mixIn_filter_cons]
      simp only [sample_writeOutput]

/-- A converter leaves the host outputs alone that the format does not have. -/
theorem heard_writeOutputs_of_le (htime : time < size) (h : state.Sound count size)
    (hlt : ∀ inlet ∈ inlets, inlet < count) (houtput : channel < state.outputs.length)
    (hchannel : flags.length ≤ channel) :
    (((Chain.outputRoutes flags channels).1.zip inlets).foldl
        (fun state pair => state.writeOutput size pair.1 pair.2) state).heard time channel =
      state.heard time channel := by
  induction channels generalizing state flags inlets with
  | nil => rfl
  | cons first rest ih =>
    cases inlets with
    | nil => simp [Chain.outputRoutes_cons]
    | cons inlet others =>
      have hinlet := hlt inlet List.mem_cons_self
      have hroute : (Chain.outputRoute flags first).channel ≠ some channel := by
        unfold Chain.outputRoute
        split
        · simp only [ne_eq, Option.some.injEq]
          omega
        · exact nofun
      rw [Chain.outputRoutes_cons, List.zip_cons_cons, List.foldl_cons,
        ih (h.writeOutput _ hinlet)
          (fun other hother => hlt other (List.mem_cons_of_mem inlet hother))
          ((length_outputs_writeOutput state _ inlet).symm ▸ houtput)
          (by rwa [List.length_set]),
        heard_writeOutput htime h _ hinlet houtput, if_neg hroute]

end

end BlockState

end Patchbay
