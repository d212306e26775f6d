import Mathlib.Data.List.Induction
import Patchbay.Proofs.Layout

/-!
# Signal flow

The signal graph says which sample every signal outlet has at each moment of a
block, without any buffers: an inlet receives the samples of its feeders, an
object computes the samples of its outlets from those of its inlets, and a host
output receives what the inlets of output converters pass on to it. A solution of
these equations gives every scheduled outlet its sample, and there is only one.
-/

namespace Patchbay
namespace SignalFlow

/-- The samples of all signal outlets at one moment. -/
abbrev Levels := NodeRef → Nat → Sample

/-- What becomes of several samples in one place: the first is passed on as it is, the
others are added to it in order, and no sample at all is silence. -/
def mix : List Sample → Sample
  | [] => 0
  | first :: rest => rest.foldl (· + ·) first

/-- The sample an inlet receives from its feeders. -/
def arriving (slots : Slots) (levels : Levels) (place : NodeRef) (inlet : Nat) : Sample :=
  mix ((slots.feeders place inlet).map fun feeder => levels feeder.1 feeder.2)

/-- The sample of a host input; channels that the format does not have or the host did not
supply are silent. -/
def hostInput (format : AudioFormat) (inputs : List Block) (time channel : Nat) : Sample :=
  if channel < format.inputs then (inputs[channel]?.bind fun input => input[time]?).getD 0 else 0

/-- The sample an object gives out of an outlet, from those that its inlets receive. -/
def emitted (format : AudioFormat) (inputs : List Block) (time : Nat) (received : Nat → Sample)
    (outlet : Nat) : Node → Sample
  | .adc channels => (channels[outlet]?.map (hostInput format inputs time)).getD 0
  | .arithmetic operation (some right) => operation.apply (received 0) right
  | .arithmetic operation none => operation.apply (received 0) (received 1)
  | .constant value => value
  | _ => 0

/-- Every scheduled outlet has the sample that its object gives out. -/
def Solves (slots : Slots) (format : AudioFormat) (inputs : List Block) (time : Nat)
    (levels : Levels) : Prop :=
  ∀ place ∈ slots.scheduled, ∀ node, slots.node? place = some node →
    ∀ outlet < node.signalPorts.2,
      levels place outlet =
        emitted format inputs time (arriving slots levels place) outlet node

/-- The inlets of the object at a place that go to a host output, in order. -/
def writersAt (slots : Slots) (channel : Nat) (place : NodeRef) : List (NodeRef × Nat) :=
  match slots.node? place with
  | some (.dac channels) =>
    (channels.zipIdx.filter fun entry => entry.1 == channel).map fun entry => (place, entry.2)
  | _ => []

theorem writersAt_eq_nil {slots : Slots} {place : NodeRef}
    (hnode : ∀ channels, slots.node? place ≠ some (.dac channels)) (channel : Nat) :
    writersAt slots channel place = [] := by
  unfold writersAt
  split
  · exact absurd ‹_› (hnode _)
  · rfl

/-- The inlets that go to a host output, in the order of the schedule and then of the
inlets. -/
def writers (slots : Slots) (channel : Nat) : List (NodeRef × Nat) :=
  slots.scheduled.flatMap (writersAt slots channel)

/-- The sample a host output receives. -/
def hostOutput (slots : Slots) (format : AudioFormat) (levels : Levels) (channel : Nat) :
    Sample :=
  if channel < format.outputs then
    mix ((writers slots channel).map fun writer => arriving slots levels writer.1 writer.2)
  else 0

/-! ## Mixing -/

/-- Mixing one sample in. -/
def mixIn : Option Sample → Sample → Option Sample
  | none, sample => some sample
  | some sum, sample => some (sum + sample)

theorem foldl_mixIn_some (sum : Sample) (samples : List Sample) :
    samples.foldl mixIn (some sum) = some (samples.foldl (· + ·) sum) := by
  induction samples generalizing sum with
  | nil => rfl
  | cons sample rest ih => exact ih (sum + sample)

/-- Samples mixed in one after the other are mixed, if nothing but silence was there. -/
theorem getD_foldl_mixIn {samples : List Sample} {base : Sample}
    (hbase : samples = [] → base = 0) : (samples.foldl mixIn none).getD base = mix samples := by
  cases samples with
  | nil => exact hbase rfl
  | cons first rest =>
    rw [List.foldl_cons, mixIn, foldl_mixIn_some]
    rfl

/-! ## There is one solution at most -/

section
variable {slots : Slots} {format : AudioFormat} {inputs : List Block} {time : Nat}
  {levels levels' : Levels}

theorem arriving_congr {place : NodeRef} {inlet : Nat}
    (h : ∀ feeder ∈ slots.feeders place inlet,
      levels feeder.1 feeder.2 = levels' feeder.1 feeder.2) :
    arriving slots levels place inlet = arriving slots levels' place inlet :=
  congrArg mix (List.map_congr_left h)

theorem emitted_congr {received received' : Nat → Sample} {node : Node}
    (h : ∀ inlet < node.signalPorts.1, received inlet = received' inlet) (outlet : Nat) :
    emitted format inputs time received outlet node =
      emitted format inputs time received' outlet node := by
  cases node with
  | arithmetic operation right =>
    cases right with
    | none => simp only [emitted, h 0 Nat.zero_lt_two, h 1 Nat.one_lt_two]
    | some right => simp only [emitted, h 0 Nat.zero_lt_one]
  | _ => rfl

/-- Two solutions agree at the outlets of some steps. -/
def AgreeOn (steps : List ChainStep) (levels levels' : Levels) : Prop :=
  ∀ step ∈ steps, ∀ outlet < step.outlets.length,
    levels step.place outlet = levels' step.place outlet

/-- What agrees at all steps before one agrees on what arrives there. -/
theorem AgreeOn.arriving_eq {earlier later : List ChainStep} {step : ChainStep}
    (h : AgreeOn earlier levels levels')
    (hsplit : (Chain.build slots format).steps = earlier ++ step :: later) {inlet : Nat}
    (hinlet : inlet < step.inlets.length) :
    arriving slots levels step.place inlet = arriving slots levels' step.place inlet := by
  apply arriving_congr
  intro feeder hfeeder
  obtain ⟨buffer, source, hsource, hplace, hbuffer⟩ :=
    (Chain.placed_build hsplit).exists_carried hinlet hfeeder
  rw [← hplace]
  exact h source hsource _ (List.getElem?_eq_some_iff.mp hbuffer).1

/-- Two solutions agree at all steps, one after the other. -/
theorem Solves.agreeOn (h : Solves slots format inputs time levels)
    (h' : Solves slots format inputs time levels') {earlier later : List ChainStep}
    (hsplit : (Chain.build slots format).steps = earlier ++ later) :
    AgreeOn earlier levels levels' := by
  induction earlier using List.reverseRecOn generalizing later with
  | nil => exact fun _ hstep => absurd hstep List.not_mem_nil
  | append_singleton earlier step ih =>
    have hsplit : (Chain.build slots format).steps = earlier ++ step :: later := by
      simpa using hsplit
    have hearlier := ih hsplit
    intro other hother outlet houtlet
    rcases List.mem_append.mp hother with hmem | hmem
    · exact hearlier other hmem outlet houtlet
    · obtain rfl := List.mem_singleton.mp hmem
      obtain ⟨node, hnode, -, hports⟩ := (Chain.placed_build hsplit).node
      have hscheduled : other.place ∈ slots.scheduled := by
        rw [← Chain.map_place_build slots format, hsplit]
        simp
      have hlt : outlet < node.signalPorts.2 := by simpa [hports] using houtlet
      rw [h _ hscheduled node hnode outlet hlt, h' _ hscheduled node hnode outlet hlt]
      apply emitted_congr
      intro inlet hinlet
      exact hearlier.arriving_eq hsplit (by simpa [hports] using hinlet)

/-- Two solutions agree on every scheduled outlet. -/
theorem Solves.unique (h : Solves slots format inputs time levels)
    (h' : Solves slots format inputs time levels') :
    ∀ place ∈ slots.scheduled, ∀ outlet < slots.signalOutlets place,
      levels place outlet = levels' place outlet := by
  intro place hplace outlet houtlet
  rw [← Chain.map_place_build slots format] at hplace
  obtain ⟨step, hstep, rfl⟩ := List.mem_map.mp hplace
  obtain ⟨node, hnode, -, hports⟩ := Chain.node?_of_mem_build hstep
  apply h.agreeOn h' (List.append_nil _).symm step hstep
  simpa [Slots.signalOutlets, hnode, hports] using houtlet

theorem lt_of_mem_writersAt {channel : Nat} {place : NodeRef} {writer : NodeRef × Nat}
    (h : writer ∈ writersAt slots channel place) {node : Node}
    (hnode : slots.node? place = some node) :
    writer.1 = place ∧ writer.2 < node.signalPorts.1 := by
  unfold writersAt at h
  split at h
  · rename_i channels hdac
    obtain rfl : node = .dac channels := Option.some_inj.mp (hnode.symm.trans hdac)
    obtain ⟨entry, hentry, rfl⟩ := List.mem_map.mp h
    have hget := List.mk_mem_zipIdx_iff_getElem?.mp (List.mem_of_mem_filter hentry)
    exact ⟨rfl, (List.getElem?_eq_some_iff.mp hget).1⟩
  · cases h

/-- Two solutions give every host output the same sample. -/
theorem Solves.hostOutput_eq (h : Solves slots format inputs time levels)
    (h' : Solves slots format inputs time levels') (channel : Nat) :
    hostOutput slots format levels channel = hostOutput slots format levels' channel := by
  have hwriters : (writers slots channel).map
        (fun writer => arriving slots levels writer.1 writer.2) =
      (writers slots channel).map fun writer => arriving slots levels' writer.1 writer.2 := by
    apply List.map_congr_left
    intro writer hwriter
    obtain ⟨place, hplace, hat⟩ := List.mem_flatMap.mp hwriter
    rw [← Chain.map_place_build slots format] at hplace
    obtain ⟨step, hstep, rfl⟩ := List.mem_map.mp hplace
    obtain ⟨node, hnode, -, hports⟩ := Chain.node?_of_mem_build hstep
    obtain ⟨hplace, hinlet⟩ := lt_of_mem_writersAt hat hnode
    obtain ⟨earlier, later, hsplit⟩ := List.append_of_mem hstep
    rw [hplace]
    exact (h.agreeOn h' hsplit).arriving_eq hsplit (by simpa [hports] using hinlet)
  rw [hostOutput, hostOutput, hwriters]

end

end SignalFlow

end Patchbay
