import Mathlib.Data.List.Basic
import Patchbay.Host.Hooks

/-!
# What the sinks are called with

Every call that an effect makes shows the effect: the sink gets the message, the event or the
post as it is, under a name that tells which kind of sink it is. Only the log does not tell a
post from its other lines.
-/

namespace Patchbay

/-- A message sink is called with the message, as what it is or by its kind. -/
theorem MessageSink.exists_of_mem_receive {sink : MessageSink} {tie : Tie} {message : Message}
    {call : Call} (h : call ∈ sink.receive tie message) :
    ∃ label, call = .message label tie message ∨ call = .kindMessage label tie message := by
  cases sink with
  | raw label => exact ⟨label, .inl (List.mem_singleton.mp h)⟩
  | kinds label wanted =>
    simp only [receive, List.mem_ite_nil_right, List.mem_singleton] at h
    exact ⟨label, .inr h.2⟩

/-- A MIDI sink is called with the event, as what it is or by its family. -/
theorem MidiSink.exists_of_mem_receive {sink : MidiSink} {event : MidiEvent} {call : Call}
    (h : call ∈ sink.receive event) :
    ∃ tag, call = .midi tag event ∨ call = .kindMidi tag event := by
  cases sink with
  | raw tag => exact ⟨tag, .inl (List.mem_singleton.mp h)⟩
  | kinds tag wanted =>
    simp only [receive, List.mem_ite_nil_right, List.mem_singleton] at h
    exact ⟨tag, .inr h.2⟩

/-- A console sink is called with the post, as what it is or by its level, or the post goes into
a history. -/
theorem ConsoleSink.exists_of_mem_receive {sink : ConsoleSink} {level : ConsoleLevel}
    {text : String} {call : Call} (h : call ∈ sink.receive level text) :
    (∃ tag, call = .post tag level text ∨ call = .levelPost tag level text) ∨
      ∃ history, call = .record history ⟨level, text⟩ := by
  cases sink with
  | raw tag => exact .inl ⟨tag, .inl (List.mem_singleton.mp h)⟩
  | levels tag wanted =>
    simp only [receive, List.mem_ite_nil_right, List.mem_singleton] at h
    exact .inl ⟨tag, .inr h.2⟩
  | history index => exact .inr ⟨index, List.mem_singleton.mp h⟩

/-- A post comes to a console sink, or into the log where there is none. -/
theorem Hooks.exists_of_mem_post {hooks : Hooks} {id : Nat} {level : ConsoleLevel}
    {text : String} {call : Call} (h : call ∈ hooks.post id level text) :
    (∃ sink : ConsoleSink, call ∈ sink.receive level text) ∨
      ∃ line, call = .log level.logLevel line := by
  unfold post at h
  cases hconsole : hooks.console with
  | none =>
    simp only [hconsole, List.mem_singleton] at h
    exact .inr ⟨_, h⟩
  | some sink =>
    simp only [hconsole] at h
    exact .inl ⟨sink, h⟩

/-- A call of a console sink tells the level and the text of the post. -/
theorem ConsoleSink.eq_of_mem_receive {sink : ConsoleSink} {level level' : ConsoleLevel}
    {text text' : String} {call : Call} (h : call ∈ sink.receive level text)
    (h' : call ∈ sink.receive level' text') : level = level' ∧ text = text' := by
  cases sink with
  | raw tag =>
    obtain rfl := List.mem_singleton.mp h
    obtain ⟨-, heq⟩ := Call.post.inj (List.mem_singleton.mp h')
    exact heq
  | levels tag wanted =>
    simp only [receive, List.mem_ite_nil_right, List.mem_singleton] at h h'
    obtain ⟨-, rfl⟩ := h
    obtain ⟨-, heq⟩ := Call.levelPost.inj h'.2
    exact heq
  | history index =>
    obtain rfl := List.mem_singleton.mp h
    obtain ⟨-, heq⟩ := Call.record.inj (List.mem_singleton.mp h')
    exact Post.mk.inj heq

/-- A call that a post makes tells the text of the post, and its level as far as the log
does. -/
theorem Hooks.eq_of_mem_post {hooks : Hooks} {id : Nat} {level level' : ConsoleLevel}
    {text text' : String} {call : Call} (h : call ∈ hooks.post id level text)
    (h' : call ∈ hooks.post id level' text') :
    level.logLevel = level'.logLevel ∧ text = text' := by
  unfold post at h h'
  cases hconsole : hooks.console with
  | none =>
    simp only [hconsole, List.mem_singleton] at h h'
    obtain ⟨hlevel, htext⟩ := Call.log.inj (h.symm.trans h')
    exact ⟨hlevel, String.append_right_inj _ |>.mp htext⟩
  | some sink =>
    simp only [hconsole] at h h'
    obtain ⟨rfl, htext⟩ := ConsoleSink.eq_of_mem_receive h h'
    exact ⟨rfl, htext⟩

end Patchbay
