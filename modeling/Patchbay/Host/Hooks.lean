import Patchbay.Host.Console
import Patchbay.Message.Message
import Patchbay.Message.Midi

/-!
# Hooks

What an engine does to the world outside it is a list of effects. The host's
hooks turn each effect into the calls its sinks receive: posts go to the console
sink or else to the program's log, MIDI events to the MIDI sink, and messages to
every sink bound to their tie.

## Implementation notes

Bindings form one list, newest first. The bindings of one tie are a sublist of
it, so each tie has an independent stack.
-/

namespace Patchbay

/-- Something an engine does to the world outside it. -/
inductive Effect where
  | post (level : ConsoleLevel) (text : String)
  | midi (event : MidiEvent)
  | message (tie : Tie) (message : Message)
  | log (level : LogLevel) (text : String)
  deriving DecidableEq

/-- A receiver of console posts: all of them, those of some levels, or a history. -/
inductive ConsoleSink where
  | raw (tag : Nat)
  | levels (tag : Nat) (wanted : List ConsoleLevel)
  | history (index : Nat)
  deriving DecidableEq, Repr

/-- A receiver of MIDI events: all of them, or those of some families. -/
inductive MidiSink where
  | raw (tag : Nat)
  | kinds (tag : Nat) (wanted : List MidiKind)
  deriving DecidableEq, Repr

/-- A receiver of messages: all of them, or those of some kinds. -/
inductive MessageSink where
  | raw (label : String)
  | kinds (label : String) (wanted : List MessageKind)
  deriving DecidableEq, Repr

/-- One call of a sink, or one line of the program's log. -/
inductive Call where
  | post (tag : Nat) (level : ConsoleLevel) (text : String)
  | levelPost (tag : Nat) (level : ConsoleLevel) (text : String)
  | record (history : Nat) (post : Post)
  | midi (tag : Nat) (event : MidiEvent)
  | kindMidi (tag : Nat) (event : MidiEvent)
  | message (label : String) (tie : Tie) (message : Message)
  | kindMessage (label : String) (tie : Tie) (message : Message)
  | log (level : LogLevel) (text : String)
  deriving DecidableEq

/-- The calls a console sink receives for a post. -/
def ConsoleSink.receive (level : ConsoleLevel) (text : String) : ConsoleSink → List Call
  | raw tag => [.post tag level text]
  | levels tag wanted => if wanted.contains level then [.levelPost tag level text] else []
  | history index => [.record index ⟨level, text⟩]

/-- The calls a MIDI sink receives for an event. -/
def MidiSink.receive (event : MidiEvent) : MidiSink → List Call
  | raw tag => [.midi tag event]
  | kinds tag wanted => if wanted.contains event.kind then [.kindMidi tag event] else []

/-- The calls a message sink receives for a message. -/
def MessageSink.receive (tie : Tie) (message : Message) : MessageSink → List Call
  | raw label => [.message label tie message]
  | kinds label wanted =>
    if wanted.contains message.kind then [.kindMessage label tie message] else []

/-- What an instance calls back into. -/
structure Hooks where
  console : Option ConsoleSink := none
  midi : Option MidiSink := none
  /-- Bound sinks, newest first. -/
  bindings : List (Tie × MessageSink) := []
  deriving DecidableEq

namespace Hooks

/-- Bind one more sink to a tie. -/
def bind (hooks : Hooks) (tie : Tie) (sink : MessageSink) : Hooks :=
  { hooks with bindings := (tie, sink) :: hooks.bindings }

/-- The sinks bound to a tie, oldest first. -/
def bound (hooks : Hooks) (tie : Tie) : List MessageSink :=
  ((hooks.bindings.filter fun binding => binding.1 == tie).map Prod.snd).reverse

/-- How many sinks are bound to a tie. -/
def bindingCount (hooks : Hooks) (tie : Tie) : Nat := (hooks.bound tie).length

/-- Undo the latest binding of a tie, if it has one. -/
def unbind (hooks : Hooks) (tie : Tie) : Hooks × Bool :=
  ({ hooks with bindings := hooks.bindings.eraseP fun binding => binding.1 == tie },
    hooks.bindings.any fun binding => binding.1 == tie)

/-- The calls a post makes on behalf of instance `id`. -/
def post (hooks : Hooks) (id : Nat) (level : ConsoleLevel) (text : String) : List Call :=
  match hooks.console with
  | some sink => sink.receive level text
  | none => [.log level.logLevel s!"[zpd {id}] {text}"]

/-- The calls an effect of instance `id` makes. -/
def calls (hooks : Hooks) (id : Nat) : Effect → List Call
  | .post level text => hooks.post id level text
  | .midi event => (hooks.midi.map fun sink => sink.receive event).getD []
  | .message tie message => (hooks.bound tie).flatMap fun sink => sink.receive tie message
  | .log level text => [.log level text]

/-- The calls a run of effects makes. -/
def run (hooks : Hooks) (id : Nat) (effects : List Effect) : List Call :=
  effects.flatMap (hooks.calls id)

end Hooks

end Patchbay
