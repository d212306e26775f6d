import Patchbay.Host.Console
import Patchbay.Message.Message
import Patchbay.Message.Midi

/-!
# Emissions

What an object does in answer to a message. The dispatcher carries emissions
out, in the order the object produced them.
-/

namespace Patchbay

/-- One thing an object does in answer to a message. -/
inductive Emission where
  /-- A message out of an outlet. -/
  | outlet (index : Nat) (message : Message)
  /-- A message to everything that listens at a tie. -/
  | send (tie : Tie) (message : Message)
  /-- A console post. -/
  | post (level : ConsoleLevel) (text : String)
  /-- A MIDI event to the host. -/
  | midi (event : MidiEvent)
  /-- An emission that has been carried out. -/
  | done
  deriving DecidableEq, Inhabited

end Patchbay
