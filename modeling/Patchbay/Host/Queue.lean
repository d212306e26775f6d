import Patchbay.Message.Message
import Patchbay.Message.Midi

/-!
# Command queues

A queue carries commands from a sender into an instance, which takes all of them
at the start of its next block. It holds a fixed number of commands; one more is
turned away. A queue is abandoned once no instance will take from it again.
-/

namespace Patchbay

/-- Queues hold this many commands unless told otherwise. -/
def defaultQueueCapacity : Nat := 256

/-- Something for an instance to do at the next block. -/
inductive Command where
  | send (tie : Tie) (message : Message)
  | midi (event : MidiEvent)
  deriving DecidableEq

/-- A bounded queue of commands, oldest first. -/
structure CommandQueue where
  capacity : Nat
  pending : List Command := []
  abandoned : Bool := false
  deriving DecidableEq

namespace CommandQueue

/-- An empty queue for at least one command. -/
def ofCapacity (capacity : Nat) : CommandQueue := { capacity := max capacity 1 }

/-- How many more commands fit. -/
def slots (queue : CommandQueue) : Nat := queue.capacity - queue.pending.length

/-- Add a command, `none` if the queue is full. -/
def push? (queue : CommandQueue) (command : Command) : Option CommandQueue :=
  if queue.pending.length < queue.capacity then
    some { queue with pending := queue.pending ++ [command] }
  else none

/-- The queue after all commands have been taken. -/
def drained (queue : CommandQueue) : CommandQueue := { queue with pending := [] }

/-- The queue after its instance has let go of it. -/
def abandon (queue : CommandQueue) : CommandQueue := { queue with abandoned := true }

end CommandQueue

end Patchbay
