import Patchbay.Text.Quote

/-!
# Failures

What can go wrong when the engine is used: a missing or unreadable patch, a
handle that outlived its patch, a call made out of turn, or a request out of
range. Sending to a tie nobody listens on is not a failure.
-/

namespace Patchbay

/-- A rejected request. -/
inductive Failure where
  | indexOutOfRange (index size : Nat)
  | patchNotFound (name searchDir : String)
  | patchOpenFailed (path reason : String)
  | invalidPatch (path : String) (line : Nat) (reason : String)
  | stalePatch
  | notPrepared
  | blockSizeMismatch (expected actual : Nat)
  | bufferTooShort (channel expected actual : Nat)
  | invalidFormat (reason : String)
  | instanceSelected
  | instanceBusy
  | queueFull
  deriving DecidableEq, Repr

/-- The text of a failure. -/
def Failure.message : Failure → String
  | .indexOutOfRange index size => s!"Index {index} out of range for list of size {size}"
  | .patchNotFound name searchDir => s!"Patch '{name}' not found (search dir: '{searchDir}')"
  | .patchOpenFailed path reason => s!"Failed to open patch '{path}': {reason}"
  | .invalidPatch path line reason => s!"Invalid patch '{path}' at record {line}: {reason}"
  | .stalePatch => "Patch handle is stale (patch was closed)"
  | .notPrepared => "DSP is not prepared on this instance"
  | .blockSizeMismatch expected actual =>
    s!"Block size mismatch: prepared for {expected} samples, got {actual}"
  | .bufferTooShort channel expected actual =>
    s!"Buffer for channel {channel} holds {actual} samples, expected {expected}"
  | .invalidFormat reason => s!"Invalid DSP configuration: {reason}"
  | .instanceSelected => "Instance is selected as current and cannot be freed"
  | .instanceBusy => "Instance is still in use"
  | .queueFull => "Command queue is full"

end Patchbay
