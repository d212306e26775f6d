import Patchbay.Failure

/-!
# Audio formats

The channel counts, sample rate and block size that an engine runs with, and the
limits they have to keep.
-/

namespace Patchbay

/-- Block sizes go up to this one. -/
def maxBlockSize : Nat := 8192

/-- Channel counts go up to this one. -/
def maxChannels : Nat := 64

/-- The sample rate when none is given. -/
def defaultSampleRate : Nat := 44100

/-- The block size when none is given. -/
def defaultBlockSize : Nat := 64

/-- An audio format. -/
structure AudioFormat where
  inputs : Nat := 2
  outputs : Nat := 2
  sampleRate : Nat := defaultSampleRate
  blockSize : Nat := defaultBlockSize
  deriving DecidableEq, Repr, Inhabited

/-- Reject formats the engine cannot run: the sample rate is looked at first,
then the block size, then the channels. -/
def AudioFormat.validate (format : AudioFormat) : Except Failure Unit :=
  let ⟨inputs, outputs, sampleRate, blockSize⟩ := format
  if sampleRate = 0 then .error (.invalidFormat "sample rate must be positive")
  else if blockSize = 0 ∨ maxBlockSize < blockSize then
    .error (.invalidFormat s!"block size {blockSize} outside 1..={maxBlockSize}")
  else if maxChannels < inputs ∨ maxChannels < outputs then
    .error (.invalidFormat
      s!"{inputs} inputs / {outputs} outputs exceeds the {maxChannels} channel limit")
  else .ok ()

end Patchbay
