/-!
# The grid of single-precision magnitudes

Single-precision magnitudes are the integers `units bits` counted in steps of
`2 ^ -149`, and their bit patterns list them in increasing order. Rounding to a
single therefore rounds a fraction to an integer multiple of a power of two and
reads off the bit pattern.

## Implementation notes

Everything here is integer arithmetic. The scale `2 ^ 149` turns each finite
magnitude into a whole number, so neither signed exponents nor rationals occur.
Powers are written `Nat.pow`, which `Nat.pow_eq` turns into `^`.
-/

namespace Patchbay.Number

/-- Bit pattern of infinity, the end of the list of magnitudes. -/
def infinityBits : Nat := 0x7f800000

/-- The sign bit. -/
def signBit : Nat := 0x80000000

/-- The number of magnitudes between a power of two and the next. -/
def binade : Nat := 0x800000

/-- The number of steps in one: a magnitude is `units bits / scale`. -/
def scale : Nat := Nat.pow 2 149

/-- The magnitude with bit pattern `bits`, counted in steps of `2 ^ -149`. -/
def units (bits : Nat) : Nat :=
  if bits < binade then bits
  else (binade + bits % binade) * Nat.pow 2 (bits / binade - 1)

/-- The fraction `num / den` rounded to an integer, halves to the even one. -/
def roundHalfEven (num den : Nat) : Nat :=
  let whole := num / den
  let rest := num % den
  if 2 * rest < den then whole
  else if den < 2 * rest then whole + 1
  else whole + whole % 2

/-- The bit pattern of the magnitude nearest to `num / den`. A fraction beyond
the largest finite magnitude by half a step or more gives infinity. -/
def nearestBits (num den : Nat) : Nat :=
  let scaled := num * scale
  let shift := Nat.log2 (scaled / den) - 23
  min (shift * binade + roundHalfEven scaled (den * Nat.pow 2 shift)) infinityBits

/-- The single with a given sign and magnitude. -/
def ofMagnitude (negative : Bool) (bits : Nat) : Float32 :=
  Float32.ofBits (UInt32.ofNat (if negative then signBit + bits else bits))

/-- Whether the sign bit is set. -/
def isNegative (x : Float32) : Bool := signBit ≤ x.toBits.toNat

/-- The bit pattern without the sign. -/
def magnitude (x : Float32) : Nat := x.toBits.toNat % signBit

/-- The integer part of a single towards zero, kept within 32 bits. What is not
a number counts as zero. -/
def truncate (x : Float32) : Int32 :=
  if infinityBits < magnitude x then 0
  else
    let whole : Int := units (magnitude x) / scale
    Int32.ofIntClamp (if isNegative x then -whole else whole)

/-- The integer part of a positive single, kept within the sizes. -/
def truncateSize (x : Float32) : Nat :=
  min (units (magnitude x) / scale) 0xffffffffffffffff

/-- The single nearest to an integer. -/
def ofInt (n : Int) : Float32 :=
  ofMagnitude (decide (n < 0)) (nearestBits n.natAbs 1)

/-- Keep `x` between `low` and `high`; what is not a number stays as it is. -/
def clamp (low high x : Float32) : Float32 :=
  let raised := if x < low then low else x
  if high < raised then high else raised

end Patchbay.Number
