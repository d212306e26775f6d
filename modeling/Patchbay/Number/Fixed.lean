import Patchbay.Number.Grid

/-!
# Texts with a fixed number of places

Reports round a value to a set number of decimal places, exact halves going to
the even neighbour.
-/

namespace Patchbay.Number

/-- The fraction `num / den` with `places` digits after the point. -/
def fixedText (places num den : Nat) : String :=
  let rounded := roundHalfEven (num * Nat.pow 10 places) den
  let fraction := Nat.toDigits 10 (rounded % Nat.pow 10 places)
  toString (rounded / Nat.pow 10 places) ++ "." ++
    String.ofList (List.replicate (places - fraction.length) '0' ++ fraction)

/-- A non-negative single with `places` digits after the point. -/
def fixedSingle (places : Nat) (x : Float32) : String :=
  if infinityBits < magnitude x then "NaN"
  else if magnitude x = infinityBits then "inf"
  else fixedText places (units (magnitude x)) scale

/-- The number of doubles between a power of two and the next. -/
def doubleMark : Nat := Nat.pow 2 52

/-- A finite non-negative double as a fraction. -/
def doubleFraction (x : Float) : Nat × Nat :=
  let bits := x.toBits.toNat
  if bits < doubleMark then (bits, Nat.pow 2 1074)
  else ((doubleMark + bits % doubleMark) * Nat.pow 2 (bits / doubleMark - 1), Nat.pow 2 1074)

/-- The quotient of two counts, taken in double precision, with `places` digits
after the point. -/
def fixedQuotient (places num den : Nat) : String :=
  let (num, den) := doubleFraction (Float.ofNat num / Float.ofNat den)
  fixedText places num den

end Patchbay.Number
