import Patchbay.Number.Grid

/-!
# Shortest decimal texts

A finite single is written with the fewest decimal digits that read back as the
same single, and of those the digits nearest to it. Decimal grids are tried
from coarse to fine; on the grid of `10 ^ -149` every magnitude is exact, so the
search always ends.
-/

namespace Patchbay.Number

/-- A decimal number `digits * 10 ^ places`. -/
structure Decimal where
  digits : Nat
  places : Int
  deriving DecidableEq, Repr

/-- The magnitude nearest to a decimal. -/
def Decimal.bits (decimal : Decimal) : Nat :=
  match decimal.places with
  | .ofNat k => nearestBits (decimal.digits * Nat.pow 10 k) 1
  | .negSucc k => nearestBits decimal.digits (Nat.pow 10 (k + 1))

/-- The fraction of the magnitude `bits` over `10 ^ places`. -/
def gridFraction (bits : Nat) (places : Int) : Nat × Nat :=
  match places with
  | .ofNat k => (units bits, scale * Nat.pow 10 k)
  | .negSucc k => (units bits * Nat.pow 10 (k + 1), scale)

/-- The decimal on the grid of `10 ^ places` that reads back as `bits`, if there
is one; of two, the nearer, and the upper one half way between them. -/
def decimalOnGrid (bits : Nat) (places : Int) : Option Decimal :=
  let (num, den) := gridFraction bits places
  let below : Decimal := ⟨num / den, places⟩
  let above : Decimal := ⟨num / den + 1, places⟩
  let belowReads := below.bits = bits
  let aboveReads := above.bits = bits
  if belowReads ∧ (¬ aboveReads ∨ 2 * (num % den) < den) then some below
  else if aboveReads then some above
  else none

/-- Search `count` grids from `10 ^ places` down, then take the exact value. -/
def searchGrids (bits : Nat) : (count : Nat) → (places : Int) → Decimal
  | 0, _ => ⟨units bits * Nat.pow 5 149, -149⟩
  | count + 1, places =>
    match decimalOnGrid bits places with
    | some decimal => decimal
    | none => searchGrids bits count (places - 1)

/-- The shortest decimal that reads back as the magnitude `bits`. -/
def shortest (bits : Nat) : Decimal := searchGrids bits 188 39

/-- A decimal written out in full, without an exponent. -/
def Decimal.text (decimal : Decimal) : List Char :=
  let digits := Nat.toDigits 10 decimal.digits
  match decimal.places with
  | .ofNat k => digits ++ List.replicate k '0'
  | .negSucc k =>
    if k + 1 < digits.length then
      digits.take (digits.length - (k + 1)) ++ '.' :: digits.drop (digits.length - (k + 1))
    else '0' :: '.' :: (List.replicate (k + 1 - digits.length) '0' ++ digits)

/-- A magnitude as text. -/
def magnitudeText (bits : Nat) : List Char :=
  if bits = 0 then ['0'] else (shortest bits).text

/-- A single as text. -/
def text (x : Float32) : String :=
  if infinityBits < magnitude x then "NaN"
  else
    let body := if magnitude x = infinityBits then ['i', 'n', 'f'] else magnitudeText (magnitude x)
    String.ofList (if isNegative x then '-' :: body else body)

end Patchbay.Number
