import Patchbay.Number.Grid
import Patchbay.Text.Integer

/-!
# Numbers written in text

A decimal literal is an optional sign, digits with an optional point and at
least one digit on either side of it, and an optional exponent. Reading one
gives the single nearest to the decimal it denotes. A number text may also name
infinity or the absence of a number.
-/

namespace Patchbay.Number

/-- A decimal literal, denoting `± digits * 10 ^ exponent`. -/
structure Literal where
  negative : Bool
  digits : Nat
  exponent : Int
  deriving DecidableEq, Repr

/-- Split an optional sign off a text; `true` stands for a minus. -/
def readSign : List Char → Bool × List Char
  | '-' :: rest => (true, rest)
  | '+' :: rest => (false, rest)
  | text => (false, text)

/-- Read what follows the digits of a literal: nothing, or an exponent. -/
def readExponent : List Char → Option Int
  | [] => some 0
  | mark :: rest =>
    if mark = 'e' ∨ mark = 'E' then
      let (negative, digits) := readSign rest
      (readDigits digits).map fun n => if negative then -(n : Int) else n
    else none

/-- The digits before the point, the digits after it, and what follows. -/
def splitDigits (text : List Char) : List Char × List Char × List Char :=
  match text.dropWhile Char.isDigit with
  | '.' :: rest =>
    (text.takeWhile Char.isDigit, rest.takeWhile Char.isDigit, rest.dropWhile Char.isDigit)
  | rest => (text.takeWhile Char.isDigit, [], rest)

/-- Read a whole text as a decimal literal. -/
def readLiteral (text : List Char) : Option Literal :=
  let (negative, unsigned) := readSign text
  let (whole, fraction, rest) := splitDigits unsigned
  if whole.isEmpty && fraction.isEmpty then none
  else (readExponent rest).map fun exponent =>
    { negative
      digits := decimalValue (whole ++ fraction)
      exponent := exponent - fraction.length }

/-- The power of ten just above the digits of a literal. -/
def Literal.span (literal : Literal) : Int :=
  (Nat.toDigits 10 literal.digits).length + literal.exponent

/-- The nearest magnitude. A decimal above `10 ^ 59` is past every finite
magnitude and one below `10 ^ -60` is nearest to zero, so only moderate powers
of ten are ever computed. -/
def Literal.bits (literal : Literal) : Nat :=
  if literal.digits = 0 then 0
  else if 60 < literal.span then infinityBits
  else if literal.span < -60 then 0
  else match literal.exponent with
    | .ofNat e => nearestBits (literal.digits * Nat.pow 10 e) 1
    | .negSucc e => nearestBits literal.digits (Nat.pow 10 (e + 1))

/-- The single a literal denotes. -/
def Literal.value (literal : Literal) : Float32 :=
  ofMagnitude literal.negative literal.bits

/-- Lower-case form of an ASCII letter. -/
def lowerLetter (c : Char) : Char := c.toLower

/-- Read a whole text as a number: a literal, or infinity or `nan` under any
spelling of case and sign. -/
def readNumber (text : List Char) : Option Float32 :=
  match readLiteral text with
  | some literal => some literal.value
  | none =>
    let (negative, name) := readSign text
    let name := String.ofList (name.map lowerLetter)
    if name = "inf" ∨ name = "infinity" then some (ofMagnitude negative infinityBits)
    else if name = "nan" then some (Float32.ofBits 0x7fc00000)
    else none

end Patchbay.Number
