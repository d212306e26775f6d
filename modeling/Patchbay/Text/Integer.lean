/-!
# Integers written in text

Readers for plain decimal integers. A count is an unsigned number below a
bound and may carry a plus sign; a signed reading accepts either sign. The
readers report the first problem met from the left, so a bad digit after an
overflow is never seen.
-/

namespace Patchbay

/-- Why a text is not a count. -/
inductive CountError where
  | empty
  | invalidDigit
  | tooLarge
  deriving DecidableEq, Repr

/-- Explanation of a failed reading. -/
def CountError.message : CountError → String
  | .empty => "cannot parse integer from empty string"
  | .invalidDigit => "invalid digit found in string"
  | .tooLarge => "number too large to fit in target type"

/-- Value of a decimal digit. -/
def digitValue (c : Char) : Nat := c.toNat - '0'.toNat

/-- Number denoted by a word of decimal digits, most significant first. -/
def decimalValue (digits : List Char) : Nat :=
  digits.foldl (fun value c => 10 * value + digitValue c) 0

/-- Sizes and addresses are below this bound. -/
def sizeBound : Nat := Nat.pow 2 64

/-- Continue a reading whose digits so far denote `value`. -/
def readCountFrom (bound value : Nat) : List Char → Except CountError Nat
  | [] => .ok value
  | c :: rest =>
    if !c.isDigit then .error .invalidDigit
    else if 10 * value + digitValue c < bound then
      readCountFrom bound (10 * value + digitValue c) rest
    else .error .tooLarge

/-- Read an unsigned number below `bound`, with an optional plus sign. -/
def readCountBelow (bound : Nat) : List Char → Except CountError Nat
  | [] => .error .empty
  | ['+'] => .error .invalidDigit
  | '+' :: rest => readCountFrom bound 0 rest
  | text => readCountFrom bound 0 text

/-- Read a size. -/
def readCount (text : String) : Except CountError Nat :=
  readCountBelow sizeBound text.toList

/-- Digits of a nonempty decimal word, `none` if anything else is in it. -/
def readDigits (text : List Char) : Option Nat :=
  if !text.isEmpty && text.all Char.isDigit then some (decimalValue text) else none

/-- Read a signed 32-bit integer, with an optional sign of either kind. -/
def readInt32 (text : List Char) : Option Int32 :=
  let signed : Option Int := match text with
    | '-' :: rest => (readDigits rest).map fun n => -(n : Int)
    | '+' :: rest => (readDigits rest).map fun n => (n : Int)
    | rest => (readDigits rest).map fun n => (n : Int)
  match signed with
  | some n => if Int32.minValue.toInt ≤ n ∧ n ≤ Int32.maxValue.toInt then some (Int32.ofInt n) else none
  | none => none

end Patchbay
