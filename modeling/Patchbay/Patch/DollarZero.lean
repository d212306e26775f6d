import Patchbay.Message.Atom

/-!
# The patch number in words

Every loaded patch has a number of its own. The pair `$0` in a word of its text
stands for that number, which keeps the names of different patches apart.
-/

namespace Patchbay

/-- Replace each `$0`, from the left, by `number`. -/
def replaceDollarZero (number : List Char) : List Char → List Char
  | '$' :: '0' :: rest => number ++ replaceDollarZero number rest
  | c :: rest => c :: replaceDollarZero number rest
  | [] => []

/-- A word as a name, with the patch number filled in. -/
def expandName (word : String) (dollarZero : Int32) : String :=
  String.ofList (replaceDollarZero (toString dollarZero).toList word.toList)

/-- A word as an atom, with the patch number filled in. -/
def expandWord (word : String) (dollarZero : Int32) : Atom :=
  Atom.ofWord (expandName word dollarZero)

end Patchbay
