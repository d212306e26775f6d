import Patchbay.Name
import Patchbay.Number.Literal
import Patchbay.Number.Shortest

/-!
# Atoms

One element of a message. The typed readers never fail: an atom of another kind
reads as zero, as the empty symbol or as no pointer.
-/

namespace Patchbay

/-- One element of a message. -/
inductive Atom where
  | empty
  | float (value : Float32)
  | symbol (value : Symbol)
  | pointer (address : Nat)
  deriving DecidableEq, Inhabited

/-- The kinds of atoms. -/
inductive AtomKind where
  | empty
  | float
  | symbol
  | pointer
  deriving DecidableEq, Repr

namespace Atom

/-- The kind of an atom. -/
def kind : Atom → AtomKind
  | empty => .empty
  | float _ => .float
  | symbol _ => .symbol
  | pointer _ => .pointer

/-- The number of an atom, zero for the other kinds. -/
def asFloat : Atom → Float32
  | float value => value
  | _ => 0

/-- The symbol of an atom, the empty one for the other kinds. -/
def asSymbol : Atom → Symbol
  | symbol value => value
  | _ => .empty

/-- The address of a pointer atom. -/
def asPointer : Atom → Option Nat
  | pointer address => some address
  | _ => none

/-- Whether an atom holds a number. -/
def isFloat : Atom → Bool
  | float _ => true
  | _ => false

/-- Whether an atom holds a symbol. -/
def isSymbol : Atom → Bool
  | symbol _ => true
  | _ => false

/-- Whether an atom holds nothing. -/
def isEmpty : Atom → Bool
  | empty => true
  | _ => false

/-- Equality with numbers compared by value: zeros are equal whatever their
sign, and what is not a number differs from itself. -/
def agrees : Atom → Atom → Bool
  | empty, empty => true
  | float a, float b => a == b
  | symbol a, symbol b => a == b
  | pointer a, pointer b => a == b
  | _, _ => false

/-- The atom a word of patch text stands for: a number if it is written as a
decimal literal, otherwise a symbol. -/
def ofWord (word : String) : Atom :=
  match Number.readLiteral word.toList with
  | some literal => float literal.value
  | none => symbol ⟨word⟩

/-- The text of an atom; pointers all look alike. -/
def text : Atom → String
  | empty => ""
  | float value => Number.text value
  | symbol value => value.name
  | pointer _ => "(pointer)"

end Atom

end Patchbay
