import Patchbay.Numbered.Tables

/-!
# Messages of numbers

Atoms and messages as a process has them: symbols are numbers. Selectors are compared by
their numbers, and the tables are only asked for the text of a message.
-/

namespace Patchbay.Numbered

/-! ## Atoms -/

/-- One element of a message. -/
inductive Atom where
  | empty
  | float (value : Float32)
  | symbol (value : Symbol)
  | pointer (address : Nat)
  deriving DecidableEq, Inhabited

namespace Atom

/-- The number of an atom, zero for the other kinds. -/
def asFloat : Atom → Float32
  | float value => value
  | _ => 0

/-- The symbol of an atom, the empty one for the other kinds. -/
def asSymbol : Atom → Symbol
  | symbol value => value
  | _ => .empty

/-- The address of a pointer atom. -/
def asPointer : Atom → Option Nat
  | pointer address => some address
  | _ => none

/-- The atom a word of patch text stands for. -/
def ofWord (word : String) : Numbering Atom :=
  match Number.readLiteral word.toList with
  | some literal => pure (float literal.value)
  | none => do
    let name ← Numbering.symbol word
    return symbol name

/-- The text of an atom. -/
def text (tables : Tables) : Atom → String
  | empty => ""
  | float value => Number.text value
  | symbol value => value.name tables
  | pointer _ => "(pointer)"

/-- Number the name in an atom. -/
def ofNamed : Patchbay.Atom → Numbering Atom
  | .empty => pure empty
  | .float value => pure (float value)
  | .symbol value => do
    let name ← Numbering.symbol value.name
    return symbol name
  | .pointer address => pure (pointer address)

end Atom

/-- A word as an atom, with the patch number filled in. -/
def expandWord (word : String) (dollarZero : Int32) : Numbering Atom :=
  Atom.ofWord (expandName word dollarZero)

/-- The atoms of a message, in order. -/
abbrev Payload := List Atom

namespace Payload

/-- The first atom, empty if there is none. -/
def firstOrEmpty (atoms : Payload) : Atom := atoms.headD .empty

/-- The texts of the atoms, separated by spaces. -/
def text (tables : Tables) (atoms : Payload) : String :=
  String.intercalate " " (atoms.map (Atom.text tables))

end Payload

/-! ## Messages -/

/-- What is sent from one object to another. -/
inductive Message where
  | bang
  | float (value : Float32)
  | symbol (value : Symbol)
  | pointer (address : Nat)
  | list (atoms : Payload)
  | anything (selector : Symbol) (arguments : Payload)
  deriving DecidableEq, Inhabited

namespace Message

/-- The kind of a message. -/
def kind : Message → MessageKind
  | bang => .bang
  | float _ => .float
  | symbol _ => .symbol
  | pointer _ => .pointer
  | list _ => .list
  | anything _ _ => .anything

/-- The message a selector makes of its payload. -/
def classify (selector : Symbol) (payload : Payload) : Message :=
  if selector = .bang then bang
  else if selector = .float then float payload.firstOrEmpty.asFloat
  else if selector = .symbol then symbol payload.firstOrEmpty.asSymbol
  else if selector = .list then list payload
  else if selector = .pointer then
    match payload.firstOrEmpty.asPointer with
    | some address => pointer address
    | none => anything selector payload
  else anything selector payload

/-- The message a bare row of atoms stands for. -/
def ofAtoms : Payload → Message
  | [] => bang
  | [.float value] => float value
  | [.pointer address] => pointer address
  | .symbol selector :: rest => classify selector rest
  | atoms => list atoms

/-- What follows the selector. -/
def arguments : Message → Payload
  | bang => []
  | float value => [.float value]
  | symbol value => [.symbol value]
  | pointer address => [.pointer address]
  | list atoms => atoms
  | anything _ arguments => arguments

/-- The number a message brings to a numeric inlet. -/
def number? : Message → Option Float32
  | float value => some value
  | list (.float value :: _) => some value
  | _ => none

/-- Whether a message stores without passing on. -/
def isSet : Message → Bool
  | anything selector _ => selector == .set
  | _ => false

/-- The text of a message. -/
def text (tables : Tables) : Message → String
  | bang => "bang"
  | float value => Number.text value
  | symbol value => "symbol " ++ value.name tables
  | pointer _ => "(pointer)"
  | list [] => "list"
  | list (.float value :: rest) => Payload.text tables (.float value :: rest)
  | list atoms => "list " ++ atoms.text tables
  | anything selector [] => selector.name tables
  | anything selector arguments => selector.name tables ++ " " ++ arguments.text tables

/-- Number the names in a message. -/
def ofNamed : Patchbay.Message → Numbering Message
  | .bang => pure bang
  | .float value => pure (float value)
  | .symbol value => do
    let name ← Numbering.symbol value.name
    return symbol name
  | .pointer address => pure (pointer address)
  | .list atoms => do
    let atoms ← Numbering.each Atom.ofNamed atoms
    return list atoms
  | .anything selector arguments => do
    let selector ← Numbering.symbol selector.name
    let arguments ← Numbering.each Atom.ofNamed arguments
    return anything selector arguments

end Message

end Patchbay.Numbered
