import Patchbay.Message.Payload

/-!
# Messages

A message is one of six kinds. Five selectors have a kind of their own; every
other selector travels with its whole payload as `anything`.
-/

namespace Patchbay

/-- What is sent from one object to another. -/
inductive Message where
  | bang
  | float (value : Float32)
  | symbol (value : Symbol)
  | pointer (address : Nat)
  | list (atoms : Payload)
  | anything (selector : Symbol) (arguments : Payload)
  deriving DecidableEq, Inhabited

/-- The kinds of messages. -/
inductive MessageKind where
  | bang
  | float
  | symbol
  | pointer
  | list
  | anything
  deriving DecidableEq, Repr

namespace Message

/-- The kind of a message. -/
def kind : Message → MessageKind
  | bang => .bang
  | float _ => .float
  | symbol _ => .symbol
  | pointer _ => .pointer
  | list _ => .list
  | anything _ _ => .anything

/-- The message a selector makes of its payload. A reserved selector takes only
what its kind can hold; `pointer` without a leading pointer stays as it is. -/
def classify (selector : Symbol) (payload : Payload) : Message :=
  if selector = .bang then bang
  else if selector = .float then float payload.firstOrEmpty.asFloat
  else if selector = .symbol then symbol payload.firstOrEmpty.asSymbol
  else if selector = .list then list payload
  else if selector = .pointer then
    match payload.firstOrEmpty.asPointer with
    | some address => pointer address
    | none => anything selector payload
  else anything selector payload

/-- The message a bare row of atoms stands for: nothing is a bang, a leading
symbol is a selector, one number or pointer stands for itself, and the rest are
lists. -/
def ofAtoms : Payload → Message
  | [] => bang
  | [.float value] => float value
  | [.pointer address] => pointer address
  | .symbol selector :: rest => classify selector rest
  | atoms => list atoms

/-- The selector of a message. -/
def selector : Message → Symbol
  | bang => .bang
  | float _ => .float
  | symbol _ => .symbol
  | pointer _ => .pointer
  | list _ => .list
  | anything selector _ => selector

/-- What follows the selector. -/
def arguments : Message → Payload
  | bang => []
  | float value => [.float value]
  | symbol value => [.symbol value]
  | pointer address => [.pointer address]
  | list atoms => atoms
  | anything _ arguments => arguments

/-- The number a message brings to a numeric inlet: a number, or a list that
starts with one. -/
def number? : Message → Option Float32
  | float value => some value
  | list (.float value :: _) => some value
  | _ => none

/-- Whether a message stores without passing on. -/
def isSet : Message → Bool
  | anything selector _ => selector == .set
  | _ => false

/-- Equality with numbers compared by value. -/
def agrees : Message → Message → Bool
  | bang, bang => true
  | float a, float b => a == b
  | symbol a, symbol b => a == b
  | pointer a, pointer b => a == b
  | list a, list b => a.agrees b
  | anything s a, anything t b => s == t && a.agrees b
  | _, _ => false

/-- The text of a message, with the selector left out where it can be told from
the payload. -/
def text : Message → String
  | bang => "bang"
  | float value => Number.text value
  | symbol value => "symbol " ++ value.name
  | pointer _ => "(pointer)"
  | list [] => "list"
  | list (.float value :: rest) => Payload.text (.float value :: rest)
  | list atoms => "list " ++ atoms.text
  | anything selector [] => selector.name
  | anything selector arguments => selector.name ++ " " ++ arguments.text

end Message

end Patchbay
