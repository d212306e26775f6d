import Patchbay.Failure
import Patchbay.Message.Atom

/-!
# Payloads

The atoms a message carries, addressed by position. Access past the end is a
failure, never an empty atom.
-/

namespace Patchbay

/-- The atoms of a message, in order. -/
abbrev Payload := List Atom

namespace Payload

/-- A payload of `size` empty atoms. -/
def blank (size : Nat) : Payload := List.replicate size .empty

/-- The atom at a position. -/
def get (atoms : Payload) (index : Nat) : Except Failure Atom :=
  match atoms[index]? with
  | some atom => .ok atom
  | none => .error (.indexOutOfRange index atoms.length)

/-- Replace the atom at a position. -/
def set (atoms : Payload) (index : Nat) (atom : Atom) : Except Failure Payload :=
  if index < atoms.length then .ok (List.set atoms index atom)
  else .error (.indexOutOfRange index atoms.length)

/-- The kind of the atom at a position. -/
def kindAt (atoms : Payload) (index : Nat) : Except Failure AtomKind :=
  (get atoms index).map Atom.kind

/-- The number at a position. -/
def floatAt (atoms : Payload) (index : Nat) : Except Failure Float32 :=
  (get atoms index).map Atom.asFloat

/-- The symbol at a position. -/
def symbolAt (atoms : Payload) (index : Nat) : Except Failure Symbol :=
  (get atoms index).map Atom.asSymbol

/-- The pointer at a position. -/
def pointerAt (atoms : Payload) (index : Nat) : Except Failure (Option Nat) :=
  (get atoms index).map Atom.asPointer

/-- The first atom, empty if there is none. -/
def firstOrEmpty (atoms : Payload) : Atom := atoms.headD .empty

/-- Position by position agreement of atoms. -/
def agrees : Payload → Payload → Bool
  | [], [] => true
  | a :: as, b :: bs => a.agrees b && agrees as bs
  | _, _ => false

/-- The texts of the atoms, separated by spaces. -/
def text (atoms : Payload) : String :=
  String.intercalate " " (atoms.map Atom.text)

end Payload

end Patchbay
