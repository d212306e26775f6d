import Patchbay.Object.Emission
import Patchbay.Patch.DollarZero
import Patchbay.Patch.Record

/-!
# Message boxes

A message box holds pieces of text, each a row of atoms and argument slots with
an optional address. A message makes the box emit one message for each piece,
with the slots filled from the arguments that came in.
-/

namespace Patchbay

/-- An atom of a message box. -/
inductive PieceAtom where
  | literal (atom : Atom)
  /-- The incoming argument at a position, counted from zero. -/
  | argument (index : Nat)
  deriving DecidableEq, Inhabited

/-- The argument position that a word such as `$1` stands for. -/
def argumentIndex? (word : String) : Option Nat :=
  match word.toList with
  | '$' :: digits =>
    match readCountBelow sizeBound digits with
    | .ok (index + 1) => some index
    | _ => none
  | _ => none

namespace PieceAtom

/-- The part of a message box an atom makes: symbols such as `$1` are slots. -/
def ofAtom : Atom → PieceAtom
  | .symbol name =>
    match argumentIndex? name.name with
    | some index => argument index
    | none => literal (.symbol name)
  | atom => literal atom

/-- The atom that is emitted; a missing argument is zero. -/
def fill (arguments : Payload) : PieceAtom → Atom
  | literal atom => atom
  | argument index => arguments.getD index (.float 0)

end PieceAtom

/-- One piece of a message box. -/
structure Piece where
  /-- Where the piece is sent, the outlet if unset. -/
  target : Option Tie := none
  atoms : List PieceAtom := []
  deriving DecidableEq, Inhabited

/-- What a piece emits for incoming arguments. -/
def Piece.emit (arguments : Payload) (piece : Piece) : Emission :=
  let message := Message.ofAtoms (piece.atoms.map (PieceAtom.fill arguments))
  match piece.target with
  | some tie => .send tie message
  | none => .outlet 0 message

/-- A message box under construction; finished pieces are newest first. -/
structure PieceReader where
  pieces : List Piece := []
  current : Piece := {}
  awaitsTarget : Bool := false
  deriving DecidableEq

namespace PieceReader

/-- Read one token of a message box. -/
def step (dollarZero : Int32) (reader : PieceReader) : Token → PieceReader
  | .word word =>
    if reader.awaitsTarget then
      { reader with
        current := { reader.current with target := some ⟨expandName word dollarZero⟩ }
        awaitsTarget := false }
    else
      let atom := PieceAtom.ofAtom (expandWord word dollarZero)
      { reader with
        current := { reader.current with atoms := reader.current.atoms ++ [atom] } }
  | .comma =>
    { reader with
      pieces := reader.current :: reader.pieces
      current := { target := reader.current.target } }
  | .semicolon =>
    { pieces := reader.current :: reader.pieces, current := {}, awaitsTarget := true }

/-- The pieces read, in order, without the empty ones. -/
def finish (reader : PieceReader) : List Piece :=
  (reader.current :: reader.pieces).reverse.filter fun piece => !piece.atoms.isEmpty

end PieceReader

/-- The pieces of a message box with the given text. -/
def readPieces (tokens : List Token) (dollarZero : Int32) : List Piece :=
  (tokens.foldl (PieceReader.step dollarZero) {}).finish

/-- Answer a message: `set` replaces the content by one piece for the outlet, and
every other message makes each piece emit. -/
def answerMessageBox (pieces : List Piece) (message : Message) : List Piece × List Emission :=
  match message with
  | .anything selector arguments =>
    if selector = .set then ([{ atoms := arguments.map .literal }], [])
    else (pieces, pieces.map (Piece.emit arguments))
  | other => (pieces, pieces.map (Piece.emit other.arguments))

end Patchbay
