/-!
# Names

Selectors and symbol atoms are symbols; the addresses that sends and receives
meet at are ties. Both are identified by their text alone, and the two kinds are
kept apart by their types: a symbol and a tie of one text are unrelated.
-/

namespace Patchbay

/-- A name used as a selector or carried as an atom. -/
structure Symbol where
  name : String
  deriving DecidableEq, Hashable, Repr, Inhabited

/-- A name that messages are sent to and received at. -/
structure Tie where
  name : String
  deriving DecidableEq, Hashable, Repr, Inhabited

namespace Symbol

/-- The symbol without a name. -/
def empty : Symbol := ⟨""⟩

/-- Selector of a message without content. -/
def bang : Symbol := ⟨"bang"⟩

/-- Selector of a number. -/
def float : Symbol := ⟨"float"⟩

/-- Selector of a symbol. -/
def symbol : Symbol := ⟨"symbol"⟩

/-- Selector of a list. -/
def list : Symbol := ⟨"list"⟩

/-- Selector of a pointer. -/
def pointer : Symbol := ⟨"pointer"⟩

/-- Selector that stores a value without passing it on. -/
def set : Symbol := ⟨"set"⟩

/-- The selectors that have a message kind of their own. -/
def reservedSelectors : List Symbol := [bang, float, symbol, list, pointer]

/-- Whether a selector has a message kind of its own. -/
def isReserved (s : Symbol) : Bool := reservedSelectors.contains s

end Symbol

namespace Tie

/-- The tie without a name, where no object listens. -/
def empty : Tie := ⟨""⟩

/-- Whether a tie has no name. -/
def isEmpty (t : Tie) : Bool := t.name.isEmpty

end Tie

end Patchbay
