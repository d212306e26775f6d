import Patchbay.Name

/-!
# Numbering names

A name table gives each distinct text a number, in order of first use. Symbols
and ties are numbered separately, after the names reserved for each.
-/

namespace Patchbay

/-- The names seen so far; a name's number is its position. -/
structure NameTable where
  names : List String
  deriving DecidableEq, Repr

namespace NameTable

/-- The number of a name already in the table. -/
def find? (table : NameTable) (name : String) : Option Nat :=
  table.names.findIdx? (· == name)

/-- The number of a name, added at the end if it is new. -/
def intern (table : NameTable) (name : String) : NameTable × Nat :=
  match table.find? name with
  | some index => (table, index)
  | none => (⟨table.names ++ [name]⟩, table.names.length)

/-- The name with a given number, empty if the number was never given out. -/
def nameOf (table : NameTable) (index : Nat) : String :=
  table.names.getD index ""

/-- How many names have been numbered. -/
def size (table : NameTable) : Nat := table.names.length

end NameTable

/-- The two numberings. -/
structure NameTables where
  symbols : NameTable
  ties : NameTable
  deriving DecidableEq, Repr

namespace NameTables

/-- The numberings before any use: the reserved names only. -/
def initial : NameTables where
  symbols := ⟨(Symbol.empty :: Symbol.reservedSelectors ++ [Symbol.set]).map Symbol.name⟩
  ties := ⟨[Tie.empty.name]⟩

/-- Number a symbol. -/
def internSymbol (tables : NameTables) (s : Symbol) : NameTables × Nat :=
  let (symbols, index) := tables.symbols.intern s.name
  ({ tables with symbols }, index)

/-- Number a tie. -/
def internTie (tables : NameTables) (t : Tie) : NameTables × Nat :=
  let (ties, index) := tables.ties.intern t.name
  ({ tables with ties }, index)

end NameTables

end Patchbay
