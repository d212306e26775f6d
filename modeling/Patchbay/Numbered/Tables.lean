import Patchbay.Patch.Naming

/-!
# Tables of names

Inside a process a name is a number. A table keeps the names in the order of their numbers,
beside a map that leads from a name to its number, so that a number is compared in place of
a name. Symbols and ties have a table each, which starts with the names reserved for it.

## Implementation notes

Numbers have 32 bits. A table never checks that it stays below that, so numbers would go
round in a table of more than `2 ^ 32` names.

What a process does to the tables is to number names. `Numbering` is the type of the
computations that do no more than that.
-/

namespace Patchbay.Numbered

/-! ## One table -/

/-- The names that have numbers. -/
structure Table where
  /-- From names to numbers, newest first. -/
  index : List (String × UInt32) := []
  /-- The names in the order of their numbers. -/
  names : List String := []
  deriving DecidableEq, Repr

namespace Table

/-- The number of a name that has one. -/
def find? (table : Table) (name : String) : Option UInt32 := table.index.lookup name

/-- Number a name, unless it has a number. -/
def insert (table : Table) (name : String) : Table × UInt32 :=
  match table.find? name with
  | some number => (table, number)
  | none =>
    let number := UInt32.ofNat table.names.length
    ({ index := (name, number) :: table.index, names := table.names ++ [name] }, number)

/-- The number of a name. A name that is not found is inserted, which looks for it again. -/
def intern (table : Table) (name : String) : Table × UInt32 :=
  match table.find? name with
  | some number => (table, number)
  | none => table.insert name

/-- The name of a number, empty if the number was never given out. -/
def nameOf (table : Table) (number : UInt32) : String := table.names.getD number.toNat ""

/-- The table that numbers the given names in order. -/
def ofReserved (reserved : List String) : Table :=
  reserved.foldl (fun table name => (table.insert name).1) {}

end Table

/-! ## Both tables -/

/-- The kinds of names. -/
inductive NameKind where
  | symbol
  | tie
  deriving DecidableEq, Repr

/-- The names that have the first numbers. -/
def NameKind.reserved : NameKind → List String
  | symbol => ["", "bang", "float", "symbol", "list", "pointer", "set"]
  | tie => [""]

/-- The tables of a process. -/
structure Tables where
  symbols : Table := .ofReserved NameKind.symbol.reserved
  ties : Table := .ofReserved NameKind.tie.reserved
  deriving DecidableEq, Repr

namespace Tables

/-- The table of a kind of names. -/
def table (tables : Tables) : NameKind → Table
  | .symbol => tables.symbols
  | .tie => tables.ties

/-- Number a name of a kind. -/
def intern (tables : Tables) (kind : NameKind) (name : String) : Tables × UInt32 :=
  match kind with
  | .symbol =>
    let (symbols, number) := tables.symbols.intern name
    ({ tables with symbols }, number)
  | .tie =>
    let (ties, number) := tables.ties.intern name
    ({ tables with ties }, number)

end Tables

end Patchbay.Numbered

namespace Patchbay

/-- The kind of the name that is used. -/
def NameUse.kind : NameUse → Numbered.NameKind
  | symbol _ => .symbol
  | tie _ => .tie

/-- The name that is used. -/
def NameUse.text : NameUse → String
  | symbol name => name.name
  | tie name => name.name

namespace Numbered

/-- Number a name that is used. -/
def Tables.note (tables : Tables) (use : NameUse) : Tables := (tables.intern use.kind use.text).1

/-- Number names in the order of their uses. -/
def Tables.noteAll (tables : Tables) (uses : List NameUse) : Tables := uses.foldl Tables.note tables

/-! ## Numbers of names -/

/-- A symbol, by its number. -/
structure Symbol where
  number : UInt32
  deriving DecidableEq, Repr, Inhabited

/-- A tie, by its number. -/
structure Tie where
  number : UInt32
  deriving DecidableEq, Repr, Inhabited

namespace Symbol

/-- The symbol without a name. -/
def empty : Symbol := ⟨0⟩

/-- Selector of a message without content. -/
def bang : Symbol := ⟨1⟩

/-- Selector of a number. -/
def float : Symbol := ⟨2⟩

/-- Selector of a symbol. -/
def symbol : Symbol := ⟨3⟩

/-- Selector of a list. -/
def list : Symbol := ⟨4⟩

/-- Selector of a pointer. -/
def pointer : Symbol := ⟨5⟩

/-- Selector that stores a value without passing it on. -/
def set : Symbol := ⟨6⟩

/-- Whether a selector has a message kind of its own, told by the range of its number. -/
def isReserved (s : Symbol) : Bool := 1 ≤ s.number && s.number ≤ 5

end Symbol

namespace Tie

/-- The tie without a name, where no object listens. -/
def empty : Tie := ⟨0⟩

/-- Whether a tie has no name. -/
def isEmpty (t : Tie) : Bool := t == empty

end Tie

/-! ## Computations that number names -/

/-- A computation that reads the tables, and changes them by numbering names only. -/
structure Numbering (α : Type) where
  run : Tables → α × Tables
  notes : ∀ tables, ∃ uses, (run tables).2 = tables.noteAll uses

namespace Numbering
variable {α β : Type}

/-- Number no name. -/
protected def pure (value : α) : Numbering α where
  run tables := (value, tables)
  notes _ := ⟨[], rfl⟩

/-- Go on with what has been computed. -/
protected def bind (first : Numbering α) (next : α → Numbering β) : Numbering β where
  run tables := (next (first.run tables).1).run (first.run tables).2
  notes tables := by
    obtain ⟨uses, huses⟩ := first.notes tables
    obtain ⟨more, hmore⟩ := (next (first.run tables).1).notes (first.run tables).2
    refine ⟨uses ++ more, ?_⟩
    rw [hmore, huses, Tables.noteAll, Tables.noteAll, Tables.noteAll, List.foldl_append]

instance : Monad Numbering where
  pure := Numbering.pure
  bind := Numbering.bind

/-- Read the tables. -/
def ask (view : Tables → α) : Numbering α where
  run tables := (view tables, tables)
  notes _ := ⟨[], rfl⟩

/-- Number a symbol. -/
def symbol (name : String) : Numbering Symbol where
  run tables := (⟨(tables.intern .symbol name).2⟩, (tables.intern .symbol name).1)
  notes _ := ⟨[.symbol ⟨name⟩], rfl⟩

/-- Number a tie. -/
def tie (name : String) : Numbering Tie where
  run tables := (⟨(tables.intern .tie name).2⟩, (tables.intern .tie name).1)
  notes _ := ⟨[.tie ⟨name⟩], rfl⟩

/-- Compute a value for each item, in order. -/
def each (compute : α → Numbering β) : List α → Numbering (List β)
  | [] => pure []
  | item :: rest => do
    let first ← compute item
    let others ← each compute rest
    return first :: others

end Numbering

/-- The name of a symbol. -/
def Symbol.name (tables : Tables) (s : Symbol) : String := tables.symbols.nameOf s.number

/-- The name of a tie. -/
def Tie.name (tables : Tables) (t : Tie) : String := tables.ties.nameOf t.number

end Numbered

end Patchbay
