import Mathlib.Algebra.Group.Nat.Defs
import Mathlib.Data.List.GetD
import Mathlib.Data.List.Induction
import Mathlib.Data.List.Nodup
import Patchbay.Numbered.Tables

/-!
# Names and their numbers

Whatever has been numbered before, a table and its map say the same: each name stands once,
and the map leads to its place. So numbers are given out in the order of first use, two names
have one number only if they are one name, and a number never changes its meaning.

## Implementation notes

The table after a history holds the names of the history without repetitions, as
`List.eraseDups` leaves them. Everything about histories is read off this list. A number is
the place of its name only below `2 ^ 32`, where numbers do not go round.
-/

namespace Patchbay.Numbered

theorem eraseDups_concat (names : List String) (name : String) :
    (names ++ [name]).eraseDups =
      if name ∈ names.eraseDups then names.eraseDups else names.eraseDups ++ [name] := by
  rw [List.eraseDups_append, List.removeAll]
  by_cases hname : name ∈ names
  · simp [hname]
  · simp [hname, List.eraseDups_cons]

/-! ## One table -/

namespace Table
variable {table : Table}

/-- The map of a table leads each of its names to its place, and no other name anywhere. -/
structure Sound (table : Table) : Prop where
  nodup : table.names.Nodup
  find?_eq : ∀ name, table.find? name =
    if name ∈ table.names then some (UInt32.ofNat (table.names.idxOf name)) else none

theorem sound_empty : ({} : Table).Sound where
  nodup := List.nodup_nil
  find?_eq := fun _ => rfl

/-- Looking again finds nothing new. -/
theorem intern_eq_insert (table : Table) (name : String) :
    table.intern name = table.insert name := by
  unfold intern
  split
  · rename_i number hfound
    rw [insert, hfound]
  · rfl

/-- A name that has a number keeps it, and the table stays as it is. -/
theorem Sound.intern_of_mem (h : table.Sound) {name : String} (hname : name ∈ table.names) :
    table.intern name = (table, UInt32.ofNat (table.names.idxOf name)) := by
  rw [intern, h.find?_eq, if_pos hname]

/-- Any other name gets the next number. -/
theorem Sound.intern_of_not_mem (h : table.Sound) {name : String} (hname : name ∉ table.names) :
    table.intern name =
      ({ index := (name, UInt32.ofNat table.names.length) :: table.index
         names := table.names ++ [name] }, UInt32.ofNat table.names.length) := by
  rw [intern_eq_insert, insert, h.find?_eq, if_neg hname]

theorem Sound.names_intern (h : table.Sound) (name : String) :
    (table.intern name).1.names =
      if name ∈ table.names then table.names else table.names ++ [name] := by
  by_cases hname : name ∈ table.names
  · rw [h.intern_of_mem hname, if_pos hname]
  · rw [h.intern_of_not_mem hname, if_neg hname]

/-- Numbering a name keeps the map and the names in agreement. -/
theorem Sound.intern (h : table.Sound) (name : String) : (table.intern name).1.Sound := by
  by_cases hname : name ∈ table.names
  · rwa [h.intern_of_mem hname]
  · rw [h.intern_of_not_mem hname]
    constructor
    · exact List.nodup_append.mpr ⟨h.nodup, List.nodup_singleton name, by
        rintro a ha b hb rfl
        exact hname (List.mem_singleton.mp hb ▸ ha)⟩
    · intro other
      rw [find?, List.lookup_cons]
      by_cases heq : other = name
      · subst heq
        simp [List.idxOf_append, hname]
      · have hold := h.find?_eq other
        rw [find?] at hold
        simp only [beq_eq_false_iff_ne.mpr heq, hold, List.mem_append, List.mem_singleton, heq,
          or_false, List.idxOf_append]
        split <;> rfl

/-- The number that a name gets is its place in the table from then on. -/
theorem Sound.number_intern (h : table.Sound) (name : String) :
    (table.intern name).2 = UInt32.ofNat ((table.intern name).1.names.idxOf name) := by
  by_cases hname : name ∈ table.names
  · rw [h.intern_of_mem hname]
  · rw [h.intern_of_not_mem hname, List.idxOf_append, if_neg hname]
    simp

theorem Sound.mem_names_intern (h : table.Sound) (name : String) :
    name ∈ (table.intern name).1.names := by
  rw [h.names_intern]
  split
  · assumption
  · simp

/-- The table that numbers a list of names holds them without repetitions. -/
theorem ofReserved_eq (names : List String) :
    (ofReserved names).Sound ∧ (ofReserved names).names = names.eraseDups := by
  induction names using List.reverseRecOn with
  | nil => exact ⟨sound_empty, rfl⟩
  | append_singleton names name ih =>
    obtain ⟨hsound, hnames⟩ := ih
    have hlast : ofReserved (names ++ [name]) = ((ofReserved names).intern name).1 := by
      rw [ofReserved, List.foldl_append, intern_eq_insert]
      rfl
    rw [hlast]
    refine ⟨hsound.intern name, ?_⟩
    rw [hsound.names_intern, hnames, eraseDups_concat]

end Table

/-! ## Both tables -/

/-- The names of one kind among the uses, in order. -/
def textsOf (kind : NameKind) (uses : List NameUse) : List String :=
  (uses.filter fun use => use.kind == kind).map NameUse.text

namespace Tables

/-- Numbering a name of one kind leaves the other table alone. -/
theorem table_intern (tables : Tables) (kind other : NameKind) (name : String) :
    (tables.intern kind name).1.table other =
      if kind = other then ((tables.table other).intern name).1 else tables.table other := by
  cases kind <;> cases other <;> rfl

theorem number_intern (tables : Tables) (kind : NameKind) (name : String) :
    (tables.intern kind name).2 = ((tables.table kind).intern name).2 := by
  cases kind <;> rfl

/-- Each table is told by the uses of its own names, behind the reserved ones. -/
theorem table_noteAll (kind : NameKind) (uses : List NameUse) :
    (({} : Tables).noteAll uses).table kind = .ofReserved (kind.reserved ++ textsOf kind uses) := by
  induction uses using List.reverseRecOn with
  | nil =>
    rw [textsOf, List.filter_nil, List.map_nil, List.append_nil]
    cases kind <;> rfl
  | append_singleton uses use ih =>
    have hlast : (({} : Tables).noteAll (uses ++ [use])).table kind =
        if use.kind = kind then (((({} : Tables).noteAll uses).table kind).intern use.text).1
        else (({} : Tables).noteAll uses).table kind := by
      rw [noteAll, List.foldl_append]
      exact table_intern _ _ _ _
    rw [hlast, ih, textsOf, textsOf, List.filter_append, List.map_append, ← List.append_assoc]
    by_cases hkind : use.kind = kind
    · simp [hkind, Table.ofReserved, Table.intern_eq_insert]
    · simp [hkind]

end Tables

/-! ## Histories -/

/-- The tables before a use of a history. -/
def tablesBefore (uses : List NameUse) (index : Nat) : Tables :=
  ({} : Tables).noteAll (uses.take index)

/-- The number that a name of a kind gets at some time of a history. -/
def numberAt (kind : NameKind) (uses : List NameUse) (index : Nat) (name : String) : UInt32 :=
  ((tablesBefore uses index).intern kind name).2

/-- The names of a kind in a history, the reserved ones first, each where it is used first. -/
def namesOf (kind : NameKind) (uses : List NameUse) : List String :=
  (kind.reserved ++ textsOf kind uses).eraseDups

section
variable {kind : NameKind} {uses : List NameUse} {use : NameUse}

theorem tablesBefore_eq (kind : NameKind) (uses : List NameUse) (index : Nat) :
    ((tablesBefore uses index).table kind).Sound ∧
      ((tablesBefore uses index).table kind).names = namesOf kind (uses.take index) := by
  rw [tablesBefore, Tables.table_noteAll]
  exact Table.ofReserved_eq _

/-- One more use adds its name at the end, if it is a new name of the kind. -/
theorem namesOf_concat (kind : NameKind) (uses : List NameUse) (use : NameUse) :
    namesOf kind (uses ++ [use]) =
      if use.kind = kind then
        if use.text ∈ namesOf kind uses then namesOf kind uses
        else namesOf kind uses ++ [use.text]
      else namesOf kind uses := by
  rw [namesOf, textsOf, List.filter_append, List.map_append]
  by_cases hkind : use.kind = kind
  · simp only [hkind, beq_self_eq_true, List.filter_cons_of_pos, List.filter_nil, List.map_cons,
      List.map_nil, ↓reduceIte]
    rw [← List.append_assoc, eraseDups_concat]
    rfl
  · simp [hkind, namesOf, textsOf]

/-- Names keep their places in a history that goes on. -/
theorem namesOf_isPrefix (kind : NameKind) (past later : List NameUse) :
    namesOf kind past <+: namesOf kind (past ++ later) := by
  rw [namesOf, namesOf, textsOf, textsOf, List.filter_append, List.map_append,
    ← List.append_assoc, @List.eraseDups_append _ _ _ (_ ++ _)]
  exact List.prefix_append _ _

theorem namesOf_take_isPrefix {index later : Nat} (hle : index ≤ later) :
    namesOf kind (uses.take index) <+: namesOf kind (uses.take later) := by
  obtain ⟨rest, hrest⟩ := List.take_prefix_take_left (l := uses) hle
  rw [← hrest]
  exact namesOf_isPrefix kind _ rest

theorem namesOf_take_isPrefix_all (kind : NameKind) (uses : List NameUse) (index : Nat) :
    namesOf kind (uses.take index) <+: namesOf kind uses := by
  have hsplit := namesOf_isPrefix kind (uses.take index) (uses.drop index)
  rwa [List.take_append_drop] at hsplit

theorem idxOf_of_prefix {names all : List String} (h : names <+: all) {name : String}
    (hname : name ∈ names) : all.idxOf name = names.idxOf name := by
  obtain ⟨rest, rfl⟩ := h
  rw [List.idxOf_append, if_pos hname]

/-- The number of a name that is used by the end of a history is its place among all names. -/
theorem numberAt_eq_of_mem {index : Nat} {name : String}
    (hname : name ∈ namesOf kind (uses.take index)) :
    numberAt kind uses index name = UInt32.ofNat ((namesOf kind uses).idxOf name) := by
  obtain ⟨hsound, hnames⟩ := tablesBefore_eq kind uses index
  rw [numberAt, Tables.number_intern, hsound.intern_of_mem (hnames ▸ hname), hnames,
    idxOf_of_prefix (namesOf_take_isPrefix_all kind uses index) hname]

/-- A use puts its name among the names of the history up to it. -/
theorem namesOf_take_succ {index : Nat} (huse : uses[index]? = some use) (hkind : use.kind = kind) :
    namesOf kind (uses.take (index + 1)) =
      (((tablesBefore uses index).table kind).intern use.text).1.names := by
  rw [← (tablesBefore_eq kind uses (index + 1)).2, tablesBefore, List.take_add_one, huse,
    Option.toList_some, Tables.noteAll, List.foldl_append]
  have hnote := Tables.table_intern (tablesBefore uses index) use.kind kind use.text
  rw [if_pos hkind] at hnote
  exact congrArg Table.names hnote

theorem numberAt_eq {index : Nat} (huse : uses[index]? = some use) (hkind : use.kind = kind) :
    numberAt kind uses index use.text =
        UInt32.ofNat ((namesOf kind uses).idxOf use.text) ∧
      use.text ∈ namesOf kind (uses.take (index + 1)) := by
  obtain ⟨hsound, -⟩ := tablesBefore_eq kind uses index
  have hmem : use.text ∈ namesOf kind (uses.take (index + 1)) := by
    rw [namesOf_take_succ huse hkind]
    exact hsound.mem_names_intern use.text
  refine ⟨?_, hmem⟩
  rw [numberAt, Tables.number_intern, hsound.number_intern, ← namesOf_take_succ huse hkind,
    idxOf_of_prefix (namesOf_take_isPrefix_all kind uses (index + 1)) hmem]

theorem toNat_ofNat_idxOf {names : List String} (hbound : names.length < 2 ^ 32) {name : String}
    (hname : name ∈ names) : (UInt32.ofNat (names.idxOf name)).toNat = names.idxOf name := by
  have hlt := List.idxOf_lt_length_of_mem hname
  rw [UInt32.toNat_ofNat']
  exact Nat.mod_eq_of_lt (by omega)

/-- Numbers stand for the names of one kind, one to one and in the order of first use, all
through a history. -/
structure Numbers (kind : NameKind) (uses : List NameUse) : Prop where
  same_iff : ∀ i j a b, uses[i]? = some a → uses[j]? = some b → a.kind = kind → b.kind = kind →
    (numberAt kind uses i a.text = numberAt kind uses j b.text ↔ a.text = b.text)
  /-- The number that a use has got leads to its name at every later time. -/
  name_eq : ∀ i a, uses[i]? = some a → a.kind = kind → ∀ later, i < later →
    ((tablesBefore uses later).table kind).nameOf (numberAt kind uses i a.text) = a.text
  meaning_kept : ∀ i later number, i ≤ later →
    number.toNat < ((tablesBefore uses i).table kind).names.length →
      ((tablesBefore uses later).table kind).nameOf number =
        ((tablesBefore uses i).table kind).nameOf number
  /-- Numbers count the names in the order of first use, the reserved ones first. -/
  order : ∀ i a, uses[i]? = some a → a.kind = kind →
    (numberAt kind uses i a.text).toNat = (namesOf kind uses).idxOf a.text
  /-- The numbers of all names are those below the size of the table. -/
  range : ∀ n, n < ((tablesBefore uses uses.length).table kind).names.length ↔
    ∃ name ∈ kind.reserved ++ textsOf kind uses,
      (numberAt kind uses uses.length name).toNat = n
  /-- Reserved names have their numbers from the start, and using them changes nothing. -/
  reserved : ∀ n name, kind.reserved[n]? = some name → ∀ i,
    (tablesBefore uses i).intern kind name = (tablesBefore uses i, UInt32.ofNat n)
  /-- A use of a name of the other kind leaves the table alone. -/
  other_kept : ∀ i a, uses[i]? = some a → a.kind ≠ kind →
    (tablesBefore uses (i + 1)).table kind = (tablesBefore uses i).table kind

theorem nodup_namesOf (kind : NameKind) (uses : List NameUse) : (namesOf kind uses).Nodup := by
  obtain ⟨hsound, hnames⟩ := Table.ofReserved_eq (kind.reserved ++ textsOf kind uses)
  rw [namesOf, ← hnames]
  exact hsound.nodup

theorem reserved_isPrefix (kind : NameKind) (uses : List NameUse) :
    kind.reserved <+: namesOf kind uses := by
  have hstart : namesOf kind [] = kind.reserved := by cases kind <;> decide
  rw [← hstart]
  exact namesOf_isPrefix kind [] uses

theorem nameOf_of_getElem? {table : Table} {number : UInt32} {name : String}
    (h : table.names[number.toNat]? = some name) : table.nameOf number = name := by
  rw [Table.nameOf, List.getD_eq_getElem?_getD, h]
  rfl

theorem idxOf_reserved {n : Nat} {name : String} (hname : kind.reserved[n]? = some name) :
    kind.reserved.idxOf name = n := by
  have hnodup : kind.reserved.Nodup := by cases kind <;> decide
  obtain ⟨hlt, rfl⟩ := List.getElem?_eq_some_iff.mp hname
  exact hnodup.idxOf_getElem n hlt

theorem intern_reserved {n : Nat} {name : String} (hname : kind.reserved[n]? = some name)
    (index : Nat) :
    (tablesBefore uses index).intern kind name = (tablesBefore uses index, UInt32.ofNat n) := by
  obtain ⟨hsound, hnames⟩ := tablesBefore_eq kind uses index
  have hprefix := reserved_isPrefix kind (uses.take index)
  have hmem := List.mem_of_getElem? hname
  have hintern := hsound.intern_of_mem (hnames ▸ hprefix.subset hmem)
  rw [hnames, idxOf_of_prefix hprefix hmem, idxOf_reserved hname] at hintern
  cases kind with
  | symbol =>
    have hsame : (tablesBefore uses index).symbols.intern name =
        ((tablesBefore uses index).symbols, UInt32.ofNat n) := hintern
    rw [Tables.intern, hsame]
  | tie =>
    have hsame : (tablesBefore uses index).ties.intern name =
        ((tablesBefore uses index).ties, UInt32.ofNat n) := hintern
    rw [Tables.intern, hsame]

/-- In every history with fewer than `2 ^ 32` names of a kind, numbers stand for the names. -/
theorem numbers_of_lt (hbound : (namesOf kind uses).length < 2 ^ 32) : Numbers kind uses where
  same_iff := by
    intro i j a b ha hb hakind hbkind
    obtain ⟨hanumber, hamem⟩ := numberAt_eq ha hakind
    obtain ⟨hbnumber, hbmem⟩ := numberAt_eq hb hbkind
    have hamem := (namesOf_take_isPrefix_all kind uses _).subset hamem
    have hbmem := (namesOf_take_isPrefix_all kind uses _).subset hbmem
    rw [hanumber, hbnumber]
    constructor
    · intro h
      have hplaces := congrArg UInt32.toNat h
      rw [toNat_ofNat_idxOf hbound hamem, toNat_ofNat_idxOf hbound hbmem] at hplaces
      exact (List.idxOf_inj hamem).mp hplaces
    · intro h
      rw [h]
  name_eq := by
    intro i a ha hkind later hlater
    obtain ⟨hnumber, hmem⟩ := numberAt_eq ha hkind
    have hlatermem := (namesOf_take_isPrefix hlater).subset hmem
    apply nameOf_of_getElem?
    rw [hnumber, toNat_ofNat_idxOf hbound ((namesOf_take_isPrefix_all kind uses _).subset hmem),
      (tablesBefore_eq kind uses later).2,
      idxOf_of_prefix (namesOf_take_isPrefix_all kind uses later) hlatermem]
    rw [List.getElem?_eq_getElem (List.idxOf_lt_length_of_mem hlatermem), List.getElem_idxOf]
  meaning_kept := by
    intro i later number hle hlt
    rw [(tablesBefore_eq kind uses i).2] at hlt
    have hprefix : namesOf kind (uses.take i) <+: namesOf kind (uses.take later) :=
      namesOf_take_isPrefix hle
    obtain ⟨rest, hrest⟩ := hprefix
    rw [Table.nameOf, Table.nameOf, (tablesBefore_eq kind uses i).2,
      (tablesBefore_eq kind uses later).2, ← hrest, List.getD_append _ _ _ _ hlt]
  order := by
    intro i a ha hkind
    obtain ⟨hnumber, hmem⟩ := numberAt_eq ha hkind
    rw [hnumber, toNat_ofNat_idxOf hbound ((namesOf_take_isPrefix_all kind uses _).subset hmem)]
  range := by
    have hall : namesOf kind (uses.take uses.length) = namesOf kind uses := by
      rw [List.take_length]
    intro n
    rw [(tablesBefore_eq kind uses uses.length).2, hall]
    constructor
    · intro hlt
      have hmem := List.getElem_mem hlt
      refine ⟨_, List.mem_eraseDups.mp hmem, ?_⟩
      rw [numberAt_eq_of_mem (hall.symm ▸ hmem), toNat_ofNat_idxOf hbound hmem]
      exact (nodup_namesOf kind uses).idxOf_getElem n hlt
    · rintro ⟨name, hname, rfl⟩
      have hmem : name ∈ namesOf kind uses := List.mem_eraseDups.mpr hname
      rw [numberAt_eq_of_mem (hall.symm ▸ hmem), toNat_ofNat_idxOf hbound hmem]
      exact List.idxOf_lt_length_of_mem hmem
  reserved := fun _ _ hname index => intern_reserved hname index
  other_kept := by
    intro i a ha hkind
    rw [tablesBefore, List.take_add_one, ha, Option.toList_some, Tables.noteAll,
      List.foldl_append]
    exact (Tables.table_intern _ _ _ _).trans (if_neg hkind)

end

/-- The names that have constants for symbols. -/
def Symbol.constants : List (String × Symbol) :=
  [("", .empty), ("bang", .bang), ("float", .float), ("symbol", .symbol), ("list", .list),
    ("pointer", .pointer), ("set", .set)]

theorem run_constant (uses : List NameUse) (index : Nat) {entry : String × Symbol}
    (hentry : entry ∈ Symbol.constants) :
    (Numbering.symbol entry.1).run (tablesBefore uses index) =
      (entry.2, tablesBefore uses index) := by
  obtain ⟨n, hn⟩ := List.getElem?_of_mem hentry
  have hreserved : NameKind.symbol.reserved[n]? = some entry.1 := by
    have hnames : Symbol.constants.map Prod.fst = NameKind.symbol.reserved := rfl
    rw [← hnames, List.getElem?_map, hn]
    rfl
  have hnumber : entry.2 = ⟨UInt32.ofNat n⟩ := by
    have hall : ∀ n (hlt : n < Symbol.constants.length),
        Symbol.constants[n].2 = ⟨UInt32.ofNat n⟩ := by decide
    obtain ⟨hlt, rfl⟩ := List.getElem?_eq_some_iff.mp hn
    exact hall n hlt
  simp only [Numbering.symbol, intern_reserved hreserved index, hnumber]

theorem run_empty_tie (uses : List NameUse) (index : Nat) :
    (Numbering.tie "").run (tablesBefore uses index) = (.empty, tablesBefore uses index) := by
  have hreserved : NameKind.tie.reserved[0]? = some "" := rfl
  simp only [Numbering.tie, intern_reserved hreserved index]
  rfl

/-! ## The tables of names -/

theorem NameTable.find?_eq (names : List String) (name : String) :
    NameTable.find? ⟨names⟩ name = if name ∈ names then some (names.idxOf name) else none := by
  rw [NameTable.find?, List.findIdx?_eq_guard_findIdx_lt, Option.guard_eq_ite]
  have hlt : names.findIdx (· == name) < names.length ↔ name ∈ names := List.idxOf_lt_length_iff
  simp only [decide_eq_true_eq, hlt]
  rfl

/-- A table of names holds the names that are numbered, in the same order. -/
theorem names_noteAll (uses : List NameUse) :
    (NameTables.initial.noteAll uses).symbols.names = namesOf .symbol uses ∧
      (NameTables.initial.noteAll uses).ties.names = namesOf .tie uses := by
  have hnames (table : NameTable) (name : String) : (table.intern name).1.names =
      if name ∈ table.names then table.names else table.names ++ [name] := by
    rw [NameTable.intern, NameTable.find?_eq]
    by_cases hname : name ∈ table.names <;> simp [hname]
  induction uses using List.reverseRecOn with
  | nil => exact ⟨by decide, by decide⟩
  | append_singleton uses use ih =>
    obtain ⟨hsymbols, hties⟩ := ih
    have hlast : NameTables.initial.noteAll (uses ++ [use]) =
        (NameTables.initial.noteAll uses).note use := by
      rw [NameTables.noteAll, List.foldl_append]
      rfl
    rw [hlast, namesOf_concat, namesOf_concat, ← hsymbols, ← hties]
    cases use with
    | symbol name => exact ⟨hnames _ _, rfl⟩
    | tie name => exact ⟨rfl, hnames _ _⟩

/-! ## Interning -/

/-- Whatever names a host and the patches it loads use, in whatever order, numbers stand for
names in both tables, and the constants for the reserved names. -/
theorem numbers_of_uses (uses : List NameUse)
    (hbound : ∀ kind, (namesOf kind uses).length < 2 ^ 32) :
    (∀ kind, Numbers kind uses) ∧
      (∀ entry ∈ Symbol.constants, ∀ index,
        (Numbering.symbol entry.1).run (tablesBefore uses index) =
          (entry.2, tablesBefore uses index)) ∧
      (∀ index,
        (Numbering.tie "").run (tablesBefore uses index) = (.empty, tablesBefore uses index)) ∧
      ((({} : Tables).noteAll uses).symbols.names =
          (NameTables.initial.noteAll uses).symbols.names ∧
        (({} : Tables).noteAll uses).ties.names =
          (NameTables.initial.noteAll uses).ties.names) := by
  have hall (kind : NameKind) :
      ((({} : Tables).noteAll uses).table kind).names = namesOf kind uses := by
    rw [Tables.table_noteAll]
    exact (Table.ofReserved_eq _).2
  obtain ⟨hsymbols, hties⟩ := names_noteAll uses
  exact ⟨fun kind => numbers_of_lt (hbound kind), fun entry hentry index =>
    run_constant uses index hentry, run_empty_tie uses, (hall .symbol).trans hsymbols.symm,
    (hall .tie).trans hties.symm⟩

/-- A host uses a name as both kinds and again, reads a patch, and uses names of the patch. -/
def mixedUses : List NameUse :=
  [.symbol ⟨"toto"⟩, .tie ⟨"toto"⟩, .symbol ⟨"bang"⟩, .symbol ⟨"toto"⟩] ++
    readingUses "m.pd" "#N canvas 0 0 9 9 10;\n#X obj 0 0 r \\$0-a;\n#X msg 0 0 \\; toto b;\n"
      1000 ++
    [.tie ⟨"1000-a"⟩, .symbol ⟨"b"⟩]

theorem numbers_of_uses_mixed :
    (∀ kind, (namesOf kind mixedUses).length < 2 ^ 32) ∧
      namesOf .tie mixedUses = ["", "toto", "1000-a"] ∧
      namesOf .symbol mixedUses =
        ["", "bang", "float", "symbol", "list", "pointer", "set", "toto", "1000-a", "r", "b",
          "msg"] ∧
      ∀ kind, Numbers kind mixedUses := by
  have ⟨htie, hsymbol⟩ : namesOf .tie mixedUses = ["", "toto", "1000-a"] ∧
      namesOf .symbol mixedUses =
        ["", "bang", "float", "symbol", "list", "pointer", "set", "toto", "1000-a", "r", "b",
          "msg"] := by
    decide +kernel
  have hbound (kind : NameKind) : (namesOf kind mixedUses).length < 2 ^ 32 := by
    cases kind with
    | tie =>
      rw [htie]
      decide
    | symbol =>
      rw [hsymbol]
      decide
  exact ⟨hbound, htie, hsymbol, (numbers_of_uses mixedUses hbound).1⟩

end Patchbay.Numbered
