import Mathlib.Algebra.Order.BigOperators.Group.List
import Mathlib.Algebra.Order.Group.Nat
import Mathlib.Algebra.Ring.Nat
import Patchbay.Numbered.Named
import Patchbay.Proofs.Interning

/-!
# Faithful readings

Tables read a number as a name only once they have given it out, and two numbers that they
have not given out look alike. A faithful reading tells all numbers apart. Comparing numbers
is the same as comparing names then, so whatever a process does with numbers commutes with
reading, one definition after the other and without any condition on the numbers.

## Implementation notes

Tables have many faithful readings. What all of them read alike is made of numbers that have
been given out, for which the tables themselves are right: two readings disagree on every
other number. This is how it is known, without an invariant of its own for each type, that a
process only holds numbers that have names.
-/

namespace Patchbay.Numbered

variable {ρ σ τ : Reading} {tables later : Tables}

/-! ## Tables that have grown -/

namespace Tables

/-- Tables that have come about by numbering names. -/
def Grown (tables : Tables) : Prop := ∃ uses, tables = ({} : Tables).noteAll uses

/-- No two names of the tables share a number. -/
def Fits (tables : Tables) : Prop := ∀ kind, (tables.table kind).names.length ≤ 2 ^ 32

instance (tables : Tables) : Decidable tables.Fits :=
  decidable_of_iff (tables.symbols.names.length ≤ 2 ^ 32 ∧ tables.ties.names.length ≤ 2 ^ 32)
    ⟨fun h kind => by cases kind; exacts [h.1, h.2], fun h => ⟨h .symbol, h .tie⟩⟩

/-- Tables that are grown and fit. -/
structure Proper (tables : Tables) : Prop where
  grown : tables.Grown
  fits : tables.Fits

/-- Grown tables, and what they become by numbering more names. -/
def Later (tables later : Tables) : Prop :=
  tables.Grown ∧ ∃ uses, later = tables.noteAll uses

theorem grown_fresh : ({} : Tables).Grown := ⟨[], rfl⟩

theorem noteAll_append (tables : Tables) (uses more : List NameUse) :
    tables.noteAll (uses ++ more) = (tables.noteAll uses).noteAll more :=
  List.foldl_append

theorem Grown.sound (h : tables.Grown) (kind : NameKind) : (tables.table kind).Sound := by
  obtain ⟨uses, rfl⟩ := h
  rw [table_noteAll]
  exact (Table.ofReserved_eq _).1

theorem Grown.reserved_isPrefix (h : tables.Grown) (kind : NameKind) :
    kind.reserved <+: (tables.table kind).names := by
  obtain ⟨uses, rfl⟩ := h
  rw [table_noteAll, (Table.ofReserved_eq _).2]
  exact Numbered.reserved_isPrefix kind uses

theorem Later.grown (h : tables.Later later) : later.Grown := by
  obtain ⟨⟨uses, rfl⟩, more, rfl⟩ := h
  exact ⟨uses ++ more, (noteAll_append _ uses more).symm⟩

theorem Later.refl (h : tables.Grown) : tables.Later tables := ⟨h, [], rfl⟩

theorem Later.trans {last : Tables} (h : tables.Later later) (hlast : later.Later last) :
    tables.Later last := by
  obtain ⟨hgrown, uses, rfl⟩ := h
  obtain ⟨-, more, rfl⟩ := hlast
  exact ⟨hgrown, uses ++ more, (noteAll_append _ uses more).symm⟩

theorem Grown.later_note (h : tables.Grown) (use : NameUse) : tables.Later (tables.note use) :=
  ⟨h, [use], rfl⟩

/-- Later tables begin with the same names. -/
theorem Later.names_isPrefix (h : tables.Later later) (kind : NameKind) :
    (tables.table kind).names <+: (later.table kind).names := by
  obtain ⟨⟨uses, rfl⟩, more, rfl⟩ := h
  rw [← noteAll_append, table_noteAll, table_noteAll, (Table.ofReserved_eq _).2,
    (Table.ofReserved_eq _).2]
  exact namesOf_isPrefix kind uses more

theorem Later.proper (h : tables.Later later) (hlater : later.Proper) : tables.Proper where
  grown := h.1
  fits kind := Nat.le_trans (h.names_isPrefix kind).length_le (hlater.fits kind)

/-- Numbers are read off the tables in the same way for both kinds of names. -/
theorem nameOf_of_later (h : tables.Later later) (kind : NameKind) {number : UInt32}
    (hnumber : number.toNat < (tables.table kind).names.length) :
    (later.table kind).nameOf number = (tables.table kind).nameOf number := by
  obtain ⟨rest, hrest⟩ := h.names_isPrefix kind
  rw [Table.nameOf, Table.nameOf, ← hrest, List.getD_append _ _ _ _ hnumber]

end Tables

/-! ## Readings -/

namespace Reading

/-- Different numbers have different names, and the constants have theirs. -/
structure Faithful (ρ : Reading) : Prop where
  symbol_injective : Function.Injective ρ.symbol
  tie_injective : Function.Injective ρ.tie
  symbol_empty : ρ.symbol .empty = .empty
  symbol_bang : ρ.symbol .bang = .bang
  symbol_float : ρ.symbol .float = .float
  symbol_symbol : ρ.symbol .symbol = .symbol
  symbol_list : ρ.symbol .list = .list
  symbol_pointer : ρ.symbol .pointer = .pointer
  symbol_set : ρ.symbol .set = .set
  tie_empty : ρ.tie .empty = .empty

/-- A faithful reading that agrees with the tables on the numbers they have given out. -/
structure Reads (ρ : Reading) (tables : Tables) : Prop extends ρ.Faithful where
  symbol_eq : ∀ s : Symbol, s.number.toNat < tables.symbols.names.length →
    ρ.symbol s = ⟨s.name tables⟩
  tie_eq : ∀ t : Tie, t.number.toNat < tables.ties.names.length → ρ.tie t = ⟨t.name tables⟩

/-- Where two readings agree, a third agrees with them. -/
structure Meets (ρ σ τ : Reading) : Prop where
  symbol_eq : ∀ s, ρ.symbol s = σ.symbol s → τ.symbol s = ρ.symbol s
  tie_eq : ∀ t, ρ.tie t = σ.tie t → τ.tie t = ρ.tie t

/-- Later tables are read by no other readings. -/
theorem Reads.of_later (hρ : ρ.Reads later) (h : tables.Later later) : ρ.Reads tables where
  toFaithful := hρ.toFaithful
  symbol_eq s hs := by
    rw [hρ.symbol_eq s (Nat.lt_of_lt_of_le hs (h.names_isPrefix .symbol).length_le)]
    exact congrArg Patchbay.Symbol.mk (Tables.nameOf_of_later h .symbol hs)
  tie_eq t ht := by
    rw [hρ.tie_eq t (Nat.lt_of_lt_of_le ht (h.names_isPrefix .tie).length_le)]
    exact congrArg Patchbay.Tie.mk (Tables.nameOf_of_later h .tie ht)

end Reading

/-! ## There are readings -/

/-- A text that is longer than all names, one for each number. -/
def freshName (names : List String) (letter : Char) (number : Nat) : String :=
  .ofList (List.replicate ((names.map String.length).sum + number + 1) letter)

/-- The names in their places, and fresh texts behind them. -/
def extendedName (names : List String) (letter : Char) (number : UInt32) : String :=
  if number.toNat < names.length then names.getD number.toNat ""
  else freshName names letter number.toNat

theorem length_freshName (names : List String) (letter : Char) (number : Nat) :
    (freshName names letter number).length = (names.map String.length).sum + number + 1 := by
  rw [freshName, String.length_ofList, List.length_replicate]

theorem freshName_ne {names : List String} {name : String} (hname : name ∈ names) (letter : Char)
    (number : Nat) : name ≠ freshName names letter number := by
  intro heq
  have hlength := List.le_sum_of_mem (List.mem_map_of_mem (f := String.length) hname)
  rw [heq, length_freshName] at hlength
  omega

theorem getD_mem {names : List String} {number : Nat} (h : number < names.length) :
    names.getD number "" ∈ names := by
  rw [List.getD_eq_getElem _ _ h]
  exact List.getElem_mem h

theorem extendedName_injective {names : List String} (hnodup : names.Nodup) (letter : Char) :
    Function.Injective (extendedName names letter) := by
  intro a b heq
  unfold extendedName at heq
  apply UInt32.toNat_inj.mp
  split_ifs at heq with ha hb hb
  · rw [List.getD_eq_getElem _ _ ha, List.getD_eq_getElem _ _ hb] at heq
    exact (hnodup.getElem_inj_iff).mp heq
  · exact absurd heq (freshName_ne (getD_mem ha) letter _)
  · exact absurd heq.symm (freshName_ne (getD_mem hb) letter _)
  · have hlength := congrArg String.length heq
    rw [length_freshName, length_freshName] at hlength
    omega

/-- Two letters make two readings that only agree on numbers which have names. -/
theorem lt_length_of_extendedName_eq {names : List String} {number : UInt32}
    (h : extendedName names 'a' number = extendedName names 'b' number) :
    number.toNat < names.length := by
  by_contra hge
  rw [extendedName, extendedName, if_neg hge, if_neg hge] at h
  have hletters := congrArg String.toList h
  rw [freshName, freshName, String.toList_ofList, String.toList_ofList, List.replicate_succ,
    List.replicate_succ] at hletters
  exact absurd (List.cons.inj hletters).1 (by decide)

/-- The tables with fresh names, made of one letter, for the numbers that are not given out. -/
def Tables.extended (tables : Tables) (letter : Char) : Reading where
  symbol s := ⟨extendedName tables.symbols.names letter s.number⟩
  tie t := ⟨extendedName tables.ties.names letter t.number⟩

namespace Tables

theorem extendedName_of_lt (kind : NameKind) (letter : Char) {number : UInt32}
    (h : number.toNat < (tables.table kind).names.length) :
    extendedName (tables.table kind).names letter number = (tables.table kind).nameOf number :=
  if_pos h

/-- The constants are read as their names. -/
theorem Grown.extendedName_reserved (h : tables.Grown) (kind : NameKind) (letter : Char) {n : Nat}
    {name : String} (hname : kind.reserved[n]? = some name) :
    extendedName (tables.table kind).names letter (UInt32.ofNat n) = name := by
  have hshort : kind.reserved.length ≤ 7 := by cases kind <;> decide
  have hlt := (List.getElem?_eq_some_iff.mp hname).1
  have hnumber : (UInt32.ofNat n).toNat = n := by
    rw [UInt32.toNat_ofNat']
    omega
  obtain ⟨rest, hrest⟩ := h.reserved_isPrefix kind
  have hget : (tables.table kind).names[n]? = some name := by
    rw [← hrest, List.getElem?_append_left hlt, hname]
  rw [extendedName, hnumber, if_pos (List.getElem?_eq_some_iff.mp hget).1,
    List.getD_eq_getElem?_getD, hget, Option.getD_some]

theorem Grown.faithful_extended (h : tables.Grown) (letter : Char) :
    (tables.extended letter).Faithful := by
  have hsymbol {n : Nat} {name : String} (hname : NameKind.symbol.reserved[n]? = some name) :
      (tables.extended letter).symbol ⟨UInt32.ofNat n⟩ = ⟨name⟩ :=
    congrArg Patchbay.Symbol.mk (h.extendedName_reserved .symbol letter hname)
  exact
    { symbol_injective := fun s t hst => congrArg Symbol.mk
        (extendedName_injective (h.sound .symbol).nodup letter (Patchbay.Symbol.mk.inj hst))
      tie_injective := fun s t hst => congrArg Tie.mk
        (extendedName_injective (h.sound .tie).nodup letter (Patchbay.Tie.mk.inj hst))
      symbol_empty := hsymbol (n := 0) rfl
      symbol_bang := hsymbol (n := 1) rfl
      symbol_float := hsymbol (n := 2) rfl
      symbol_symbol := hsymbol (n := 3) rfl
      symbol_list := hsymbol (n := 4) rfl
      symbol_pointer := hsymbol (n := 5) rfl
      symbol_set := hsymbol (n := 6) rfl
      tie_empty := congrArg Patchbay.Tie.mk
        (h.extendedName_reserved .tie letter (n := 0) rfl) }

theorem Grown.reads_extended (h : tables.Grown) (letter : Char) :
    (tables.extended letter).Reads tables where
  toFaithful := h.faithful_extended letter
  symbol_eq _ hs := congrArg Patchbay.Symbol.mk (extendedName_of_lt .symbol letter hs)
  tie_eq _ ht := congrArg Patchbay.Tie.mk (extendedName_of_lt .tie letter ht)

/-- What two letters agree on is what the tables say. -/
theorem Grown.meets_extended (h : tables.Grown) :
    (tables.extended 'a').Meets (tables.extended 'b') tables.reading where
  symbol_eq s hs :=
    ((h.reads_extended 'a').symbol_eq s
      (lt_length_of_extendedName_eq (Patchbay.Symbol.mk.inj hs))).symm
  tie_eq t ht :=
    ((h.reads_extended 'a').tie_eq t
      (lt_length_of_extendedName_eq (Patchbay.Tie.mk.inj ht))).symm

end Tables

/-! ## Names come from numbers alone -/

/-- What something is called depends on what its numbers are called. -/
class LawfulNamed (α : Type) {β : Type} [Named α β] : Prop where
  named_eq {ρ σ τ : Reading} (h : ρ.Meets σ τ) {x : α} :
    named ρ x = named σ x → named τ x = named ρ x

export LawfulNamed (named_eq)

section
variable {α β γ δ : Type} [Named α β] [LawfulNamed α] [Named γ δ] [LawfulNamed γ]

instance : LawfulNamed (List α) where
  named_eq h _ hx := List.map_inj_left.mpr fun item hitem =>
    named_eq h (List.map_inj_left.mp hx item hitem)

instance : LawfulNamed (Array α) where
  named_eq h _ hx := Array.map_inj_left.mpr fun item hitem =>
    named_eq h (Array.map_inj_left.mp hx item hitem)

instance : LawfulNamed (Option α) where
  named_eq h x hx := by
    cases x with
    | none => rfl
    | some x => exact congrArg some (named_eq h (Option.some.inj hx))

instance : LawfulNamed (α × γ) where
  named_eq h _ hx :=
    Prod.ext (named_eq h (congrArg Prod.fst hx)) (named_eq h (congrArg Prod.snd hx))

end

instance : LawfulNamed String := ⟨fun _ _ _ => rfl⟩

instance : LawfulNamed NodeRef := ⟨fun _ _ _ => rfl⟩

instance : LawfulNamed PatchId := ⟨fun _ _ _ => rfl⟩

instance : LawfulNamed MessageSink := ⟨fun _ _ _ => rfl⟩

instance : LawfulNamed Symbol := ⟨fun h s => h.symbol_eq s⟩

instance : LawfulNamed Tie := ⟨fun h t => h.tie_eq t⟩

instance : LawfulNamed Atom where
  named_eq h x hx := by
    cases x with
    | symbol value => exact congrArg _ (named_eq h (Patchbay.Atom.symbol.inj hx))
    | _ => rfl

instance : LawfulNamed Message where
  named_eq h x hx := by
    cases x with
    | symbol value => exact congrArg _ (named_eq h (Patchbay.Message.symbol.inj hx))
    | list atoms => exact congrArg _ (named_eq h (Patchbay.Message.list.inj hx))
    | anything selector arguments =>
      injection hx with hselector harguments
      exact congrArg₂ Patchbay.Message.anything (named_eq h hselector) (named_eq h harguments)
    | _ => rfl

instance : LawfulNamed Emission where
  named_eq h x hx := by
    cases x with
    | outlet index message =>
      injection hx with _ hmessage
      exact congrArg _ (named_eq h hmessage)
    | send tie message =>
      injection hx with htie hmessage
      exact congrArg₂ Patchbay.Emission.send (named_eq h htie) (named_eq h hmessage)
    | _ => rfl

instance : LawfulNamed PieceAtom where
  named_eq h x hx := by
    cases x with
    | literal atom => exact congrArg _ (named_eq h (Patchbay.PieceAtom.literal.inj hx))
    | argument index => rfl

instance : LawfulNamed Piece where
  named_eq h x hx := by
    injection hx with htarget hatoms
    exact congrArg₂ Patchbay.Piece.mk (named_eq h htarget) (named_eq h hatoms)

instance : LawfulNamed Gui where
  named_eq h x hx := by
    injection hx with _ hlabel hsend hreceive
    simp only [named, h.symbol_eq _ hlabel, h.tie_eq _ hsend, h.tie_eq _ hreceive]

instance : LawfulNamed Node where
  named_eq h x hx := by
    cases x with
    | receive tie => exact congrArg _ (named_eq h (Patchbay.Node.receive.inj hx))
    | send tie => exact congrArg _ (named_eq h (Patchbay.Node.send.inj hx))
    | messageBox pieces => exact congrArg _ (named_eq h (Patchbay.Node.messageBox.inj hx))
    | gui state => exact congrArg _ (named_eq h (Patchbay.Node.gui.inj hx))
    | _ => rfl

instance : LawfulNamed PatchObject where
  named_eq {ρ _ _} h x hx := by
    injection hx with hname _ _ hnode
    exact congrArg₂ (fun name node => ({ named ρ x with name, node } : Patchbay.PatchObject))
      (named_eq h hname) (named_eq h hnode)

instance : LawfulNamed Patch where
  named_eq {ρ _ _} h x hx :=
    congrArg (fun objects => ({ named ρ x with objects } : Patchbay.Patch))
      (named_eq h (congrArg Patchbay.Patch.objects hx))

instance : LawfulNamed Slot where
  named_eq {ρ _ _} h x hx :=
    congrArg (fun patch => ({ named ρ x with patch } : Patchbay.Slot))
      (named_eq h (congrArg Patchbay.Slot.patch hx))

instance : LawfulNamed Listeners where
  named_eq {ρ _ _} h x hx :=
    congrArg (fun atTies => ({ named ρ x with atTies } : Patchbay.Listeners))
      (named_eq h (congrArg Patchbay.Listeners.atTies hx))

instance : LawfulNamed Engine where
  named_eq h x hx := by
    injection hx with hslots hlisteners hstack
    exact (Patchbay.Engine.mk.injEq ..).mpr
      ⟨named_eq h hslots, named_eq h hlisteners, named_eq h hstack, rfl, rfl, rfl⟩

instance : LawfulNamed Call where
  named_eq h x hx := by
    cases x with
    | plain call => rfl
    | message label tie message =>
      injection hx with _ htie hmessage
      exact congrArg₂ (Patchbay.Call.message label) (named_eq h htie) (named_eq h hmessage)
    | kindMessage label tie message =>
      injection hx with _ htie hmessage
      exact congrArg₂ (Patchbay.Call.kindMessage label) (named_eq h htie) (named_eq h hmessage)

instance : LawfulNamed Hooks where
  named_eq {ρ _ _} h x hx :=
    congrArg (fun bindings => ({ named ρ x with bindings } : Patchbay.Hooks))
      (named_eq h (congrArg Patchbay.Hooks.bindings hx))

instance : LawfulNamed Command where
  named_eq h x hx := by
    cases x with
    | send tie message =>
      injection hx with htie hmessage
      exact congrArg₂ Patchbay.Command.send (named_eq h htie) (named_eq h hmessage)
    | midi event => rfl

instance : LawfulNamed CommandQueue where
  named_eq {ρ _ _} h x hx :=
    congrArg (fun pending => ({ named ρ x with pending } : Patchbay.CommandQueue))
      (named_eq h (congrArg Patchbay.CommandQueue.pending hx))

instance : LawfulNamed Instance where
  named_eq {ρ _ _} h x hx := by
    injection hx with _ hengine hhooks
    exact congrArg₂ (fun engine hooks => ({ named ρ x with engine, hooks } : Patchbay.Instance))
      (named_eq h hengine) (named_eq h hhooks)

instance : LawfulNamed SharedInstance where
  named_eq {ρ _ _} h x hx :=
    congrArg (fun inst => ({ named ρ x with inst } : Patchbay.SharedInstance))
      (named_eq h (congrArg Patchbay.SharedInstance.inst hx))

instance {State State' Value : Type} [Named State State'] [LawfulNamed State] :
    LawfulNamed (Outcome State Value) where
  named_eq {ρ _ _} h x hx := by
    injection hx with hstate hcalls
    exact congrArg₂
      (fun state calls =>
        ({ state, calls, result := x.result } : Patchbay.Outcome State' Value))
      (named_eq h hstate) (named_eq h hcalls)

instance : LawfulNamed Rack where
  named_eq {ρ _ _} h x hx := by
    injection hx with _ hinstances _ hqueues
    exact congrArg₂ (fun instances queues => ({ named ρ x with instances, queues } : Patchbay.Rack))
      (named_eq h hinstances) (named_eq h hqueues)

end Patchbay.Numbered
