import Patchbay.Proofs.Meanings

/-!
# Messages read by names

Whatever is done with atoms and messages commutes with reading. A message is told by the
number of its selector, which a faithful reading takes for the reserved name of that number
and for no other. The texts of atoms and messages are read off the tables.
-/

namespace Patchbay.Numbered

variable {ρ : Reading} {tables : Tables}

/-! ## Lists of things -/

section
variable {α β γ δ : Type} [Named α β] [Named γ δ]

@[simp] theorem named_list (items : List α) : named ρ items = items.map (named ρ) := rfl

@[simp] theorem named_option (item : Option α) : named ρ item = item.map (named ρ) := rfl

@[simp] theorem named_prod (x : α) (z : γ) : named ρ (x, z) = (named ρ x, named ρ z) := rfl

@[simp] theorem named_texts (texts : List String) : named ρ texts = texts := List.map_id texts

@[simp] theorem named_blocks (blocks : List Block) : named ρ blocks = blocks := List.map_id blocks

@[simp] theorem named_text? (text : Option String) : named ρ text = text := by
  cases text <;> rfl

theorem map_named {f : α → γ} {g : β → δ} (h : ∀ item, g (named ρ item) = named ρ (f item))
    (items : List α) : (named ρ items).map g = named ρ (items.map f) := by
  rw [named_list, named_list, List.map_map, List.map_map]
  exact List.map_congr_left fun item _ => h item

theorem getElem?_named (items : List α) (index : Nat) :
    (named ρ items)[index]? = named ρ items[index]? :=
  List.getElem?_map

theorem getD_named (items : List α) (index : Nat) (default : α) :
    (named ρ items).getD index (named ρ default) = named ρ (items.getD index default) := by
  rw [List.getD_eq_getElem?_getD, getElem?_named, List.getD_eq_getElem?_getD, named_option,
    Option.getD_map]

end

/-! ## Names -/

namespace Reading.Faithful
variable (hρ : ρ.Faithful)
include hρ

theorem symbol_eq_iff {s t : Symbol} : named ρ s = named ρ t ↔ s = t :=
  hρ.symbol_injective.eq_iff

theorem tie_eq_iff {s t : Tie} : named ρ s = named ρ t ↔ s = t := hρ.tie_injective.eq_iff

theorem beq_tie_named (s t : Tie) : (named ρ s == named ρ t) = (s == t) := by
  rw [Bool.eq_iff_iff, beq_iff_eq, beq_iff_eq, hρ.tie_eq_iff]

theorem eq_bang_iff {s : Symbol} : named ρ s = .bang ↔ s = .bang := by
  rw [← hρ.symbol_bang]
  exact hρ.symbol_eq_iff

theorem eq_float_iff {s : Symbol} : named ρ s = .float ↔ s = .float := by
  rw [← hρ.symbol_float]
  exact hρ.symbol_eq_iff

theorem eq_symbol_iff {s : Symbol} : named ρ s = .symbol ↔ s = .symbol := by
  rw [← hρ.symbol_symbol]
  exact hρ.symbol_eq_iff

theorem eq_list_iff {s : Symbol} : named ρ s = .list ↔ s = .list := by
  rw [← hρ.symbol_list]
  exact hρ.symbol_eq_iff

theorem eq_pointer_iff {s : Symbol} : named ρ s = .pointer ↔ s = .pointer := by
  rw [← hρ.symbol_pointer]
  exact hρ.symbol_eq_iff

theorem eq_set_iff {s : Symbol} : named ρ s = .set ↔ s = .set := by
  rw [← hρ.symbol_set]
  exact hρ.symbol_eq_iff

/-- A tie without a name is the one with the number of the empty name. -/
theorem isEmpty_named (t : Tie) : (named ρ t).isEmpty = t.isEmpty := by
  rw [Bool.eq_iff_iff, Patchbay.Tie.isEmpty, Tie.isEmpty, String.isEmpty_iff, beq_iff_eq,
    ← hρ.tie_eq_iff, show named ρ Tie.empty = .empty from hρ.tie_empty, Patchbay.Tie.empty]
  cases named ρ t
  simp

end Reading.Faithful

/-! ## Atoms -/

theorem asFloat_named (atom : Atom) : (named ρ atom).asFloat = atom.asFloat := by
  cases atom <;> rfl

theorem asPointer_named (atom : Atom) : (named ρ atom).asPointer = atom.asPointer := by
  cases atom <;> rfl

theorem Reading.Faithful.asSymbol_named (hρ : ρ.Faithful) (atom : Atom) :
    (named ρ atom).asSymbol = named ρ atom.asSymbol := by
  cases atom with
  | symbol value => rfl
  | _ => exact hρ.symbol_empty.symm

theorem firstOrEmpty_named (atoms : Payload) :
    Patchbay.Payload.firstOrEmpty (named ρ atoms) = named ρ atoms.firstOrEmpty := by
  cases atoms <;> rfl

theorem text_atom_named (atom : Atom) :
    (named tables.reading atom).text = atom.text tables := by
  cases atom <;> rfl

theorem text_payload_named (atoms : Payload) :
    Patchbay.Payload.text (named tables.reading atoms) = atoms.text tables := by
  rw [Patchbay.Payload.text, Payload.text, named_list, List.map_map]
  exact congrArg _ (List.map_congr_left fun atom _ => text_atom_named atom)

namespace Numbering

theorem gives_ofWord (tables : Tables) (word : String) :
    Gives tables (Atom.ofWord word) (Patchbay.Atom.ofWord word) := by
  unfold Atom.ofWord Patchbay.Atom.ofWord
  cases Number.readLiteral word.toList with
  | some literal => exact .pure (.of_named fun _ _ => rfl)
  | none =>
    refine (gives_symbol tables word).bind fun later _ name hname => ?_
    exact .pure (hname.map fun _ _ => rfl)

theorem gives_expandWord (tables : Tables) (word : String) (dollarZero : Int32) :
    Gives tables (expandWord word dollarZero) (Patchbay.expandWord word dollarZero) :=
  gives_ofWord tables _

/-- Numbering the names in an atom loses nothing. -/
theorem gives_atom (tables : Tables) (atom : Patchbay.Atom) :
    Gives tables (Atom.ofNamed atom) atom := by
  cases atom with
  | symbol value =>
    refine (gives_symbol tables value.name).bind fun later _ name hname => ?_
    exact .pure (hname.map fun _ _ => rfl)
  | _ => exact .pure (.of_named fun _ _ => rfl)

theorem gives_atoms (tables : Tables) (atoms : List Patchbay.Atom) :
    Gives tables (each Atom.ofNamed atoms) atoms := by
  have h : Gives tables (each Atom.ofNamed atoms) (atoms.map id) :=
    .each (fun later atom _ => gives_atom later atom) atoms
  rwa [List.map_id] at h

end Numbering

/-! ## Messages -/

theorem kind_named (message : Message) : (named ρ message).kind = message.kind := by
  cases message <;> rfl

theorem number?_named (message : Message) : (named ρ message).number? = message.number? := by
  cases message with
  | list atoms =>
    rcases atoms with _ | ⟨first, rest⟩
    · rfl
    · cases first <;> rfl
  | _ => rfl

namespace Reading.Faithful
variable (hρ : ρ.Faithful)
include hρ

theorem isSet_named (message : Message) : (named ρ message).isSet = message.isSet := by
  cases message with
  | anything selector arguments =>
    rw [Bool.eq_iff_iff]
    exact beq_iff_eq.trans (hρ.eq_set_iff.trans beq_iff_eq.symm)
  | _ => rfl

/-- The message a selector makes is told by its number as it is by its name. -/
theorem classify_named (selector : Symbol) (payload : Payload) :
    Patchbay.Message.classify (named ρ selector) (named ρ payload) =
      named ρ (Message.classify selector payload) := by
  simp only [Patchbay.Message.classify, Message.classify, hρ.eq_bang_iff, hρ.eq_float_iff,
    hρ.eq_symbol_iff, hρ.eq_list_iff, hρ.eq_pointer_iff, firstOrEmpty_named, asFloat_named,
    hρ.asSymbol_named, asPointer_named]
  split_ifs
  · rfl
  · rfl
  · rfl
  · rfl
  · cases payload.firstOrEmpty.asPointer <;> rfl
  · rfl

theorem ofAtoms_named (atoms : Payload) :
    Patchbay.Message.ofAtoms (named ρ atoms) = named ρ (Message.ofAtoms atoms) := by
  rcases atoms with _ | ⟨first, rest⟩
  · rfl
  · cases first with
    | symbol selector => exact hρ.classify_named selector rest
    | _ => cases rest <;> rfl

end Reading.Faithful

theorem text_message_named (message : Message) :
    (named tables.reading message).text = message.text tables := by
  cases message with
  | list atoms =>
    rcases atoms with _ | ⟨first, rest⟩
    · rfl
    · have htext : Patchbay.Payload.text (named tables.reading (first :: rest)) =
          Payload.text tables (first :: rest) := text_payload_named (first :: rest)
      cases first with
      | float value => exact htext
      | _ => exact congrArg ("list " ++ ·) htext
  | anything selector arguments =>
    rcases arguments with _ | ⟨first, rest⟩
    · rfl
    · exact congrArg (selector.name tables ++ " " ++ ·) (text_payload_named (first :: rest))
  | _ => rfl

namespace Numbering

/-- Numbering the names in a message loses nothing. -/
theorem gives_message (tables : Tables) (message : Patchbay.Message) :
    Gives tables (Message.ofNamed message) message := by
  cases message with
  | symbol value =>
    refine (gives_symbol tables value.name).bind fun later _ name hname => ?_
    exact .pure (hname.map fun _ _ => rfl)
  | list atoms =>
    refine (gives_atoms tables atoms).bind fun later _ numbered hatoms => ?_
    exact .pure (hatoms.map fun _ _ => rfl)
  | anything selector arguments =>
    refine (gives_symbol tables selector.name).bind fun later _ name hname => ?_
    refine (gives_atoms later arguments).bind fun last hlast numbered hatoms => ?_
    exact .pure ((hname.mono hlast).map₂ hatoms fun _ _ => rfl)
  | _ => exact .pure (.of_named fun _ _ => rfl)

end Numbering

end Patchbay.Numbered
