import Mathlib.Data.List.Basic
import Patchbay.Proofs.BoxTexts
import Patchbay.Proofs.Expansion
import Patchbay.Proofs.Numerals

/-!
# Placeholders

A word of a message box stands for an argument if its text is a dollar sign and the digits of
a size that is not zero. The patch number is filled in first, so it is the text with the
number in it that counts. In a word without a place for the number this comes down to digits
that do not begin with zero, since a dollar sign before a zero is a place.

## Implementation notes

The reader of sizes refuses a number once it is too large, before it has seen the other
digits. It reads the same texts as a reader that looks at all digits first, because more
digits never make a number smaller. It also takes a plus sign, which is kept apart here.
-/

namespace Patchbay

/-! ## Sizes -/

/-- A text is the digits of a size, and nothing else. -/
structure IsSize (digits : List Char) (number : Nat) : Prop where
  ne_nil : digits ≠ []
  isDigit : ∀ c ∈ digits, c.isDigit = true
  value : decimalValue digits = number
  lt_bound : number < sizeBound

/-- More digits never make a number smaller. -/
theorem le_foldl_digits (value : Nat) (digits : List Char) :
    value ≤ digits.foldl (fun value c => 10 * value + digitValue c) value := by
  induction digits generalizing value with
  | nil => exact Nat.le_refl value
  | cons c rest ih => exact Nat.le_trans (by omega) (ih (10 * value + digitValue c))

theorem readCountFrom_eq_ok_iff {bound value number : Nat} {digits : List Char}
    (hvalue : value < bound) :
    readCountFrom bound value digits = .ok number ↔
      (∀ c ∈ digits, c.isDigit = true) ∧
        digits.foldl (fun value c => 10 * value + digitValue c) value = number ∧
        number < bound := by
  induction digits generalizing value with
  | nil =>
    rw [readCountFrom, Except.ok.injEq]
    constructor
    · rintro rfl
      exact ⟨by simp, rfl, hvalue⟩
    · rintro ⟨-, hnumber, -⟩
      exact hnumber
  | cons c rest ih =>
    rw [List.foldl_cons, List.forall_mem_cons]
    by_cases hdigit : c.isDigit = true
    · by_cases hfits : 10 * value + digitValue c < bound
      · simp [readCountFrom, hdigit, hfits, ih hfits]
      · have hlarge := le_foldl_digits (10 * value + digitValue c) rest
        simp only [readCountFrom, hdigit, hfits, Bool.not_true, Bool.false_eq_true, ↓reduceIte,
          reduceCtorEq, false_iff, not_and, true_and]
        omega
    · simp [readCountFrom, hdigit]

theorem readCountFrom_zero_eq_ok_iff {number : Nat} {digits : List Char} (hne : digits ≠ []) :
    readCountFrom sizeBound 0 digits = .ok number ↔ IsSize digits number := by
  rw [readCountFrom_eq_ok_iff (by decide)]
  exact ⟨fun ⟨hdigits, hvalue, hbound⟩ => ⟨hne, hdigits, hvalue, hbound⟩,
    fun h => ⟨h.isDigit, h.value, h.lt_bound⟩⟩

/-- The reader takes the digits of sizes, with or without a plus sign. -/
theorem readCountBelow_eq_ok_iff {number : Nat} {text : List Char} :
    readCountBelow sizeBound text = .ok number ↔
      IsSize text number ∨ ∃ digits, text = '+' :: digits ∧ IsSize digits number := by
  have hplus (digits : List Char) : ¬ IsSize ('+' :: digits) number :=
    fun h => absurd (h.isDigit '+' List.mem_cons_self) (by decide)
  unfold readCountBelow
  split
  · simp only [reduceCtorEq, false_and, exists_false, or_false, false_iff]
    exact fun h => h.ne_nil rfl
  · simp only [reduceCtorEq, List.cons.injEq, true_and, hplus, false_or, false_iff]
    rintro ⟨digits, rfl, h⟩
    exact h.ne_nil rfl
  · rename_i digits hne
    rw [readCountFrom_zero_eq_ok_iff hne]
    simp [hplus]
  · rename_i hne hplain hsigned
    rw [readCountFrom_zero_eq_ok_iff hne]
    exact ⟨.inl, fun h => h.resolve_right fun ⟨digits, heq, _⟩ => hsigned digits heq⟩

/-! ## Words that stand for arguments -/

/-- A text is a dollar sign and the digits of a size that is not zero. -/
def IsPlaceholder (text : List Char) (number : Nat) : Prop :=
  ∃ digits, text = '$' :: digits ∧ IsSize digits number ∧ 1 ≤ number

/-- A text would be a placeholder if a plus sign were left out behind the dollar sign. -/
def IsSignedPlaceholder (text : List Char) (number : Nat) : Prop :=
  ∃ digits, text = '$' :: '+' :: digits ∧ IsSize digits number ∧ 1 ≤ number

/-- A word is written as a dollar sign and the digits of a size, the first of which is not
zero. -/
def IsWrittenPlaceholder (word : List Char) (number : Nat) : Prop :=
  ∃ digits, word = '$' :: digits ∧ IsSize digits number ∧ digits.head? ≠ some '0'

theorem argumentIndex?_eq_some_iff {text : String} {index : Nat} :
    argumentIndex? text = some index ↔
      IsPlaceholder text.toList (index + 1) ∨ IsSignedPlaceholder text.toList (index + 1) := by
  unfold argumentIndex?
  split
  · rename_i digits htext
    have hcount : readCountBelow sizeBound digits = .ok (index + 1) ↔
        IsPlaceholder text.toList (index + 1) ∨ IsSignedPlaceholder text.toList (index + 1) := by
      rw [readCountBelow_eq_ok_iff, htext]
      simp [IsPlaceholder, IsSignedPlaceholder]
    rw [← hcount]
    rcases readCountBelow sizeBound digits with problem | (_ | number) <;> simp
  · rename_i hplain
    simp only [reduceCtorEq, IsPlaceholder, IsSignedPlaceholder, false_iff, not_or]
    exact ⟨fun ⟨digits, htext, _⟩ => hplain digits htext,
      fun ⟨digits, htext, _⟩ => hplain ('+' :: digits) htext⟩

/-- No number begins with a dollar sign. -/
theorem ofWord_of_dollar {text : String} {rest : List Char} (h : text.toList = '$' :: rest) :
    Atom.ofWord text = .symbol ⟨text⟩ := by
  unfold Atom.ofWord
  cases hread : Number.readLiteral text.toList with
  | none => rfl
  | some literal =>
    obtain ⟨numeral, htext, -⟩ := Number.exists_numeral hread
    exact absurd (numeral.isNumeralChar (by rw [htext, h]; exact List.mem_cons_self))
      (by decide : ¬ Number.IsNumeralChar '$')

theorem ofAtom_ofWord_eq_argument_iff {text : String} {index : Nat} :
    PieceAtom.ofAtom (Atom.ofWord text) = .argument index ↔
      IsPlaceholder text.toList (index + 1) ∨ IsSignedPlaceholder text.toList (index + 1) := by
  rw [← argumentIndex?_eq_some_iff]
  constructor
  · unfold Atom.ofWord
    cases Number.readLiteral text.toList with
    | some literal => simp [PieceAtom.ofAtom]
    | none => cases hindex : argumentIndex? text <;> simp [PieceAtom.ofAtom, hindex]
  · intro hindex
    have hdollar : ∃ rest, text.toList = '$' :: rest := by
      rcases argumentIndex?_eq_some_iff.mp hindex with ⟨digits, h, -⟩ | ⟨digits, h, -⟩
      · exact ⟨_, h⟩
      · exact ⟨_, h⟩
    obtain ⟨rest, htext⟩ := hdollar
    simp [ofWord_of_dollar htext, PieceAtom.ofAtom, hindex]

/-- What an atom makes is itself or an argument. -/
theorem ofAtom_eq_literal_of_forall {atom : Atom}
    (h : ∀ index, PieceAtom.ofAtom atom ≠ .argument index) :
    PieceAtom.ofAtom atom = .literal atom := by
  cases atom with
  | symbol name =>
    cases hindex : argumentIndex? name.name with
    | none => simp [PieceAtom.ofAtom, hindex]
    | some index => exact absurd (by simp [PieceAtom.ofAtom, hindex]) (h index)
  | _ => rfl

/-- A part of a message box is what a text says: an argument exactly if the text is its
placeholder, and the atom of the text if it is no placeholder. -/
structure PieceAtom.Reads (text : String) (part : PieceAtom) : Prop where
  argument : ∀ index, part = .argument index ↔ IsPlaceholder text.toList (index + 1)
  literal : (∀ number, ¬ IsPlaceholder text.toList number) →
    part = .literal (Atom.ofWord text)

theorem reads_ofAtom {text : String}
    (hplain : ∀ number, ¬ IsSignedPlaceholder text.toList number) :
    (PieceAtom.ofAtom (Atom.ofWord text)).Reads text := by
  have hargument (index : Nat) : PieceAtom.ofAtom (Atom.ofWord text) = .argument index ↔
      IsPlaceholder text.toList (index + 1) := by
    rw [ofAtom_ofWord_eq_argument_iff, or_iff_left (hplain _)]
  refine ⟨hargument, fun hnone => ofAtom_eq_literal_of_forall fun index heq => ?_⟩
  exact hnone _ ((hargument index).mp heq)

/-! ## Words as they are written -/

/-- Digits that begin with a digit other than zero denote a number other than zero. -/
theorem IsSize.one_le {digits : List Char} {number : Nat} (h : IsSize digits number)
    (hfirst : digits.head? ≠ some '0') : 1 ≤ number := by
  obtain ⟨c, rest, rfl⟩ := List.exists_cons_of_ne_nil h.ne_nil
  have hdigit := h.isDigit c List.mem_cons_self
  have hne : c ≠ '0' := fun hzero => hfirst (by rw [hzero]; rfl)
  have hpos : 1 ≤ digitValue c := by
    rw [Char.isDigit_iff_toNat] at hdigit
    have hcode : c.toNat ≠ '0'.toNat := fun heq => hne (Char.toNat_inj.mp heq)
    rw [digitValue]
    have hzero : '0'.toNat = 48 := rfl
    omega
  rw [← h.value, decimalValue, List.foldl_cons]
  exact Nat.le_trans (by omega) (le_foldl_digits _ rest)

/-- A word without a place for the patch number is a placeholder exactly if it is written as
one. -/
theorem isPlaceholder_iff_of_not_hasDollarZero {word : String} (h : ¬ HasDollarZero word)
    (number : Nat) :
    IsPlaceholder word.toList number ↔ IsWrittenPlaceholder word.toList number := by
  constructor
  · rintro ⟨digits, hword, hsize, -⟩
    refine ⟨digits, hword, hsize, fun hzero => h ?_⟩
    obtain ⟨rest, rfl⟩ : ∃ rest, digits = '0' :: rest := List.head?_eq_some_iff.mp hzero
    rw [HasDollarZero, hword]
    exact ⟨[], rest, rfl⟩
  · rintro ⟨digits, hword, hsize, hfirst⟩
    exact ⟨digits, hword, hsize, hsize.one_le hfirst⟩

/-! ## The words of a box -/

namespace BoxText

/-- The words of a text that are not addresses, in order. -/
def contentWords (tokens : List Token) : List String :=
  match tokens.splitOn .semicolon with
  | opening :: groups => wordsOf opening ++ groups.flatMap fun group => (wordsOf group).tail
  | [] => []

theorem flatMap_atoms_piecesAfter (dollarZero : Int32) (target : Option Tie)
    (tokens : List Token) :
    (piecesAfter dollarZero { target } tokens).flatMap Piece.atoms =
      atomsOf dollarZero (wordsOf tokens) := by
  rw [piecesAfter_eq, List.flatMap_map, ← flatten_rows tokens, atomsOf, List.map_flatten]
  rfl

/-- The pieces of a text hold the parts that its words make, in order. -/
theorem flatMap_atoms_readPieces (dollarZero : Int32) (tokens : List Token) :
    (readPieces tokens dollarZero).flatMap Piece.atoms =
      atomsOf dollarZero (contentWords tokens) := by
  obtain ⟨opening, groups, hsplit⟩ := exists_splitOn_eq_cons .semicolon tokens
  have hwaits : Waits {} := fun hawaits => by cases hawaits
  have hgroup (group : List Token) : (groupPieces dollarZero group).flatMap Piece.atoms =
      atomsOf dollarZero (wordsOf group).tail := by
    rw [groupPieces, flatMap_atoms_piecesAfter, wordsOf_unaddressed]
  have hopening : (piecesAfter dollarZero {} opening).flatMap Piece.atoms =
      atomsOf dollarZero (wordsOf opening) := flatMap_atoms_piecesAfter dollarZero none opening
  rw [readPieces, finish_foldl_step dollarZero tokens hwaits]
  simp only [piecesOf, contentWords, hsplit, Bool.false_eq_true, ↓reduceIte,
    List.flatMap_append, hopening, List.flatMap_assoc, hgroup, atomsOf, List.map_append,
    List.map_flatMap]
  rfl

end BoxText

open BoxText in
/-- A word of a message box stands for an argument exactly if its text, with the patch number
filled in, is the placeholder of the argument, and for the atom of that text if it is no
placeholder. In a word without a place for the patch number, the text is the word, and a
placeholder is a dollar sign and digits that do not begin with zero. The message boxes of a
patch that has been read hold the parts that their words stand for, in order. -/
theorem placeholders_of_readPatch :
    (∀ (word : String) (dollarZero : Int32),
      (∀ number, ¬ IsSignedPlaceholder (expandName word dollarZero).toList number) →
        (PieceAtom.ofAtom (expandWord word dollarZero)).Reads (expandName word dollarZero)) ∧
      (∀ (word : String) (dollarZero : Int32), ¬ HasDollarZero word →
        expandName word dollarZero = word ∧
          ∀ number, IsPlaceholder word.toList number ↔ IsWrittenPlaceholder word.toList number) ∧
      ∀ name path text dollarZero patch diagnostics,
        readPatch name path text dollarZero = .ok (patch, diagnostics) →
          ∀ (index : Nat) (record : Record), (boxRecordsOf text)[index]? = some record →
            record.IsMessageBox →
              ∃ pieces, patch.node? index = some (.messageBox pieces) ∧
                pieces.flatMap Piece.atoms = (contentWords record.body).map fun word =>
                  PieceAtom.ofAtom (expandWord word dollarZero) := by
  refine ⟨fun word dollarZero hplain => reads_ofAtom hplain, ?_, ?_⟩
  · intro word dollarZero hword
    exact ⟨expandName_eq_self_iff.mpr hword, isPlaceholder_iff_of_not_hasDollarZero hword⟩
  · intro name path text dollarZero patch diagnostics h index record hrecord hbox
    have hnode : (patch.canvas.box record).node = (patch.canvas.messageBox record).node := by
      simp only [Canvas.box, hbox.kind]
    have hnumber : patch.canvas.dollarZero = dollarZero := (objects_of_readPatch h).1
    refine ⟨readPieces record.body dollarZero, ?_, flatMap_atoms_readPieces dollarZero _⟩
    rw [node?_of_readPatch h hrecord, hnode, Canvas.messageBox, hnumber]

/-- A patch with a message box whose words are two placeholders, a name with the patch number
and a word with a dollar sign. The placeholder behind the semicolon is an address. -/
def manyPlaceholders : String :=
  "#N canvas 0 0 9 9 10;\n#X msg 0 0 \\$2 a\\$0 \\$x \\; \\$1 \\$14;\n"

theorem placeholders_of_readPatch_manyPlaceholders :
    (PieceAtom.ofAtom (expandWord "$14" 1001)).Reads "$14" ∧
      (IsPlaceholder "$14".toList 14 ↔ IsWrittenPlaceholder "$14".toList 14) ∧
      ∃ patch diagnostics record pieces,
        readPatch "m.pd" "/m.pd" manyPlaceholders 1001 = .ok (patch, diagnostics) ∧
        (boxRecordsOf manyPlaceholders)[0]? = some record ∧ record.IsMessageBox ∧
        patch.node? 0 = some (.messageBox pieces) ∧
        pieces.flatMap Piece.atoms =
          [.argument 1, .literal (.symbol ⟨"a1001"⟩), .literal (.symbol ⟨"$x"⟩),
            .argument 13] := by
  have hword : ¬ HasDollarZero "$14" := by
    rw [HasDollarZero]
    decide
  obtain ⟨hreads, hwritten, hloaded⟩ := placeholders_of_readPatch
  obtain ⟨hname, hplaceholder⟩ := hwritten "$14" 1001 hword
  refine ⟨?_, hplaceholder 14, ?_⟩
  · have hplain (number : Nat) :
        ¬ IsSignedPlaceholder (expandName "$14" 1001).toList number := by
      rw [hname]
      rintro ⟨digits, heq, -⟩
      have hsecond : "$14".toList[1]? = ('$' :: '+' :: digits)[1]? := congrArg (·[1]?) heq
      revert hsecond
      simp
    simpa only [hname] using hreads "$14" 1001 hplain
  · have htext : manyPlaceholders = String.ofList _ := rfl
    have hrecord : ((boxRecordsOf manyPlaceholders)[0]?).any (fun record : Record => decide
        (record.word? 0 = some "#X" ∧ record.word? 1 = some "msg" ∧
          (BoxText.contentWords record.body).map
              (fun word => PieceAtom.ofAtom (expandWord word 1001)) =
            [.argument 1, .literal (.symbol ⟨"a1001"⟩), .literal (.symbol ⟨"$x"⟩),
              .argument 13])) = true := by
      rw [boxRecordsOf, htext, readRecords_ofList]
      decide +kernel
    obtain ⟨record, hfirst, hfound⟩ := (Option.any_eq_true _ _).mp hrecord
    obtain ⟨hmark, hkind, hparts⟩ := of_decide_eq_true hfound
    have hread : (readPatch "m.pd" "/m.pd" manyPlaceholders 1001).isOk = true := by
      rw [htext, readPatch, readRecords_ofList]
      decide +kernel
    cases hdone : readPatch "m.pd" "/m.pd" manyPlaceholders 1001 with
    | error failure =>
      rw [hdone] at hread
      cases hread
    | ok done =>
      obtain ⟨pieces, hnode, hatoms⟩ :=
        hloaded _ _ _ _ _ _ hdone 0 record hfirst ⟨hmark, hkind⟩
      exact ⟨done.1, done.2, record, pieces, rfl, hfirst, ⟨hmark, hkind⟩, hnode,
        hatoms.trans hparts⟩

/-- The patch number can make a placeholder of a word that is not written as one. -/
theorem ofAtom_expandWord_dollarDollarZero :
    PieceAtom.ofAtom (expandWord "$$0" 1000) = .argument 999 ∧
      PieceAtom.ofAtom (expandWord "$$0" 1000) ≠ .literal (Atom.ofWord (expandName "$$0" 1000)) ∧
      ∀ number, ¬ IsWrittenPlaceholder "$$0".toList number := by
  have hpart : PieceAtom.ofAtom (expandWord "$$0" 1000) = .argument 999 := by decide
  refine ⟨hpart, by rw [hpart]; simp, ?_⟩
  rintro number ⟨digits, hword, hsize, -⟩
  obtain ⟨-, rfl⟩ := List.cons.inj hword
  exact absurd (hsize.isDigit '$' List.mem_cons_self) (by decide)

end Patchbay
