import Mathlib.Data.List.Forall2
import Patchbay.Proofs.Ranges
import Patchbay.Proofs.Saturation

/-!
# Where boxes are and how large they are

The label of a GUI object stands at an offset from its box, and the size of the object is an
argument, as many copies of an argument as another one says, or room for a number of digits.
Every other box is as wide as its columns of characters. All of this is computed with 32-bit
integers that stick at the ends of their range, one operation after the other. The label is
where the exact sum says, moved into the range, and a size that is made of numbers that are not
negative is the exact size, capped at the upper end of the range.

## Implementation notes

Which arguments make up a size is a table with three rules, so that the arithmetic is looked at
once for each rule and not for each class.
-/

namespace Patchbay

/-! ## Sizes from creation arguments -/

/-- A creation argument that is read as an integer. -/
structure IntegerArgument where
  index : Nat
  default : Int32

namespace IntegerArgument

/-- What the argument is read as. -/
def word (arguments : List Atom) (argument : IntegerArgument) : Int32 :=
  GuiArguments.int arguments argument.index argument.default

/-- The integer that the number at the position stands for, or the default. -/
def value (arguments : List Atom) (argument : IntegerArgument) : Int :=
  match arguments[argument.index]? with
  | some (.float number) => Number.asInteger number
  | _ => argument.default.toInt

theorem toInt_word (arguments : List Atom) (argument : IntegerArgument) :
    (argument.word arguments).toInt = argument.value arguments := by
  unfold word value GuiArguments.int
  cases arguments[argument.index]? with
  | none => rfl
  | some atom =>
    cases atom with
    | float number => exact Number.toInt_truncate number
    | _ => rfl

end IntegerArgument

/-- How a size is made from creation arguments. -/
inductive SizeRule where
  /-- The argument itself. -/
  | argument (size : IntegerArgument)
  /-- As many copies of an argument as another one says, but at least one. -/
  | copies (size count : IntegerArgument)
  /-- A number of characters, half a height and a margin. -/
  | digits (count height : IntegerArgument)

namespace SizeRule

/-- The size as it is computed. -/
def word (arguments : List Atom) (cellWidth : Int32) : SizeRule → Int32
  | argument size => size.word arguments
  | copies size count => saturatingMul (size.word arguments) (max (count.word arguments) 1)
  | digits count height =>
    saturatingAdd (saturatingAdd (saturatingMul (count.word arguments) cellWidth)
      (height.word arguments / 2)) 4

/-- The exact size. -/
def result (arguments : List Atom) (cellWidth : Int) : SizeRule → Int
  | argument size => size.value arguments
  | copies size count => size.value arguments * max (count.value arguments) 1
  | digits count height => count.value arguments * cellWidth + height.value arguments / 2 + 4

/-- The numbers that a size is made of and that must not be negative. -/
def parts (arguments : List Atom) (cellWidth : Int) : SizeRule → List Int
  | argument size => [size.value arguments]
  | copies size _ => [size.value arguments]
  | digits count height => [count.value arguments, height.value arguments, cellWidth]

theorem caps_word (arguments : List Atom) (cellWidth : Int32) (rule : SizeRule)
    (h : ∀ part ∈ rule.parts arguments cellWidth.toInt, 0 ≤ part) :
    Caps (rule.word arguments cellWidth) (rule.result arguments cellWidth.toInt) := by
  have hargument (argument : IntegerArgument) (hnonneg : 0 ≤ argument.value arguments) :
      Caps (argument.word arguments) (argument.value arguments) :=
    .of_toInt (argument.toInt_word arguments) hnonneg
  cases rule with
  | argument size => exact hargument size (h _ (by simp [parts]))
  | copies size count =>
    have hcount : (max (count.word arguments) 1).toInt = max (count.value arguments) 1 := by
      rw [toInt_max, count.toInt_word]
      rfl
    exact (hargument size (h _ (by simp [parts]))).mul (.of_toInt hcount (by omega))
  | digits count height =>
    have hheight : 0 ≤ height.value arguments := h _ (by simp [parts])
    have hhalf : (height.word arguments / 2).toInt = height.value arguments / 2 := by
      rw [Int32.toInt_div_of_ne_right _ _ (by decide), height.toInt_word]
      exact Int.tdiv_eq_ediv_of_nonneg hheight
    have hcell : Caps cellWidth cellWidth.toInt := .of_toInt rfl (h _ (by simp [parts]))
    have hcount := hargument count (h _ (by simp [parts]))
    exact ((hcount.mul hcell).add (.of_toInt hhalf (by omega))).add (.of_toInt rfl (by decide))

end SizeRule

/-! ## GUI objects -/

namespace GuiKind

/-- How wide objects of a class are. -/
def widthRule : GuiKind → SizeRule
  | bang | toggle | verticalSlider | verticalRadio | vuMeter => .argument ⟨0, 15⟩
  | horizontalSlider => .argument ⟨0, 128⟩
  | panel => .argument ⟨1, 100⟩
  | horizontalRadio => .copies ⟨0, 15⟩ ⟨3, 8⟩
  | number => .digits ⟨0, 5⟩ ⟨1, 14⟩

/-- How high objects of a class are. -/
def heightRule : GuiKind → SizeRule
  | bang | toggle | horizontalRadio => .argument ⟨0, 15⟩
  | horizontalSlider => .argument ⟨1, 15⟩
  | verticalSlider => .argument ⟨1, 128⟩
  | number => .argument ⟨1, 14⟩
  | vuMeter => .argument ⟨1, 120⟩
  | panel => .argument ⟨2, 60⟩
  | verticalRadio => .copies ⟨0, 15⟩ ⟨3, 8⟩

/-- The offset of the label to the right. -/
def labelX : GuiKind → IntegerArgument
  | vuMeter => ⟨4, -1⟩
  | toggle => ⟨5, 0⟩
  | panel => ⟨6, 0⟩
  | bang | horizontalRadio | verticalRadio => ⟨7, 0⟩
  | number | horizontalSlider | verticalSlider => ⟨9, 0⟩

/-- The offset of the label downwards, which is the argument behind the one to the right. -/
def labelY (kind : GuiKind) : IntegerArgument := ⟨kind.labelX.index + 1, -8⟩

end GuiKind

/-- A GUI object whose box is at `(x, y)` has the label and the size that its arguments say. -/
structure Gui.IsPlaced (gui : Gui) (arguments : List Atom) (x y cellWidth : Int) : Prop where
  labelX : gui.labelX.toInt = saturate (x + gui.kind.labelX.value arguments)
  labelY : gui.labelY.toInt = saturate (y + gui.kind.labelY.value arguments)
  width : (∀ part ∈ gui.kind.widthRule.parts arguments cellWidth, 0 ≤ part) →
    gui.width.toInt = min (gui.kind.widthRule.result arguments cellWidth) largestInteger
  height : (∀ part ∈ gui.kind.heightRule.parts arguments cellWidth, 0 ≤ part) →
    gui.height.toInt = min (gui.kind.heightRule.result arguments cellWidth) largestInteger

namespace Gui
variable (kind : GuiKind) (arguments : List Atom) (x y cellWidth : Int32)

theorem labelX_create : (create kind arguments x y cellWidth).labelX =
    saturatingAdd x (kind.labelX.word arguments) := by
  cases kind <;> rfl

theorem labelY_create : (create kind arguments x y cellWidth).labelY =
    saturatingAdd y (kind.labelY.word arguments) := by
  cases kind <;> rfl

theorem width_create : (create kind arguments x y cellWidth).width =
    kind.widthRule.word arguments cellWidth := by
  cases kind with
  | number =>
    simp only [create, withNames, numberBox]
    rfl
  | _ => rfl

theorem height_create : (create kind arguments x y cellWidth).height =
    kind.heightRule.word arguments cellWidth := by
  cases kind <;> rfl

theorem isPlaced_create :
    (create kind arguments x y cellWidth).IsPlaced arguments x.toInt y.toInt cellWidth.toInt := by
  have hkind := kind_create kind arguments x y cellWidth
  constructor <;> rw [hkind]
  · rw [labelX_create, toInt_saturatingAdd, IntegerArgument.toInt_word]
  · rw [labelY_create, toInt_saturatingAdd, IntegerArgument.toInt_word]
  · intro hparts
    rw [width_create]
    exact (kind.widthRule.caps_word arguments cellWidth hparts).toInt_eq
  · intro hparts
    rw [height_create]
    exact (kind.heightRule.caps_word arguments cellWidth hparts).toInt_eq

end Gui

/-! ## Boxes of text -/

/-- A box has the size of a text of `length` characters in a number of columns. -/
structure Bounds.FitsText (bounds : Bounds) (fontSize : Int32) (length : Nat) (columns : Int) :
    Prop where
  width : 0 ≤ columns → length < 2 ^ 31 →
    bounds.width.toInt = min (columns * (fontCell fontSize).1.toInt + 4) largestInteger
  height : bounds.height.toInt = (fontCell fontSize).2.toInt + 5

/-- The columns that are given, or else one for each of `length` characters and at least three. -/
def columnsOf (length : Nat) (columns : Option Int32) : Int :=
  columns.elim (max length 3) Int32.toInt

theorem fontCell_size (fontSize : Int32) :
    0 ≤ (fontCell fontSize).1.toInt ∧
      ((fontCell fontSize).2 + 5).toInt = (fontCell fontSize).2.toInt + 5 := by
  have hcell := test_fontCell (fun cell => decide
    (0 ≤ cell.1.toInt ∧ (cell.2 + 5).toInt = cell.2.toInt + 5)) (by decide) fontSize
  exact of_decide_eq_true hcell

theorem fitsText_textBounds (fontSize x y : Int32) (length : Nat) (columns : Option Int32) :
    (textBounds fontSize x y length columns).FitsText fontSize length
      (columnsOf length columns) := by
  obtain ⟨hcell, hheight⟩ := fontCell_size fontSize
  refine ⟨fun hnonneg hlength => ?_, hheight⟩
  have hcolumns : (columns.getD (max (Int32.ofNat length) 3)).toInt = columnsOf length columns := by
    cases columns with
    | some columns => rfl
    | none =>
      -- A longer text would be counted with the bits that fit.
      rw [Option.getD_none, toInt_max, Int32.toInt_ofNat_of_lt hlength]
      rfl
  have hwords : Caps _ (columnsOf length columns) := .of_toInt hcolumns hnonneg
  exact ((hwords.mul (.of_toInt rfl hcell)).add (.of_toInt rfl (by decide))).toInt_eq

/-! ## Records -/

namespace Record

/-- The integer that the number at a position stands for, zero if there is none. -/
def integer (record : Record) (index : Nat) : Int :=
  match (record.word? index).bind fun word => Number.readNumber word.toList with
  | some value => Number.asInteger value
  | none => 0

theorem toInt_int (record : Record) (index : Nat) :
    (record.int index).toInt = record.integer index := by
  unfold int integer
  cases (record.word? index).bind fun word => Number.readNumber word.toList with
  | none => rfl
  | some value => exact Number.toInt_truncate value

/-- A record makes a GUI object, with words for its arguments. -/
def IsGui (record : Record) (kind : GuiKind) (words : List String) : Prop :=
  ∃ className, record.IsObject className words ∧ GuiKind.ofClass? className = some kind

/-- A record makes a number, symbol or list entry box. -/
def IsEntry (record : Record) : Prop :=
  record.word? 1 ∈ [some "floatatom", some "symbolatom", some "listbox"]

/-- A record ends with a number of columns for its box. -/
def GivesColumns (record : Record) (columns : Int) : Prop :=
  record.word? 1 = some "obj" ∧ leastInteger ≤ columns ∧ columns ≤ largestInteger ∧
    ∃ rest word, record.body = rest ++ [.comma, .word "f", .word word] ∧
      IsWrittenInteger word.toList columns

/-- The columns of a box that shows a text. -/
inductive HasColumns (record : Record) (text : String) : Int → Prop
  /-- An entry box has the columns that its record says, five instead of none. -/
  | entry (h : record.IsEntry) :
    HasColumns record text (if record.integer 4 = 0 then 5 else record.integer 4)
  | given {columns : Int} (h : record.GivesColumns columns) : HasColumns record text columns
  /-- Elsewhere the characters are counted. -/
  | counted (hentry : ¬ record.IsEntry) (hgiven : ∀ columns, ¬ record.GivesColumns columns) :
    HasColumns record text (max text.length 3)

end Record

theorem splitColumns_eq_some_iff {tokens : List Token} {columns : Int32} :
    (splitColumns tokens).2 = some columns ↔
      ∃ rest word, tokens = rest ++ [Token.comma, Token.word "f", Token.word word] ∧
        IsWrittenInteger word.toList columns.toInt := by
  simp only [← readInt32_eq_some_iff]
  unfold splitColumns
  split
  · rename_i written rest hreverse
    have htokens : tokens = rest.reverse ++ [Token.comma, Token.word "f", Token.word written] := by
      rw [← List.reverse_inj, hreverse]
      simp
    constructor
    · intro h
      exact ⟨rest.reverse, written, htokens, h⟩
    · rintro ⟨rest', word, heq, h⟩
      rw [htokens] at heq
      obtain ⟨-, hlast⟩ := List.append_inj' heq rfl
      obtain rfl : written = word := by simpa using hlast
      exact h
  · rename_i hnone
    simp only [reduceCtorEq, false_iff, not_exists, not_and]
    rintro rest word rfl
    exact absurd (by simp) (hnone word rest.reverse)

theorem Record.givesColumns_iff {record : Record} {columns : Int} :
    record.GivesColumns columns ↔ record.word? 1 = some "obj" ∧
      ∃ word : Int32, (splitColumns record.body).2 = some word ∧ word.toInt = columns := by
  simp only [splitColumns_eq_some_iff]
  constructor
  · rintro ⟨hkind, hlow, hhigh, rest, written, hbody, hwritten⟩
    have hword : (Int32.ofInt columns).toInt = columns := by
      unfold leastInteger largestInteger at *
      exact Int32.toInt_ofInt_of_le (by omega) (by omega)
    exact ⟨hkind, .ofInt columns, ⟨rest, written, hbody, by rwa [hword]⟩, hword⟩
  · rintro ⟨hkind, word, ⟨rest, written, hbody, hwritten⟩, rfl⟩
    exact ⟨hkind, leastInteger_le_toInt word, toInt_le_largestInteger word, rest, written, hbody,
      hwritten⟩

/-- A record settles the columns of its box. -/
theorem Record.HasColumns.unique {record : Record} {text : String} {m n : Int}
    (hm : record.HasColumns text m) (hn : record.HasColumns text n) : m = n := by
  have hdisjoint {columns : Int} (hentry : record.IsEntry) : ¬ record.GivesColumns columns := by
    intro hgiven
    rw [IsEntry, hgiven.1] at hentry
    exact absurd hentry (by decide)
  cases hm with
  | entry hentry =>
    cases hn with
    | entry => rfl
    | given hgiven => exact absurd hgiven (hdisjoint hentry)
    | counted hplain => exact absurd hentry hplain
  | given hgiven =>
    cases hn with
    | entry hentry => exact absurd hgiven (hdisjoint hentry)
    | given hgiven' =>
      obtain ⟨-, word, hword, rfl⟩ := givesColumns_iff.mp hgiven
      obtain ⟨-, word', hword', rfl⟩ := givesColumns_iff.mp hgiven'
      obtain rfl : word = word' := Option.some.inj (hword.symm.trans hword')
      rfl
    | counted _ hnone => exact absurd hgiven (hnone _)
  | counted hplain hnone =>
    cases hn with
    | entry hentry => exact absurd hentry hplain
    | given hgiven => exact absurd hgiven (hnone _)
    | counted => rfl

/-- The columns of a box that is not an entry box are those that its record gives, if any. -/
theorem Record.hasColumns_columnsOf {record : Record} (hentry : ¬ record.IsEntry) (text : String)
    {columns : Option Int32}
    (h : ∀ word, columns = some word ↔
      record.word? 1 = some "obj" ∧ (splitColumns record.body).2 = some word) :
    record.HasColumns text (columnsOf text.length columns) := by
  cases columns with
  | some word =>
    obtain ⟨hkind, hsplit⟩ := (h word).mp rfl
    exact .given (givesColumns_iff.mpr ⟨hkind, word, hsplit, rfl⟩)
  | none =>
    refine .counted hentry fun columns hgiven => ?_
    obtain ⟨hkind, word, hsplit, -⟩ := givesColumns_iff.mp hgiven
    cases (h word).mpr ⟨hkind, hsplit⟩

/-! ## Patches -/

/-- An object is where its record says, and as large as a GUI object or a box of text of that
record. -/
structure Record.Places (record : Record) (patch : Patch) (object : PatchObject) : Prop where
  x : object.bounds.x.toInt = record.integer 2
  y : object.bounds.y.toInt = record.integer 3
  gui : ∀ kind words, record.IsGui kind words →
    ∃ gui, object.node = .gui gui ∧ gui.kind = kind ∧
      object.bounds.width = gui.width ∧ object.bounds.height = gui.height ∧
      gui.IsPlaced (words.map fun word => expandWord word patch.dollarZero) (record.integer 2)
        (record.integer 3) (fontCell patch.fontSize).1.toInt
  text : (∀ kind words, ¬ record.IsGui kind words) →
    (∃ columns, record.HasColumns object.text columns) ∧
      ∀ columns, record.HasColumns object.text columns →
        object.bounds.FitsText patch.fontSize object.text.length columns

namespace Canvas
variable (canvas : Canvas) {record : Record}

theorem box_of_isGui {kind : GuiKind} {words : List String} (h : record.IsGui kind words) :
    let gui := Gui.create kind (words.map fun word => expandWord word canvas.dollarZero)
      (record.int 2) (record.int 3) (fontCell canvas.fontSize).1
    (canvas.box record).node = .gui gui ∧
      (canvas.box record).bounds =
        { x := record.int 2, y := record.int 3, width := gui.width, height := gui.height } := by
  obtain ⟨className, hobject, hclass⟩ := h
  refine ⟨hobject.node_box_of_gui canvas hclass, ?_⟩
  simp only [box, hobject.kind, object, hobject.className_eq, Option.getD_some,
    hobject.arguments_eq, hclass]

/-- An `obj` record without a class of GUI objects makes a box of text. -/
theorem bounds_object (hmark : record.word? 0 = some "#X") (hkind : record.word? 1 = some "obj")
    (h : ∀ kind words, ¬ record.IsGui kind words) :
    (canvas.object record).1.bounds =
      canvas.bounds record (canvas.object record).1.text (splitColumns record.body).2 := by
  have hclass : GuiKind.ofClass? ((headWord? (splitColumns record.body).1).getD "") = none := by
    cases hhead : headWord? (splitColumns record.body).1 with
    | none => rfl
    | some className =>
      by_contra hsome
      obtain ⟨kind, hfound⟩ := Option.ne_none_iff_exists'.mp hsome
      exact h kind _ ⟨className, ⟨hmark, hkind, hhead, rfl⟩, hfound⟩
  unfold object
  simp only [hclass]
  split
  · rfl
  · split <;> rfl

theorem hasColumns_entryBox (h : record.IsEntry) (className : String) :
    ∃ columns : Option Int32,
      (canvas.entryBox className record).bounds = canvas.bounds record className columns ∧
        record.HasColumns className (columnsOf className.length columns) := by
  refine ⟨some (if record.int 4 = 0 then 5 else record.int 4), ?_, ?_⟩
  · simp only [entryBox, bounds, textBounds, Option.getD_some]
  · have hzero : record.int 4 = 0 ↔ record.integer 4 = 0 := by
      rw [← record.toInt_int, ← Int32.toInt_inj]
      rfl
    have hcolumns :
        columnsOf className.length (some (if record.int 4 = 0 then 5 else record.int 4)) =
          if record.integer 4 = 0 then 5 else record.integer 4 := by
      change Int32.toInt (if record.int 4 = 0 then 5 else record.int 4) = _
      simp only [hzero]
      split
      · rfl
      · exact record.toInt_int 4
    rw [hcolumns]
    exact .entry h

/-- What is no GUI object is a box of its text. -/
theorem hasColumns_box (hmark : record.word? 0 = some "#X")
    (h : ∀ kind words, ¬ record.IsGui kind words) :
    ∃ columns : Option Int32,
      (canvas.box record).bounds = canvas.bounds record (canvas.box record).text columns ∧
        record.HasColumns (canvas.box record).text
          (columnsOf (canvas.box record).text.length columns) := by
  have hcounted (hentry : ¬ record.IsEntry) (hkind : record.word? 1 ≠ some "obj")
      (text : String) : record.HasColumns text (columnsOf text.length none) :=
    record.hasColumns_columnsOf hentry text fun word => by simp [hkind]
  -- By the kinds of records; the last case is a nested canvas.
  unfold box
  split
  · rename_i hkind
    have hentry : ¬ record.IsEntry := by simp [Record.IsEntry, hkind]
    exact ⟨_, canvas.bounds_object hmark hkind h,
      record.hasColumns_columnsOf hentry _ fun word => by simp [hkind]⟩
  · rename_i hkind
    exact ⟨none, rfl, hcounted (by simp [Record.IsEntry, hkind]) (by simp [hkind]) _⟩
  · rename_i hkind
    exact ⟨none, rfl, hcounted (by simp [Record.IsEntry, hkind]) (by simp [hkind]) _⟩
  · rename_i hkind
    exact canvas.hasColumns_entryBox (by simp [Record.IsEntry, hkind]) _
  · rename_i hkind
    exact canvas.hasColumns_entryBox (by simp [Record.IsEntry, hkind]) _
  · rename_i hkind
    exact canvas.hasColumns_entryBox (by simp [Record.IsEntry, hkind]) _
  · rename_i hobj _ _ hfloat hsymbol hlist
    have hentry : ¬ record.IsEntry := by simpa [Record.IsEntry] using ⟨hfloat, hsymbol, hlist⟩
    exact ⟨none, rfl, hcounted hentry hobj _⟩

end Canvas

/-- Every object is placed as the record that makes it says. -/
theorem Record.places_box {record : Record} (hmark : record.word? 0 = some "#X") (patch : Patch) :
    record.Places patch (patch.canvas.box record) := by
  have hposition : (patch.canvas.box record).bounds.x = record.int 2 ∧
      (patch.canvas.box record).bounds.y = record.int 3 := by
    by_cases h : ∃ kind words, record.IsGui kind words
    · obtain ⟨kind, words, h⟩ := h
      rw [(patch.canvas.box_of_isGui h).2]
      exact ⟨rfl, rfl⟩
    · obtain ⟨columns, hbounds, -⟩ := patch.canvas.hasColumns_box hmark
        fun kind words hgui => h ⟨kind, words, hgui⟩
      rw [hbounds]
      exact ⟨rfl, rfl⟩
  refine ⟨?_, ?_, ?_, ?_⟩
  · rw [hposition.1, record.toInt_int]
  · rw [hposition.2, record.toInt_int]
  · intro kind words h
    obtain ⟨hnode, hbounds⟩ := patch.canvas.box_of_isGui h
    refine ⟨_, hnode, Gui.kind_create _ _ _ _ _, by rw [hbounds], by rw [hbounds], ?_⟩
    rw [← record.toInt_int, ← record.toInt_int]
    exact Gui.isPlaced_create _ _ _ _ _
  · intro h
    obtain ⟨columns, hbounds, hcolumns⟩ := patch.canvas.hasColumns_box hmark h
    refine ⟨⟨_, hcolumns⟩, fun other hother => ?_⟩
    rw [hother.unique hcolumns, hbounds]
    exact fitsText_textBounds _ _ _ _ columns

/-- A GUI object is placed as its arguments say, whatever they are and however wide a character
is. The objects of a patch that has been read are those of its records, in order, and each is
placed as its record says. -/
theorem places_of_readPatch :
    (∀ (kind : GuiKind) (arguments : List Atom) (x y cellWidth : Int32),
      (Gui.create kind arguments x y cellWidth).kind = kind ∧
        (Gui.create kind arguments x y cellWidth).IsPlaced arguments x.toInt y.toInt
          cellWidth.toInt) ∧
      ∀ name path text dollarZero patch diagnostics,
        readPatch name path text dollarZero = .ok (patch, diagnostics) →
          List.Forall₂ (fun record object => record.Places patch object) (boxRecordsOf text)
            patch.objects := by
  refine ⟨fun kind arguments x y cellWidth =>
    ⟨Gui.kind_create _ _ _ _ _, Gui.isPlaced_create _ _ _ _ _⟩, ?_⟩
  intro name path text dollarZero patch diagnostics h
  rw [(objects_of_readPatch h).2, List.forall₂_map_right_iff, List.forall₂_same]
  intro record hrecord
  exact Record.places_box (mark_of_mem_boxRecordsOf hrecord) patch

/-- The arguments of a radio that is too wide, with a label too far to the right. -/
def hugeRadio : List Atom :=
  ["100000", "1", "0", "100000", "empty", "empty", "empty", "5000", "-8"].map Atom.ofWord

/-- A patch with a radio and a box of text that are too wide, and a box of text that is not. -/
def hugeBoxes : String :=
  "#N canvas 0 0 9 9 12;\n#X obj 3 4 hradio 100000 1 0 100000;\n" ++
    "#X obj 1 1 r a, f 2000000000;\n#X obj 1 1 r zaza;\n"

theorem places_of_readPatch_hugeBoxes :
    ((Gui.create .horizontalRadio hugeRadio 2147483000 4 7).labelX.toInt = 2 ^ 31 - 1 ∧
      (Gui.create .horizontalRadio hugeRadio 2147483000 4 7).width.toInt = 2 ^ 31 - 1) ∧
      ∃ patch diagnostics,
        readPatch "h.pd" "/h.pd" hugeBoxes 1000 = .ok (patch, diagnostics) ∧
        (patch.objects.map fun object => (object.bounds.width.toInt, object.bounds.height.toInt)) =
          [(2 ^ 31 - 1, 100000), (2 ^ 31 - 1, 21), (6 * 7 + 4, 21)] ∧
        List.Forall₂ (fun record object => record.Places patch object) (boxRecordsOf hugeBoxes)
          patch.objects := by
  obtain ⟨hcreated, hread⟩ := places_of_readPatch
  constructor
  · obtain ⟨-, hplaced⟩ := hcreated .horizontalRadio hugeRadio 2147483000 4 7
    refine ⟨hplaced.labelX.trans (by decide +kernel), ?_⟩
    exact (hplaced.width (by decide +kernel)).trans (by decide +kernel)
  · have hseen : ((readPatch "h.pd" "/h.pd" hugeBoxes 1000).toOption.map fun done =>
        done.1.objects.map fun object =>
          (object.bounds.width.toInt, object.bounds.height.toInt)) =
        some [(2 ^ 31 - 1, 100000), (2 ^ 31 - 1, 21), (6 * 7 + 4, 21)] := by
      have htext : hugeBoxes = String.ofList _ := append_eq_ofList rfl rfl
      rw [htext, readPatch, readRecords_ofList]
      decide +kernel
    cases hdone : readPatch "h.pd" "/h.pd" hugeBoxes 1000 with
    | error failure =>
      rw [hdone] at hseen
      cases hseen
    | ok done =>
      obtain ⟨patch, diagnostics⟩ := done
      rw [hdone] at hseen
      exact ⟨patch, diagnostics, rfl, Option.some.inj hseen, hread _ _ _ _ _ _ hdone⟩

end Patchbay
