import Mathlib.Data.List.Basic
import Patchbay.Proofs.Boxes
import Patchbay.Proofs.Expansion
import Patchbay.Proofs.Listening

/-!
# The tie that a word names

A word of a patch text names a tie in several places: as the argument of a receiver or a
sender, as a name of a GUI object, and behind a semicolon in a message box. An argument is
an atom before it is a name, so a number goes by its own text there, while a message box
keeps a number as it is written. The places agree on every word that is no number, and on
the numbers that are written the way they are shown.

## Implementation notes

`$0` alone, or before digits, is a number once it is filled in. Numbers of patches beyond
`2 ^ 24` are not all exact as singles, so their text may be that of a neighbour.
-/

namespace Patchbay

/-- The tie that a word names as an argument. -/
def argumentTie (word : String) (dollarZero : Int32) : Tie := ⟨(expandWord word dollarZero).text⟩

/-- The tie that a word names in a message box. -/
def writtenTie (word : String) (dollarZero : Int32) : Tie := ⟨expandName word dollarZero⟩

/-- A word is no number once the patch number is filled in. -/
def NoNumber (word : String) (dollarZero : Int32) : Prop :=
  Number.readLiteral (expandName word dollarZero).toList = none

instance (word : String) (dollarZero : Int32) : Decidable (NoNumber word dollarZero) :=
  inferInstanceAs (Decidable (_ = none))

/-- A word is no number, or it is written the way the number is shown. -/
def ShownAsWritten (word : String) (dollarZero : Int32) : Prop :=
  ∀ literal, Number.readLiteral (expandName word dollarZero).toList = some literal →
    Number.text literal.value = expandName word dollarZero

section
variable {word : String} {dollarZero : Int32}

theorem argumentTie_of_noNumber (h : NoNumber word dollarZero) :
    argumentTie word dollarZero = writtenTie word dollarZero := by
  rw [NoNumber] at h
  simp [argumentTie, writtenTie, expandWord, Atom.ofWord, h, Atom.text]

theorem argumentTie_eq_writtenTie_iff :
    argumentTie word dollarZero = writtenTie word dollarZero ↔ ShownAsWritten word dollarZero := by
  cases hread : Number.readLiteral (expandName word dollarZero).toList with
  | none => simp [argumentTie_of_noNumber hread, ShownAsWritten, hread]
  | some literal =>
    simp [argumentTie, writtenTie, ShownAsWritten, expandWord, Atom.ofWord, hread, Atom.text]

/-- A number that no single has exactly is shown as one that a single has. -/
example : argumentTie "$0" 16777217 = argumentTie "$0" 16777216 := by decide

/-! ## Names of numbers -/

theorem Number.Decimal.text_cons (decimal : Number.Decimal) :
    ∃ c rest, decimal.text = c :: rest ∧ c.isDigit := by
  have hdigits : ∃ c rest, Nat.toDigits 10 decimal.digits = c :: rest ∧ c.isDigit := by
    obtain ⟨c, rest, hcons⟩ :=
      List.exists_cons_of_ne_nil (Nat.toDigits_ne_nil (n := decimal.digits) (b := 10))
    exact ⟨c, rest, hcons, isDigit_of_mem_toDigits (by rw [hcons]; exact List.mem_cons_self)⟩
  obtain ⟨c, rest, hcons, hdigit⟩ := hdigits
  unfold Number.Decimal.text
  rw [hcons]
  split
  · exact ⟨c, _, rfl, hdigit⟩
  · rename_i k _
    dsimp only
    split
    · rename_i hlong
      obtain ⟨n, hn⟩ : ∃ n, (c :: rest).length - (k + 1) = n + 1 :=
        ⟨(c :: rest).length - (k + 1) - 1, by omega⟩
      rw [hn]
      exact ⟨c, _, rfl, hdigit⟩
    · exact ⟨'0', _, rfl, by decide⟩

/-- No number is shown as nothing, nor as the placeholder of GUI objects. -/
theorem Number.text_ne (value : Float32) :
    Number.text value ≠ "" ∧ Number.text value ≠ "empty" := by
  have hbody : ∃ c rest, (if Number.magnitude value = Number.infinityBits then ['i', 'n', 'f']
      else Number.magnitudeText (Number.magnitude value)) = c :: rest ∧ c ≠ 'e' := by
    split
    · exact ⟨'i', _, rfl, by decide⟩
    · unfold Number.magnitudeText
      split
      · exact ⟨'0', _, rfl, by decide⟩
      · obtain ⟨c, rest, hcons, hdigit⟩ := Number.Decimal.text_cons
          (Number.shortest (Number.magnitude value))
        refine ⟨c, rest, hcons, ?_⟩
        rintro rfl
        exact absurd hdigit (by decide)
  obtain ⟨c, rest, hcons, hc⟩ := hbody
  unfold Number.text
  split
  · exact ⟨by decide, by decide⟩
  · simp only [hcons]
    split
    · simp [← String.toList_inj]
    · simp [← String.toList_inj, hc]

theorem argumentTie_ne_of_no_digit {name : String} (hname : name.toList.any Char.isDigit = false)
    (hnumber : ∀ value, Number.text value ≠ name) (hword : word ≠ name) :
    (argumentTie word dollarZero).name ≠ name := by
  unfold argumentTie expandWord Atom.ofWord
  split
  · exact hnumber _
  · intro h
    exact hword ((expandName_eq_iff_of_no_digit (List.any_eq_false.mp hname)).mp h)

/-- Every word but the empty one names a tie that has a name. -/
theorem argumentTie_ne_empty (hword : word ≠ "") : argumentTie word dollarZero ≠ .empty := by
  have hname : (argumentTie word dollarZero).name ≠ "" :=
    argumentTie_ne_of_no_digit rfl (fun value => (Number.text_ne value).1) hword
  intro h
  exact hname (congrArg Tie.name h)

theorem argumentTie_ne_placeholder (hword : word ≠ "empty") :
    (argumentTie word dollarZero).name ≠ "empty" :=
  argumentTie_ne_of_no_digit rfl (fun value => (Number.text_ne value).2) hword

end

/-! ## Arguments -/

section
variable {word : String} {words : List String} {dollarZero : Int32} {position : Nat}

theorem expandWord_cases (word : String) (dollarZero : Int32) :
    (∃ value, expandWord word dollarZero = .float value) ∨
      ∃ name, expandWord word dollarZero = .symbol name := by
  unfold expandWord Atom.ofWord
  split
  · exact .inl ⟨_, rfl⟩
  · exact .inr ⟨_, rfl⟩

theorem tieArgument_eq (rest : List Atom) :
    tieArgument (expandWord word dollarZero :: rest) = argumentTie word dollarZero := by
  rw [argumentTie]
  rcases expandWord_cases word dollarZero with ⟨value, hatom⟩ | ⟨name, hatom⟩ <;> rw [hatom] <;> rfl

theorem GuiArguments.tie_eq (hword : words[position]? = some word) (hnamed : word ≠ "empty") :
    GuiArguments.tie (words.map fun word => expandWord word dollarZero) position =
      argumentTie word dollarZero := by
  have hname : (argumentTie word dollarZero).name ≠ "empty" :=
    argumentTie_ne_placeholder hnamed
  unfold argumentTie at hname ⊢
  unfold GuiArguments.tie GuiArguments.name
  rw [List.getElem?_map, hword, Option.map_some]
  rcases expandWord_cases word dollarZero with ⟨value, hatom⟩ | ⟨name, hatom⟩
  · rw [hatom] at hname ⊢
    exact congrArg Tie.mk (if_neg hname)
  · rw [hatom] at hname ⊢
    exact congrArg Tie.mk (if_neg hname)

end

/-- Where the send name stands among the arguments of a GUI object; a meter has none. -/
def GuiKind.sendPosition? : GuiKind → Option Nat
  | .bang | .horizontalRadio | .verticalRadio => some 4
  | .toggle => some 2
  | .number | .horizontalSlider | .verticalSlider => some 6
  | .vuMeter => none
  | .panel => some 3

/-- Where the receive name stands: behind the send name if there is one. -/
def GuiKind.receivePosition (kind : GuiKind) : Nat := kind.sendPosition?.elim 2 (· + 1)

theorem Gui.send_create {kind : GuiKind} {position : Nat} (h : kind.sendPosition? = some position)
    (arguments : List Atom) (x y cellWidth : Int32) :
    (Gui.create kind arguments x y cellWidth).send = GuiArguments.tie arguments position := by
  cases kind <;> cases h <;> rfl

theorem Gui.receive_create (kind : GuiKind) (arguments : List Atom) (x y cellWidth : Int32) :
    (Gui.create kind arguments x y cellWidth).receive =
      GuiArguments.tie arguments kind.receivePosition := by
  cases kind <;> rfl

/-! ## Message boxes -/

namespace PieceReader
variable {dollarZero : Int32}

theorem pieces_step_subset (reader : PieceReader) (token : Token) :
    reader.pieces ⊆ (reader.step dollarZero token).pieces := by
  cases token with
  | word text =>
    simp only [step]
    split <;> exact List.Subset.refl _
  | comma => exact List.subset_cons_self _ _
  | semicolon => exact List.subset_cons_self _ _

/-- Finished pieces are kept. -/
theorem pieces_subset (tokens : List Token) (reader : PieceReader) :
    reader.pieces ⊆ (tokens.foldl (step dollarZero) reader).pieces := by
  induction tokens generalizing reader with
  | nil => exact List.Subset.refl _
  | cons token rest ih => exact List.Subset.trans (pieces_step_subset reader token) (ih _)

/-- Words that follow an address are the atoms of its piece. -/
theorem foldl_words (words : List String) (reader : PieceReader)
    (h : reader.awaitsTarget = false) :
    (words.map Token.word).foldl (step dollarZero) reader =
      { reader with
        current := { reader.current with
          atoms := reader.current.atoms ++
            words.map fun word => PieceAtom.ofAtom (expandWord word dollarZero) } } := by
  induction words generalizing reader with
  | nil => simp
  | cons word rest ih =>
    rw [List.map_cons, List.foldl_cons, ih]
    · simp [step, h]
    · simp [step, h]

theorem mem_finish {reader : PieceReader} {piece : Piece} (hatoms : piece.atoms ≠ [])
    (h : piece = reader.current ∨ piece ∈ reader.pieces) : piece ∈ reader.finish := by
  unfold finish
  refine List.mem_filter.mpr ⟨List.mem_reverse.mpr (List.mem_cons.mpr h), ?_⟩
  cases hcons : piece.atoms with
  | nil => exact absurd hcons hatoms
  | cons => rfl

end PieceReader

/-- What follows the words of a piece: nothing, or a separator. -/
def Token.EndsPiece (after : List Token) : Prop := ∀ text rest, after ≠ .word text :: rest

/-- A word behind a semicolon is the address of the words that follow. -/
theorem mem_readPieces {before after : List Token} {word : String} {words : List String}
    (hwords : words ≠ []) (hafter : Token.EndsPiece after) (dollarZero : Int32) :
    { target := some (writtenTie word dollarZero)
      atoms := words.map fun word => PieceAtom.ofAtom (expandWord word dollarZero) } ∈
      readPieces (before ++ .semicolon :: .word word :: (words.map Token.word ++ after))
        dollarZero := by
  unfold readPieces
  rw [List.foldl_append, List.foldl_cons, List.foldl_cons, List.foldl_append]
  generalize before.foldl (PieceReader.step dollarZero) {} = opened
  have haddressed : ((opened.step dollarZero .semicolon).step dollarZero (.word word)) =
      { pieces := opened.current :: opened.pieces
        current := { target := some (writtenTie word dollarZero) } } := rfl
  rw [haddressed, PieceReader.foldl_words _ _ rfl, List.nil_append]
  refine PieceReader.mem_finish (by simpa using hwords) ?_
  cases after with
  | nil => exact .inl rfl
  | cons token rest =>
    right
    rw [List.foldl_cons]
    cases token with
    | word text => exact absurd rfl (hafter text rest)
    | comma => exact PieceReader.pieces_subset _ _ List.mem_cons_self
    | semicolon => exact PieceReader.pieces_subset _ _ List.mem_cons_self

/-- A message that does not replace the text of a box is sent to the addresses in it. -/
theorem send_mem_answerMessageBox {pieces : List Piece} {piece : Piece} {tie : Tie}
    {message : Message} (hpiece : piece ∈ pieces) (htarget : piece.target = some tie)
    (hset : message.isSet = false) :
    .send tie (Message.ofAtoms (piece.atoms.map (PieceAtom.fill message.arguments))) ∈
      (answerMessageBox pieces message).2 := by
  have hemit (arguments : Payload) : piece.emit arguments =
      .send tie (Message.ofAtoms (piece.atoms.map (PieceAtom.fill arguments))) := by
    rw [Piece.emit, htarget]
  rw [← hemit]
  cases message with
  | anything selector arguments =>
    have hselector : selector ≠ .set := by
      rintro rfl
      cases hset
    simp only [answerMessageBox, if_neg hselector]
    exact List.mem_map_of_mem hpiece
  | _ => exact List.mem_map_of_mem hpiece

/-! ## Patches -/

/-- What a word that is written in a patch text names in the patch. -/
structure Patch.Addresses (patch : Patch) (text word : String) : Prop where
  receiver : ∀ index, MakesObject text ["r", "receive"] word index →
    (patch.node? index).bind Node.listensAt = some (argumentTie word patch.dollarZero)
  sender : ∀ index, MakesObject text ["s", "send"] word index →
    ∃ node, patch.node? index = some node ∧ ∀ message,
      (node.answer 0 message).2 = [.send (argumentTie word patch.dollarZero) message]
  guiSend : ∀ index record className words kind position,
    (boxRecordsOf text)[index]? = some record → record.IsObject className words →
      GuiKind.ofClass? className = some kind → kind.sendPosition? = some position →
        words[position]? = some word → ∃ gui : Gui, patch.node? index = some (.gui gui) ∧
          gui.send = argumentTie word patch.dollarZero
  guiReceive : ∀ index record className words kind, (boxRecordsOf text)[index]? = some record →
    record.IsObject className words → GuiKind.ofClass? className = some kind →
      words[kind.receivePosition]? = some word →
        (patch.node? index).bind Node.listensAt = some (argumentTie word patch.dollarZero)
  messageBox : ∀ index record before words after, (boxRecordsOf text)[index]? = some record →
    record.word? 0 = some "#X" → record.word? 1 = some "msg" →
      record.body = before ++ .semicolon :: .word word :: (words.map Token.word ++ after) →
        words ≠ [] → Token.EndsPiece after →
          ∃ node, patch.node? index = some node ∧ ∀ message, message.isSet = false →
            .send (writtenTie word patch.dollarZero)
                (Message.ofAtoms ((words.map fun word =>
                  PieceAtom.ofAtom (expandWord word patch.dollarZero)).map
                    (PieceAtom.fill message.arguments))) ∈ (node.answer 0 message).2
  /-- The places agree exactly on the words that are shown as they are written. -/
  agree_iff : argumentTie word patch.dollarZero = writtenTie word patch.dollarZero ↔
    ShownAsWritten word patch.dollarZero
  /-- What follows `$0` is the ending of a name of the patch, with the number filled in there too
  if `$0` stands in it again. -/
  ending_eq : ∀ ending, word = "$0" ++ ending →
    writtenTie word patch.dollarZero = patch.tieFor (expandName ending patch.dollarZero)
  ending_iff : ∀ ending, word = "$0" ++ ending →
    (writtenTie word patch.dollarZero = patch.tieFor ending ↔ ¬HasDollarZero ending)

section
variable {name path text : String} {dollarZero : Int32} {patch : Patch}
  {diagnostics : List String}

theorem writtenTie_eq_tieFor (patch : Patch) (ending : String) :
    writtenTie ("$0" ++ ending) patch.dollarZero =
      patch.tieFor (expandName ending patch.dollarZero) := by
  rw [writtenTie, Patch.tieFor, Tie.mk.injEq, ← String.toList_inj, String.toList_append,
    toList_expandName, toList_expandName, String.toList_append]
  rfl

theorem writtenTie_eq_tieFor_iff (patch : Patch) (ending : String) :
    writtenTie ("$0" ++ ending) patch.dollarZero = patch.tieFor ending ↔
      ¬HasDollarZero ending := by
  have hself : expandName ending patch.dollarZero = ending ↔ ¬HasDollarZero ending :=
    expandName_eq_self_iff
  rw [writtenTie_eq_tieFor, ← hself, Patch.tieFor, Patch.tieFor, Tie.mk.injEq,
    ← String.toList_inj, ← String.toList_inj, String.toList_append, String.toList_append]
  exact List.append_right_inj _

theorem listensAt_of_makesObject
    (h : readPatch name path text dollarZero = .ok (patch, diagnostics)) {word : String}
    {index : Nat} (hobject : MakesObject text ["r", "receive"] word index) :
    (patch.node? index).bind Node.listensAt = some (argumentTie word patch.dollarZero) := by
  have hmade : patch.node? index = some (.receive (argumentTie word patch.dollarZero)) ∧
      word ≠ "" :=
    node?_of_makesObject h hobject fun className hclass => by
      rcases List.mem_pair.mp hclass with rfl | rfl <;>
        exact ⟨by decide, by decide, fun _ =>
          congrArg (some ∘ Node.receive) (tieArgument_eq _)⟩
  obtain ⟨hnode, hne⟩ := hmade
  rw [hnode, Option.bind_some]
  exact Node.listensAt_eq_some_iff.mpr ⟨argumentTie_ne_empty hne, .inl rfl⟩

/-- Whatever text is accepted as a patch, a word in it names one tie as an argument of any
object and one behind a semicolon in any message box; it is known when the two are the same. -/
theorem addresses_of_readPatch
    (h : readPatch name path text dollarZero = .ok (patch, diagnostics)) {word : String}
    (hword : word ≠ "empty") : patch.Addresses text word where
  receiver := fun index hobject => listensAt_of_makesObject h hobject
  sender := by
    intro index hobject
    have hmade : patch.node? index = some (.send (argumentTie word patch.dollarZero)) ∧
        word ≠ "" :=
      node?_of_makesObject h hobject fun className hclass => by
        rcases List.mem_pair.mp hclass with rfl | rfl <;>
          exact ⟨by decide, by decide, fun _ =>
            congrArg (some ∘ Node.send) (tieArgument_eq _)⟩
    obtain ⟨hnode, hne⟩ := hmade
    have hnamed : (argumentTie word patch.dollarZero).isEmpty = false := by
      rw [← Bool.not_eq_true, Tie.isEmpty_iff]
      exact argumentTie_ne_empty hne
    refine ⟨_, hnode, ?_⟩
    intro message
    simp [Node.answer, Node.answerSend, hnamed]
  guiSend := by
    intro index record className words kind position hrecord hobject hclass hposition hargument
    refine ⟨_, (node?_of_readPatch h hrecord).trans
      (congrArg some (hobject.node_box_of_gui patch.canvas hclass)), ?_⟩
    rw [Gui.send_create hposition]
    exact GuiArguments.tie_eq hargument hword
  guiReceive := by
    intro index record className words kind hrecord hobject hclass hargument
    have htoken := hobject.mem_tokens (List.mem_of_getElem? hargument)
    have hne := ne_empty_of_mem_boxRecordsOf (List.mem_of_getElem? hrecord) htoken
    rw [node?_of_readPatch h hrecord, Option.bind_some,
      hobject.node_box_of_gui patch.canvas hclass]
    refine Node.listensAt_eq_some_iff.mpr ⟨argumentTie_ne_empty hne, .inr ⟨_, rfl, ?_⟩⟩
    rw [Gui.receive_create]
    exact GuiArguments.tie_eq hargument hword
  messageBox := by
    intro index record before words after hrecord _ hkind hbody hwords hafter
    refine ⟨_, node?_of_readPatch h hrecord, ?_⟩
    intro message hset
    have hnode : (patch.canvas.box record).node =
        .messageBox (readPieces record.body patch.dollarZero) := by
      simp only [Canvas.box, hkind, Canvas.messageBox, Patch.canvas]
    rw [hnode, hbody]
    exact send_mem_answerMessageBox (mem_readPieces hwords hafter patch.dollarZero) rfl hset
  agree_iff := argumentTie_eq_writtenTie_iff
  ending_eq := by
    rintro ending rfl
    exact writtenTie_eq_tieFor patch ending
  ending_iff := by
    rintro ending rfl
    exact writtenTie_eq_tieFor_iff patch ending

end

/-- A patch with a receiver for a name of its own, and a receiver and a message box that have
one number, written with a fraction. -/
def fractional : String :=
  "#N canvas 0 0 9 9 10;\n#X obj 0 0 r \\$0-x;\n#X obj 0 0 r 1.0;\n#X msg 0 0 \\; 1.0 go;\n"

theorem addresses_of_readPatch_fractional :
    ∃ patch, readPatch "f.pd" "/f.pd" fractional 1000 = .ok (patch, []) ∧
      (patch.node? 0).bind Node.listensAt = some (patch.tieFor "-x") ∧
      patch.Addresses fractional "$0-x" ∧ patch.Addresses fractional "1.0" := by
  have hread : (readPatch "f.pd" "/f.pd" fractional 1000).toOption.map (fun done =>
      ((done.1.node? 0).bind Node.listensAt, done.1.tieFor "-x", done.2)) =
        some (some ⟨"1000-x"⟩, ⟨"1000-x"⟩, []) := by
    rw [show fractional = String.ofList _ from rfl, readPatch, readRecords_ofList]
    decide +kernel
  cases hdone : readPatch "f.pd" "/f.pd" fractional 1000 with
  | error failure =>
    rw [hdone] at hread
    cases hread
  | ok done =>
    obtain ⟨patch, diagnostics⟩ := done
    rw [hdone] at hread
    simp only [Except.toOption, Option.map_some, Option.some.injEq, Prod.mk.injEq] at hread
    obtain ⟨hlistens, htie, rfl⟩ := hread
    exact ⟨patch, rfl, hlistens.trans (congrArg some htie.symm),
      addresses_of_readPatch hdone (by decide), addresses_of_readPatch hdone (by decide)⟩

/-- The receiver goes by the number's own text, and the message box does not reach it. -/
theorem addresses_differ_fractional :
    (readPatch "f.pd" "/f.pd" fractional 1000).toOption.map (fun done =>
        ((done.1.node? 1).bind Node.listensAt,
          (done.1.node? 2).map fun node => (node.answer 0 .bang).2)) =
      some (some ⟨"1"⟩, some [.send ⟨"1.0"⟩ (.anything ⟨"go"⟩ [])]) := by
  rw [show fractional = String.ofList _ from rfl, readPatch, readRecords_ofList]
  decide +kernel

end Patchbay
