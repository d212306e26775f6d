import Mathlib.Data.List.Basic
import Patchbay.Proofs.Boxes

/-!
# What a message box says

The text of a message box is read by splitting. Semicolons split it into groups, and commas
split a group into rows of words. The words of the first group go to the outlet. In every
later group the first word is an address, and the other words go there. Each row that has
words is one message, whose slots are filled when a message comes in.

The reader of message boxes goes through the text once and keeps an address that is still to
come, so that a comma may stand before it. It builds the pieces that the splitting gives, and
a box built beforehand emits what the words say at the time.
-/

namespace Patchbay

/-- Whether a token is a word. -/
def Token.isWord (token : Token) : Bool := token.word?.isSome

namespace BoxText

/-- The words of a row of tokens. -/
def wordsOf (tokens : List Token) : List String := tokens.filterMap Token.word?

/-- The rows of words between commas, without the empty ones. -/
def rows (tokens : List Token) : List (List String) :=
  ((tokens.splitOn .comma).map wordsOf).filter fun words => !words.isEmpty

/-- The first word of a group. -/
def address? (group : List Token) : Option String := (wordsOf group).head?

/-- A group without its first word. -/
def unaddressed (group : List Token) : List Token := group.eraseP Token.isWord

section
variable (dollarZero : Int32)

/-- The atom that a word stands for when arguments have come in. A slot stands for the
argument of its number, or for zero if there is none, and every other word for its own
atom. -/
def atomOf (arguments : Payload) (word : String) : Atom :=
  match expandWord word dollarZero with
  | .symbol name =>
    match argumentIndex? name.name with
    | some index => (arguments[index]?).getD (.float 0)
    | none => .symbol name
  | atom => atom

/-- What a row of words emits, to an address or to the outlet. -/
def emissionOf (arguments : Payload) (address : Option String) (words : List String) : Emission :=
  let message := Message.ofAtoms (words.map (atomOf dollarZero arguments))
  match address with
  | some word => .send ⟨expandName word dollarZero⟩ message
  | none => .outlet 0 message

/-- What the group before all semicolons emits. -/
def openingEmissions (arguments : Payload) (group : List Token) : List Emission :=
  (rows group).map (emissionOf dollarZero arguments none)

/-- What a group behind a semicolon emits. -/
def groupEmissions (arguments : Payload) (group : List Token) : List Emission :=
  (rows (unaddressed group)).map (emissionOf dollarZero arguments (address? group))

/-- What the text of a message box emits. -/
def emissions (arguments : Payload) (tokens : List Token) : List Emission :=
  match tokens.splitOn .semicolon with
  | opening :: groups =>
    openingEmissions dollarZero arguments opening ++
      groups.flatMap (groupEmissions dollarZero arguments)
  | [] => []

end

/-! ## Rows -/

@[simp] theorem wordsOf_nil : wordsOf [] = [] := rfl

@[simp] theorem wordsOf_word (text : String) (tokens : List Token) :
    wordsOf (.word text :: tokens) = text :: wordsOf tokens := rfl

@[simp] theorem wordsOf_comma (tokens : List Token) :
    wordsOf (.comma :: tokens) = wordsOf tokens := rfl

@[simp] theorem wordsOf_semicolon (tokens : List Token) :
    wordsOf (.semicolon :: tokens) = wordsOf tokens := rfl

theorem splitOn_cons (mark token : Token) (tokens : List Token) :
    (token :: tokens).splitOn mark =
      if token = mark then [] :: tokens.splitOn mark
      else (tokens.splitOn mark).modifyHead (token :: ·) := by
  simp [List.splitOn_cons_eq_if_modifyHead]

/-- Splitting gives a first part, and maybe others. -/
theorem exists_splitOn_eq_cons (mark : Token) (tokens : List Token) :
    ∃ first rest, tokens.splitOn mark = first :: rest :=
  List.exists_cons_of_ne_nil (List.splitOn_ne_nil mark tokens)

/-- The rows hold all words, in order. -/
theorem flatten_rows (tokens : List Token) : (rows tokens).flatten = wordsOf tokens := by
  have hsplit : ((tokens.splitOn .comma).map wordsOf).flatten = wordsOf tokens := by
    induction tokens with
    | nil => rfl
    | cons token rest ih =>
      obtain ⟨first, others, hrest⟩ := exists_splitOn_eq_cons .comma rest
      rw [hrest] at ih
      cases token with
      | comma => simpa [splitOn_cons, hrest] using ih
      | word text => simpa [splitOn_cons, hrest] using ih
      | semicolon => simpa [splitOn_cons, hrest] using ih
  rw [rows, List.flatten_filter_not_isEmpty, hsplit]

theorem wordsOf_unaddressed (group : List Token) :
    wordsOf (unaddressed group) = (wordsOf group).tail := by
  induction group with
  | nil => rfl
  | cons token rest ih =>
    cases token with
    | word text => rfl
    | comma => exact ih
    | semicolon => exact ih

section
variable (dollarZero : Int32) (arguments : Payload)

/-- A group that has no words, or an address alone, emits nothing. -/
theorem groupEmissions_eq_nil {group : List Token} (h : (wordsOf group).length ≤ 1) :
    groupEmissions dollarZero arguments group = [] := by
  have hwords : wordsOf (unaddressed group) = [] := by
    rw [wordsOf_unaddressed, ← List.length_eq_zero_iff, List.length_tail]
    omega
  have hempty := flatten_rows (unaddressed group)
  rw [hwords, List.flatten_eq_nil_iff] at hempty
  rw [groupEmissions, List.map_eq_nil_iff, List.eq_nil_iff_forall_not_mem]
  intro words hmem
  have hnonempty := (List.mem_filter.mp hmem).2
  simp [hempty words hmem] at hnonempty

/-- All that a group emits goes to its own address. -/
theorem exists_address_of_mem {group : List Token} {emission : Emission}
    (h : emission ∈ groupEmissions dollarZero arguments group) :
    ∃ word message, address? group = some word ∧
      emission = .send ⟨expandName word dollarZero⟩ message := by
  cases haddress : address? group with
  | none =>
    have hwords : wordsOf group = [] := List.head?_eq_none_iff.mp haddress
    rw [groupEmissions_eq_nil dollarZero arguments (by rw [hwords]; exact Nat.zero_le 1)] at h
    cases h
  | some word =>
    obtain ⟨words, -, rfl⟩ := List.mem_map.mp h
    rw [haddress]
    exact ⟨word, _, rfl, rfl⟩

/-! ## The reader -/

/-- The atoms that a row of words is built into. -/
def atomsOf (words : List String) : List PieceAtom :=
  words.map fun word => PieceAtom.ofAtom (expandWord word dollarZero)

/-- The pieces that have atoms. -/
def filled (pieces : List Piece) : List Piece := pieces.filter fun piece => !piece.atoms.isEmpty

/-- The pieces that a group adds to a piece under construction. -/
def piecesAfter (current : Piece) (tokens : List Token) : List Piece :=
  filled ((((tokens.splitOn .comma).map fun row => atomsOf dollarZero (wordsOf row)).modifyHead
    (current.atoms ++ ·)).map fun atoms => { target := current.target, atoms })

/-- The pieces of a group behind a semicolon. -/
def groupPieces (group : List Token) : List Piece :=
  piecesAfter dollarZero
    { target := (address? group).map fun word => ⟨expandName word dollarZero⟩ }
    (unaddressed group)

theorem filled_append (first second : List Piece) :
    filled (first ++ second) = filled first ++ filled second :=
  List.filter_append first second

theorem piecesAfter_nil (current : Piece) :
    piecesAfter dollarZero current [] = filled [current] := by
  simp [piecesAfter, atomsOf]

theorem piecesAfter_comma (current : Piece) (tokens : List Token) :
    piecesAfter dollarZero current (.comma :: tokens) =
      filled [current] ++ piecesAfter dollarZero { target := current.target } tokens := by
  obtain ⟨first, others, hsplit⟩ := exists_splitOn_eq_cons .comma tokens
  simp [piecesAfter, splitOn_cons, hsplit, atomsOf, ← filled_append]

theorem piecesAfter_word (current : Piece) (word : String) (tokens : List Token) :
    piecesAfter dollarZero current (.word word :: tokens) =
      piecesAfter dollarZero
        { current with
          atoms := current.atoms ++ [PieceAtom.ofAtom (expandWord word dollarZero)] }
        tokens := by
  obtain ⟨first, others, hsplit⟩ := exists_splitOn_eq_cons .comma tokens
  simp [piecesAfter, splitOn_cons, hsplit, atomsOf]

theorem groupPieces_nil : groupPieces dollarZero [] = [] := piecesAfter_nil dollarZero _

theorem groupPieces_comma (group : List Token) :
    groupPieces dollarZero (.comma :: group) = groupPieces dollarZero group :=
  piecesAfter_comma dollarZero _ _

/-- The pieces of a text of which a reader has read some groups and the start of the next. -/
def piecesOf (reader : PieceReader) (tokens : List Token) : List Piece :=
  match tokens.splitOn .semicolon with
  | opening :: groups =>
    filled reader.pieces.reverse ++
      ((if reader.awaitsTarget then groupPieces dollarZero opening
        else piecesAfter dollarZero reader.current opening) ++
      groups.flatMap (groupPieces dollarZero))
  | [] => []

/-- While an address is to come, nothing else has been read of its group. -/
def Waits (reader : PieceReader) : Prop := reader.awaitsTarget = true → reader.current = {}

theorem Waits.step {reader : PieceReader} (h : Waits reader) (token : Token) :
    Waits (reader.step dollarZero token) := by
  intro hawaits
  cases token with
  | word text => by_cases hold : reader.awaitsTarget = true <;> simp_all [PieceReader.step]
  | comma => simp only [PieceReader.step, h hawaits]
  | semicolon => rfl

/-- Reading a token leaves the pieces that the text has in all. -/
theorem piecesOf_step {reader : PieceReader} (h : Waits reader) (token : Token)
    (tokens : List Token) :
    piecesOf dollarZero (reader.step dollarZero token) tokens =
      piecesOf dollarZero reader (token :: tokens) := by
  obtain ⟨opening, groups, hsplit⟩ := exists_splitOn_eq_cons .semicolon tokens
  by_cases hawaits : reader.awaitsTarget = true
  · have hcurrent := h hawaits
    have hnothing : filled [({} : Piece)] = [] := rfl
    cases token with
    | word text =>
      simp only [PieceReader.step, piecesOf, splitOn_cons, hsplit, hawaits, hcurrent]
      rfl
    | comma =>
      simp [PieceReader.step, piecesOf, splitOn_cons, hsplit, hawaits, hcurrent, filled_append,
        hnothing, groupPieces_comma]
    | semicolon =>
      simp [PieceReader.step, piecesOf, splitOn_cons, hsplit, hawaits, hcurrent, filled_append,
        hnothing, groupPieces_nil]
  · cases token with
    | word text =>
      simp [PieceReader.step, piecesOf, splitOn_cons, hsplit, hawaits, piecesAfter_word]
    | comma =>
      simp [PieceReader.step, piecesOf, splitOn_cons, hsplit, hawaits, piecesAfter_comma,
        filled_append]
    | semicolon =>
      simp [PieceReader.step, piecesOf, splitOn_cons, hsplit, hawaits, piecesAfter_nil,
        filled_append]

/-- The reader builds the pieces that splitting gives. -/
theorem finish_foldl_step (tokens : List Token) {reader : PieceReader} (h : Waits reader) :
    (tokens.foldl (PieceReader.step dollarZero) reader).finish =
      piecesOf dollarZero reader tokens := by
  induction tokens generalizing reader with
  | nil =>
    have hfinish : reader.finish = filled (reader.pieces.reverse ++ [reader.current]) := by
      rw [PieceReader.finish, List.reverse_cons, filled]
    by_cases hawaits : reader.awaitsTarget = true
    · have hnothing : filled [reader.current] = [] := by
        rw [h hawaits]
        rfl
      simp [hfinish, filled_append, piecesOf, hawaits, hnothing, groupPieces_nil]
    · simp [hfinish, filled_append, piecesOf, hawaits, piecesAfter_nil]
  | cons token rest ih =>
    rw [List.foldl_cons, ih (h.step dollarZero token), piecesOf_step dollarZero h]

/-! ## What the pieces emit -/

theorem fill_ofAtom (word : String) :
    (PieceAtom.ofAtom (expandWord word dollarZero)).fill arguments =
      atomOf dollarZero arguments word := by
  unfold atomOf
  cases expandWord word dollarZero with
  | symbol name =>
    cases hindex : argumentIndex? name.name with
    | some index => simp [PieceAtom.ofAtom, hindex, PieceAtom.fill, List.getD_eq_getElem?_getD]
    | none => simp [PieceAtom.ofAtom, hindex, PieceAtom.fill]
  | empty => rfl
  | float value => rfl
  | pointer address => rfl

/-- Each row of words becomes one piece. -/
theorem piecesAfter_eq (target : Option Tie) (tokens : List Token) :
    piecesAfter dollarZero { target } tokens =
      (rows tokens).map fun words => { target, atoms := atomsOf dollarZero words } := by
  have hhead (lists : List (List PieceAtom)) : lists.modifyHead ([] ++ ·) = lists := by
    cases lists <;> rfl
  have hempty (words : List String) : (atomsOf dollarZero words).isEmpty = words.isEmpty :=
    List.isEmpty_map
  simp only [piecesAfter, hhead, filled, rows, List.map_map, List.filter_map, Function.comp_def,
    hempty]

theorem map_emit_piecesAfter (address : Option String) (tokens : List Token) :
    (piecesAfter dollarZero { target := address.map fun word => ⟨expandName word dollarZero⟩ }
        tokens).map (Piece.emit arguments) =
      (rows tokens).map (emissionOf dollarZero arguments address) := by
  rw [piecesAfter_eq, List.map_map]
  apply List.map_congr_left
  intro words _
  cases address <;>
    simp [Piece.emit, emissionOf, atomsOf, fill_ofAtom, Function.comp_def]

/-- The pieces that are read off a text emit what the text does. -/
theorem map_emit_readPieces (tokens : List Token) :
    (readPieces tokens dollarZero).map (Piece.emit arguments) =
      emissions dollarZero arguments tokens := by
  obtain ⟨opening, groups, hsplit⟩ := exists_splitOn_eq_cons .semicolon tokens
  have hwaits : Waits {} := fun hawaits => by cases hawaits
  have hopening : (piecesAfter dollarZero {} opening).map (Piece.emit arguments) =
      openingEmissions dollarZero arguments opening :=
    map_emit_piecesAfter dollarZero arguments none opening
  have hgroup (group : List Token) : (groupPieces dollarZero group).map (Piece.emit arguments) =
      groupEmissions dollarZero arguments group :=
    map_emit_piecesAfter dollarZero arguments (address? group) (unaddressed group)
  rw [readPieces, finish_foldl_step dollarZero tokens hwaits]
  simp only [piecesOf, emissions, hsplit, Bool.false_eq_true, ↓reduceIte, List.map_append,
    List.map_flatMap, hopening, hgroup]
  rfl

end

end BoxText

/-- A message that does not replace the content of a message box is answered by the content,
which stays. -/
theorem answerMessageBox_of_isSet {message : Message} (h : message.isSet = false)
    (pieces : List Piece) :
    answerMessageBox pieces message = (pieces, pieces.map (Piece.emit message.arguments)) := by
  cases message with
  | anything selector arguments =>
    have hselector : selector ≠ .set := by
      rintro rfl
      cases h
    simp only [answerMessageBox, if_neg hselector]
    rfl
  | _ => rfl

/-- A record makes a message box. -/
structure Record.IsMessageBox (record : Record) : Prop where
  mark : record.word? 0 = some "#X"
  kind : record.word? 1 = some "msg"

/-- As long as its content is not replaced, a message box answers every message with what a
text emits, and stays what it is. -/
def Node.Emits (dollarZero : Int32) (tokens : List Token) (node : Node) : Prop :=
  ∀ inlet message, message.isSet = false →
    node.answer inlet message = (node, BoxText.emissions dollarZero message.arguments tokens)

/-- Whatever record it is made from, a message box emits what its text does. -/
theorem Canvas.emits_messageBox (canvas : Canvas) (record : Record) :
    (canvas.messageBox record).node.Emits canvas.dollarZero record.body := by
  intro inlet message hset
  simp only [Canvas.messageBox, Node.answer, answerMessageBox_of_isSet hset,
    BoxText.map_emit_readPieces]

open BoxText in
/-- A message box emits what its text does, whatever its text and the patch number are, and so
does each message box of a patch that has been read. Of the text, a group behind a semicolon
emits to its own address only, and nothing if no words follow the address. -/
theorem emissions_of_readPatch :
    (∀ (canvas : Canvas) (record : Record),
      (canvas.messageBox record).node.Emits canvas.dollarZero record.body) ∧
      (∀ name path text dollarZero patch diagnostics,
        readPatch name path text dollarZero = .ok (patch, diagnostics) →
          ∀ (index : Nat) (record : Record), (boxRecordsOf text)[index]? = some record →
            record.IsMessageBox →
              ∃ node, patch.node? index = some node ∧ node.Emits dollarZero record.body) ∧
      ∀ dollarZero arguments group,
        (∀ emission ∈ groupEmissions dollarZero arguments group, ∃ word message,
          address? group = some word ∧ emission = .send ⟨expandName word dollarZero⟩ message) ∧
          ((wordsOf group).length ≤ 1 → groupEmissions dollarZero arguments group = []) := by
  refine ⟨Canvas.emits_messageBox, ?_, ?_⟩
  · intro name path text dollarZero patch diagnostics h index record hrecord hbox
    have hnode : (patch.canvas.box record).node = (patch.canvas.messageBox record).node := by
      simp only [Canvas.box, hbox.kind]
    have hnumber : patch.canvas.dollarZero = dollarZero := (objects_of_readPatch h).1
    refine ⟨_, node?_of_readPatch h hrecord, ?_⟩
    rw [hnode, ← hnumber]
    exact patch.canvas.emits_messageBox record
  · intro dollarZero arguments group
    exact ⟨fun _ => exists_address_of_mem dollarZero arguments,
      groupEmissions_eq_nil dollarZero arguments⟩

/-- A patch with a message box: commas stand side by side and before an address, one group has
an address alone, and the last has nothing. -/
def manyPieces : String :=
  "#N canvas 0 0 9 9 10;\n" ++
    "#X msg 0 0 \\$2 b \\, \\, c \\; \\, \\$0-d e \\, \\$1 \\; f \\;;\n"

/-- The arguments fill the slots, and the address stays in force behind a comma. -/
theorem emissions_of_readPatch_manyPieces :
    ∃ patch diagnostics record node,
      readPatch "m.pd" "/m.pd" manyPieces 1001 = .ok (patch, diagnostics) ∧
      (boxRecordsOf manyPieces)[0]? = some record ∧ record.IsMessageBox ∧
      patch.node? 0 = some node ∧
      node.answer 0 (.list [.symbol ⟨"x"⟩, .symbol ⟨"y"⟩]) =
        (node,
          [.outlet 0 (.anything ⟨"y"⟩ [.symbol ⟨"b"⟩]), .outlet 0 (.anything ⟨"c"⟩ []),
            .send ⟨"1001-d"⟩ (.anything ⟨"e"⟩ []), .send ⟨"1001-d"⟩ (.anything ⟨"x"⟩ [])]) := by
  have htext : manyPieces = String.ofList _ := append_eq_ofList rfl rfl
  have hrecord : ((boxRecordsOf manyPieces)[0]?).any (fun record : Record => decide
      (record.word? 0 = some "#X" ∧ record.word? 1 = some "msg" ∧
        BoxText.emissions 1001 [.symbol ⟨"x"⟩, .symbol ⟨"y"⟩] record.body =
          [.outlet 0 (.anything ⟨"y"⟩ [.symbol ⟨"b"⟩]), .outlet 0 (.anything ⟨"c"⟩ []),
            .send ⟨"1001-d"⟩ (.anything ⟨"e"⟩ []),
            .send ⟨"1001-d"⟩ (.anything ⟨"x"⟩ [])])) = true := by
    rw [boxRecordsOf, htext, readRecords_ofList]
    decide +kernel
  obtain ⟨record, hfirst, hfound⟩ := (Option.any_eq_true _ _).mp hrecord
  obtain ⟨hmark, hkind, hemissions⟩ := of_decide_eq_true hfound
  have hread : (readPatch "m.pd" "/m.pd" manyPieces 1001).isOk = true := by
    rw [htext, readPatch, readRecords_ofList]
    decide +kernel
  cases hdone : readPatch "m.pd" "/m.pd" manyPieces 1001 with
  | error failure =>
    rw [hdone] at hread
    cases hread
  | ok done =>
    obtain ⟨node, hnode, hemits⟩ := emissions_of_readPatch.2.1 _ _ _ _ _ _ hdone 0 record hfirst
      ⟨hmark, hkind⟩
    refine ⟨done.1, done.2, record, node, rfl, hfirst, ⟨hmark, hkind⟩, hnode, ?_⟩
    rw [hemits 0 _ rfl, Message.arguments, hemissions]

end Patchbay
