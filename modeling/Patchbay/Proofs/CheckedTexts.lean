import Patchbay.Proofs.CheckedObjects
import Patchbay.Proofs.Connections

/-!
# Reading a patch text without fault

Lines and nested canvases are counted in sizes, boxes are measured in integers of 32 bits, and
the targets of an outlet stand in a table by object and outlet. Here the counters and the
measures are checked, and so is every index into the table. No text that fits into memory makes
a fault: what has been counted is never more than the characters that have been read.

## Implementation notes

The tables are written as the reading goes on: an entry is looked up, and the table is put back
with another entry in its place.
-/

namespace Patchbay

/-- A text in memory has fewer characters than this. -/
def textBound : Nat := 2 ^ 63

namespace Checked

/-! ## Records -/

/-- Read the character after a backslash. -/
def stepEscaped (reader : RecordReader) (c : Char) : Option RecordReader :=
  if c = '\n' then do
    let line ← add reader.line 1
    some { reader with escaped := false, line }.endWord
  else some (reader.stepEscaped c)

/-- Read a character that no backslash precedes. -/
def stepPlain (reader : RecordReader) (c : Char) : Option RecordReader :=
  if c = '\n' then do
    let line ← add reader.line 1
    some { reader with line }.endWord
  else some (reader.stepPlain c)

/-- Read one character. -/
def stepChar (reader : RecordReader) (c : Char) : Option RecordReader :=
  if reader.escaped then stepEscaped reader c else stepPlain reader c

/-- The records of a patch text. -/
def readRecords (text : String) : Option (List Record) := do
  let reader ← text.toList.foldlM stepChar {}
  some reader.finish

/-! ## Boxes -/

/-- The box of a text on a canvas. -/
def textBounds (canvas : Canvas) (record : Record) (text : String) (columns : Option Int32) :
    Option Bounds := do
  let (cellWidth, cellHeight) := fontCell canvas.fontSize
  let columns := columns.getD (max (Int32.ofNat text.length) 3)
  let height ← int32 (cellHeight.toInt + 5)
  some
    { x := record.int 2, y := record.int 3
      width := saturatingAdd (saturatingMul columns cellWidth) 4, height }

/-- Read one token of a message box. -/
def stepPiece (dollarZero : Int32) (reader : PieceReader) (token : Token) : Option PieceReader :=
  match token with
  | .word word =>
    if reader.awaitsTarget then some (reader.step dollarZero (.word word))
    else do
      let atom ← pieceAtom (expandWord word dollarZero)
      some { reader with
        current := { reader.current with atoms := reader.current.atoms ++ [atom] } }
  | token => some (reader.step dollarZero token)

/-- The pieces of a message box with the given text. -/
def readPieces (tokens : List Token) (dollarZero : Int32) : Option (List Piece) := do
  let reader ← tokens.foldlM (stepPiece dollarZero) {}
  some reader.finish

/-- The object of an `obj` record, with a diagnostic if it could not be created. -/
def object (canvas : Canvas) (record : Record) : Option (PatchObject × Option String) :=
  let (body, columns) := splitColumns record.body
  let text := showTokens body
  let className := (headWord? body).getD ""
  let arguments := (body.drop 1).filterMap fun token =>
    token.word?.map fun word => expandWord word canvas.dollarZero
  match GuiKind.ofClass? className with
  | some kind => do
    let (x, y) := (record.int 2, record.int 3)
    let gui ← createGui kind arguments x y (fontCell canvas.fontSize).1
    let bounds := { x, y, width := gui.width, height := gui.height }
    some ({ name := ⟨className⟩, text, bounds, node := .gui gui }, none)
  | none => do
    let bounds ← textBounds canvas record text columns
    if className.isEmpty then some ({ name := ⟨className⟩, text, bounds, node := .inert }, none)
    else
      match ← createNode className arguments with
      | some node => some ({ name := ⟨className⟩, text, bounds, node }, none)
      | none =>
        some ({ name := ⟨className⟩, text, bounds, node := .inert },
          some (text ++ "\n... couldn't create"))

/-- The object of a `msg` record. -/
def messageBox (canvas : Canvas) (record : Record) : Option PatchObject := do
  let text := showTokens record.body
  let pieces ← readPieces record.body canvas.dollarZero
  let bounds ← textBounds canvas record text none
  some { name := ⟨"msg"⟩, text, bounds, node := .messageBox pieces }

/-- The object of a `text` record. -/
def comment (canvas : Canvas) (record : Record) : Option PatchObject := do
  let bounds ← textBounds canvas record (showTokens record.body) none
  some { canvas.comment record with bounds }

/-- The object of a number, symbol or list entry box. -/
def entryBox (canvas : Canvas) (className : String) (record : Record) : Option PatchObject := do
  let columns := if record.int 4 = 0 then 5 else record.int 4
  let bounds ← textBounds canvas record "" (some columns)
  some { canvas.entryBox className record with bounds }

/-- The object that stands for a nested canvas. -/
def nested (canvas : Canvas) (record : Record) : Option PatchObject := do
  let bounds ← textBounds canvas record (showTokens record.body) none
  some { canvas.nested record with bounds }

/-! ## Patches -/

/-- Read a record outside every nested canvas. -/
def stepOuter (canvas : Canvas) (reader : PatchReader) (record : Record) : Option PatchReader :=
  if record.word? 0 = some "#X" then
    match record.word? 1 with
    | some "obj" =>
      (object canvas record).map fun (object, diagnostic) => reader.add object diagnostic
    | some "msg" => (messageBox canvas record).map fun object => reader.add object none
    | some "text" => (comment canvas record).map fun object => reader.add object none
    | some "floatatom" =>
      (entryBox canvas "floatatom" record).map fun object => reader.add object none
    | some "symbolatom" =>
      (entryBox canvas "symbolatom" record).map fun object => reader.add object none
    | some "listbox" =>
      (entryBox canvas "listbox" record).map fun object => reader.add object none
    | some "connect" => some (PatchReader.connect canvas reader record)
    | _ => some reader
  else some reader

/-- Read one record. -/
def stepRecord (canvas : Canvas) (reader : PatchReader) (record : Record) :
    Option PatchReader :=
  if PatchReader.opensCanvas record then do
    let depth ← add reader.depth 1
    some { reader with depth }
  else if 0 < reader.depth then
    if PatchReader.closesCanvas record then do
      let depth ← sub reader.depth 1
      let reader := { reader with depth }
      if depth = 0 then (nested canvas record).map fun object => reader.add object none
      else some reader
    else some reader
  else stepOuter canvas reader record

/-- Add a target to an outlet, making room for the outlet first. -/
def extend (outlets : List (List (Nat × Nat))) (outlet : Nat) (target : Nat × Nat) :
    Option (List (List (Nat × Nat))) := do
  let room ← add outlet 1
  let outlets := outlets ++ List.replicate (room - outlets.length) []
  let targets ← outlets[outlet]?
  set outlets outlet (targets ++ [target])

/-- Add a connection to the table of targets. -/
def connect (wiring : Wiring) (connection : Connection) : Option Wiring := do
  let outlets ← wiring[connection.source]?
  let outlets ← extend outlets connection.outlet (connection.target, connection.inlet)
  set wiring connection.source outlets

/-- Read the records of a patch text. -/
def readPatch (name path text : String) (dollarZero : Int32) :
    Option (Except Failure (Patch × List String)) := do
  let records ← readRecords text
  match records with
  | [] => some (.error (.invalidPatch path 1 "empty file"))
  | header :: _ =>
    if !PatchReader.opensCanvas header then
      some (.error (.invalidPatch path header.line "missing canvas header"))
    else
      let fontSize := if header.int 6 = 0 then 10 else header.int 6
      let canvas : Canvas := { name, dollarZero, fontSize }
      let rest ← skip 1 records
      let reader ← rest.foldlM (stepRecord canvas) {}
      let count := reader.objects.length
      let connections := (reader.pending.filter fun entry => entry.2.fits count).map Prod.snd
      let missing := (reader.pending.filter fun entry => !entry.2.fits count).map fun entry =>
        missingObject name entry.1 entry.2
      let wiring ← connections.foldlM connect (Wiring.blank count)
      some (.ok
        ({ name, path, dollarZero, fontSize, connections, wiring
           x := header.int 2
           y := header.int 3
           width := header.int 4
           height := header.int 5
           objects := reader.objects },
          reader.diagnostics ++ missing))

/-! ## Counters -/

/-- A checked walk over a list gives what the unchecked one does, if each step counts up by one
at most and all checks pass while the counter fits into a size. -/
theorem foldlM_eq_some_of_counter {α σ : Type} {checked : σ → α → Option σ}
    {unchecked : σ → α → σ} (counter : σ → Nat)
    (hstep : ∀ state item, counter state + 1 < sizeBound →
      checked state item = some (unchecked state item))
    (hcount : ∀ state item, counter (unchecked state item) ≤ counter state + 1)
    {items : List α} {state : σ} (h : counter state + items.length < sizeBound) :
    items.foldlM checked state = some (items.foldl unchecked state) := by
  induction items generalizing state with
  | nil => rfl
  | cons item rest ih =>
    rw [List.length_cons] at h
    have hnext := hcount state item
    rw [List.foldlM_cons, hstep state item (by omega), List.foldl_cons]
    exact ih (by omega)

/-- A counter goes up by no more than the steps that have been taken. -/
theorem counter_foldl_le {α σ : Type} {step : σ → α → σ} (counter : σ → Nat)
    (hcount : ∀ state item, counter (step state item) ≤ counter state + 1) (items : List α)
    (state : σ) : counter (items.foldl step state) ≤ counter state + items.length := by
  induction items generalizing state with
  | nil => exact Nat.le_refl _
  | cons item rest ih =>
    rw [List.foldl_cons, List.length_cons]
    have hfirst := hcount state item
    have hrest := ih (step state item)
    omega

/-! ## No record makes a fault -/

section
variable {reader : RecordReader}

theorem stepChar_eq_some (c : Char) (h : reader.line + 1 < sizeBound) :
    stepChar reader c = some (reader.step c) := by
  unfold stepChar RecordReader.step
  split
  · unfold stepEscaped
    split
    · rename_i hbreak
      subst hbreak
      rw [add_eq_some h]
      rfl
    · rfl
  · unfold stepPlain
    split
    · rename_i hbreak
      subst hbreak
      rw [add_eq_some h]
      rfl
    · rfl

theorem counts_endWord (reader : RecordReader) :
    reader.endWord.line = reader.line ∧ reader.endWord.records = reader.records := by
  unfold RecordReader.endWord
  split <;> exact ⟨rfl, rfl⟩

theorem counts_endRecord (reader : RecordReader) :
    reader.endRecord.line = reader.line ∧
      reader.endRecord.records.length ≤ reader.records.length + 1 := by
  unfold RecordReader.endRecord
  simp only
  split <;> simp [counts_endWord]

theorem counts_separate (reader : RecordReader) (token : Token) :
    (reader.separate token).line = reader.line ∧
      (reader.separate token).records = reader.records :=
  counts_endWord reader

theorem counts_stepEscaped (reader : RecordReader) (c : Char) :
    (reader.stepEscaped c).line ≤ reader.line + 1 ∧
      (reader.stepEscaped c).records.length ≤ reader.records.length + 1 := by
  unfold RecordReader.stepEscaped
  simp only
  split
  · simp [counts_separate]
  · split
    · simp [counts_separate]
    · split
      · simp [counts_endWord]
      · simp

theorem counts_stepPlain (reader : RecordReader) (c : Char) :
    (reader.stepPlain c).line ≤ reader.line + 1 ∧
      (reader.stepPlain c).records.length ≤ reader.records.length + 1 := by
  unfold RecordReader.stepPlain
  split
  · simp
  · split
    · simp [counts_endRecord]
    · split
      · simp [counts_separate]
      · split
        · simp only [counts_endWord]
          split <;> simp
        · simp

/-- A character ends one line and one record at most. -/
theorem counts_step (reader : RecordReader) (c : Char) :
    (reader.step c).line ≤ reader.line + 1 ∧
      (reader.step c).records.length ≤ reader.records.length + 1 := by
  unfold RecordReader.step
  split
  · exact counts_stepEscaped reader c
  · exact counts_stepPlain reader c

/-- The records of a text are no more than its characters, but for the last one. -/
theorem length_readRecords_le (text : String) :
    (Patchbay.readRecords text).length ≤ text.length + 1 := by
  let final := text.toList.foldl RecordReader.step {}
  have hfinal : final.records.length ≤ text.length := by
    have hcounted := counter_foldl_le (fun reader => reader.records.length)
      (fun reader c => (counts_step reader c).2) text.toList {}
    rwa [List.length_nil, Nat.zero_add, String.length_toList] at hcounted
  have hlast : final.endRecord.records.length ≤ final.records.length + 1 :=
    (counts_endRecord final).2
  calc (Patchbay.readRecords text).length
      = final.endRecord.records.length := List.length_reverse
    _ ≤ text.length + 1 := by omega

/-- No text that fits into memory has too many lines. -/
theorem readRecords_eq_some {text : String} (h : text.length < textBound) :
    readRecords text = some (Patchbay.readRecords text) := by
  have hreader : text.toList.foldlM stepChar {} =
      some (text.toList.foldl RecordReader.step {}) := by
    apply foldlM_eq_some_of_counter RecordReader.line
    · intro reader c hline
      exact stepChar_eq_some c hline
    · exact fun reader c => (counts_step reader c).1
    · have hlength : text.toList.length < 2 ^ 63 := h
      change 1 + text.toList.length < 2 ^ 64
      omega
  simp only [readRecords, hreader]
  rfl

end

/-! ## No box makes a fault -/

section
variable (canvas : Canvas) (record : Record)

/-- A character cell is small. -/
theorem int32_fontCell (size : Int32) :
    int32 ((fontCell size).2.toInt + 5) = some ((fontCell size).2 + 5) := by
  have hcell := test_fontCell (fun cell => decide
    (int32 (cell.2.toInt + 5) = some (cell.2 + 5))) (by decide) size
  exact of_decide_eq_true hcell

theorem textBounds_eq_some (text : String) (columns : Option Int32) :
    textBounds canvas record text columns = some (canvas.bounds record text columns) := by
  simp only [textBounds, int32_fontCell]
  rfl

theorem readPieces_eq_some (tokens : List Token) (dollarZero : Int32) :
    readPieces tokens dollarZero = some (Patchbay.readPieces tokens dollarZero) := by
  have hstep (reader : PieceReader) (token : Token) :
      stepPiece dollarZero reader token = some (reader.step dollarZero token) := by
    cases token with
    | word word =>
      unfold stepPiece PieceReader.step
      by_cases hawaits : reader.awaitsTarget = true <;>
        simp [hawaits, pieceAtom_eq_some]
    | _ => rfl
  have hreader : tokens.foldlM (stepPiece dollarZero) {} =
      some (tokens.foldl (PieceReader.step dollarZero) {}) :=
    foldlM_eq_some (fun _ => True) tokens trivial fun reader _ token _ =>
      ⟨hstep reader token, trivial⟩
  simp only [readPieces, hreader]
  rfl

theorem object_eq_some : object canvas record = some (canvas.object record) := by
  unfold object Canvas.object
  simp only [createGui_eq_some, textBounds_eq_some, createNode_eq_some, Option.bind_eq_bind,
    Option.bind_some]
  cases GuiKind.ofClass? ((headWord? (splitColumns record.body).1).getD "") with
  | some kind => rfl
  | none =>
    by_cases hempty : ((headWord? (splitColumns record.body).1).getD "").isEmpty = true
    · simp only [if_pos hempty]
    · simp only [if_neg hempty]
      cases Node.create _ _ <;> rfl

theorem messageBox_eq_some : messageBox canvas record = some (canvas.messageBox record) := by
  simp only [messageBox, readPieces_eq_some, textBounds_eq_some]
  rfl

theorem comment_eq_some : comment canvas record = some (canvas.comment record) := by
  simp only [comment, textBounds_eq_some]
  rfl

theorem entryBox_eq_some (className : String) :
    entryBox canvas className record = some (canvas.entryBox className record) := by
  simp only [entryBox, textBounds_eq_some]
  rfl

theorem nested_eq_some : nested canvas record = some (canvas.nested record) := by
  simp only [nested, textBounds_eq_some]
  rfl

end

/-! ## No patch makes a fault -/

section
variable (canvas : Canvas) (reader : PatchReader) (record : Record)

theorem stepOuter_eq_some :
    stepOuter canvas reader record = some (reader.stepOuter canvas record) := by
  unfold stepOuter PatchReader.stepOuter
  simp only [object_eq_some, messageBox_eq_some, comment_eq_some, entryBox_eq_some,
    Option.map_some]
  by_cases hbox : record.word? 0 = some "#X"
  · simp only [if_pos hbox]
    generalize record.word? 1 = keyword
    split <;> simp [*]
  · simp only [if_neg hbox]

/-- A nested canvas is closed only when one is open. -/
theorem stepRecord_eq_some (h : reader.depth + 1 < sizeBound) :
    stepRecord canvas reader record = some (reader.step canvas record) := by
  unfold stepRecord PatchReader.step
  rw [add_eq_some h]
  cases PatchReader.opensCanvas record with
  | true => rfl
  | false =>
    simp only [Bool.false_eq_true, if_false]
    cases hdepth : reader.depth with
    | zero => exact stepOuter_eq_some canvas reader record
    | succ depth =>
      have hsub : sub (depth + 1) 1 = some depth := sub_eq_some (Nat.le_add_left 1 depth)
      rw [if_pos (Nat.succ_pos depth), hsub]
      cases PatchReader.closesCanvas record with
      | false => rfl
      | true =>
        simp only [nested_eq_some, Option.map_some, Option.bind_eq_bind, Option.bind_some, if_true]
        split <;> rfl

theorem depth_step_le : (reader.step canvas record).depth ≤ reader.depth + 1 := by
  unfold PatchReader.step
  split
  · exact Nat.le_refl _
  · split
    · rename_i hdepth
      rw [(PatchReader.objects_stepOuter canvas reader record).2]
      exact Nat.le_succ _
    · rename_i depth hdepth
      have hle : depth ≤ reader.depth + 1 := by omega
      split
      · split <;> exact hle
      · exact Nat.le_succ _

end

/-- To put a changed entry in the place of an entry is to change the table there. -/
theorem set_eq_some {α : Type} {table : List α} {index : Nat} (h : index < table.length)
    (change : α → α) :
    set table index (change table[index]) = some (table.modify index change) := by
  rw [List.modify_eq_set_get change h]
  exact if_pos h

/-- An outlet has a row of its own once room has been made for it. -/
theorem extend_eq_some (outlets : List (List (Nat × Nat))) {outlet : Nat}
    (h : outlet ≤ maxPort) (target : Nat × Nat) :
    extend outlets outlet target = some (Wiring.extend outlets outlet target) := by
  have hroom : outlet + 1 < sizeBound := Nat.lt_of_le_of_lt (Nat.succ_le_succ h) (by decide)
  have hlength : outlet < (outlets ++ List.replicate (outlet + 1 - outlets.length) []).length := by
    rw [List.length_append, List.length_replicate]
    omega
  simp only [extend, add_eq_some hroom, Wiring.extend, Option.bind_eq_bind, Option.bind_some,
    List.getElem?_eq_getElem hlength]
  exact set_eq_some hlength fun targets => targets ++ [target]

/-- An object that there is has a row in the table. -/
theorem connect_eq_some {wiring : Wiring} {connection : Connection}
    (hsource : connection.source < wiring.length) (houtlet : connection.outlet ≤ maxPort) :
    connect wiring connection = some (wiring.add connection) := by
  simp only [connect, Wiring.add, extend_eq_some _ houtlet, Option.bind_eq_bind,
    Option.bind_some, List.getElem?_eq_getElem hsource]
  exact set_eq_some hsource fun outlets =>
    Wiring.extend outlets connection.outlet (connection.target, connection.inlet)

/-- Only ports up to the last one are asked for. -/
theorem outlet_le_of_mem_pending {canvas : Canvas} {records : List Record}
    {entry : Nat × Connection}
    (h : entry ∈ (records.foldl (PatchReader.step canvas) {}).pending) :
    entry.2.outlet ≤ maxPort := by
  rw [(PatchReader.foldl_step_adds canvas records {}).1] at h
  obtain ⟨record, -, hrecord⟩ := List.mem_filterMap.mp h
  unfold PatchReader.asked? at hrecord
  split at hrecord
  · rename_i hasked
    cases hrecord
    simp only [Bool.and_eq_true, Record.hasPorts, decide_eq_true_eq] at hasked
    obtain ⟨-, -, -, -, -, houtlet, -⟩ := hasked
    exact Int.toNat_le.mpr houtlet
  · cases hrecord

/-- No text that fits into memory makes a fault. -/
theorem readPatch_eq_some (name path : String) {text : String} (h : text.length < textBound)
    (dollarZero : Int32) :
    readPatch name path text dollarZero =
      some (Patchbay.readPatch name path text dollarZero) := by
  have hcount := length_readRecords_le text
  unfold readPatch Patchbay.readPatch
  rw [readRecords_eq_some h]
  simp only [Option.bind_eq_bind, Option.bind_some]
  cases hrecords : Patchbay.readRecords text with
  | nil => rfl
  | cons header records =>
    have hdepth : records.length < 2 ^ 64 := by
      have htext : text.length < 2 ^ 63 := h
      rw [hrecords, List.length_cons] at hcount
      omega
    dsimp only
    split
    · rfl
    · have hreader (canvas : Canvas) : records.foldlM (stepRecord canvas) {} =
          some (records.foldl (PatchReader.step canvas) {}) := by
        apply foldlM_eq_some_of_counter PatchReader.depth
        · exact fun reader record => stepRecord_eq_some canvas reader record
        · exact fun reader record => depth_step_le canvas reader record
        · exact (Nat.zero_add _).trans_lt hdepth
      have hwiring (canvas : Canvas) (count : Nat) :
          ((((records.foldl (PatchReader.step canvas) {}).pending.filter fun entry =>
              entry.2.fits count).map Prod.snd).foldlM connect (Wiring.blank count)) =
            some (((((records.foldl (PatchReader.step canvas) {}).pending.filter fun entry =>
              entry.2.fits count).map Prod.snd).foldl Wiring.add (Wiring.blank count))) := by
        apply foldlM_eq_some (fun wiring : Wiring => wiring.length = count)
        · exact List.length_replicate
        · intro wiring hlength connection hconnection
          obtain ⟨entry, hentry, rfl⟩ := List.mem_map.mp hconnection
          obtain ⟨hpending, hfits⟩ := List.mem_filter.mp hentry
          simp only [Connection.fits, Bool.and_eq_true, decide_eq_true_eq] at hfits
          exact ⟨connect_eq_some (hlength ▸ hfits.1) (outlet_le_of_mem_pending hpending),
            (Wiring.length_add wiring entry.2).trans hlength⟩
      have hskip : skip 1 (header :: records) = some records :=
        if_pos (Nat.le_add_left 1 records.length)
      simp only [hskip, hreader, hwiring, Option.bind_some]

end Checked

end Patchbay
