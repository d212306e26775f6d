import Mathlib.Data.List.Basic
import Patchbay.Proofs.Connections
import Patchbay.Proofs.Records

/-!
# Objects and their records

The objects of a patch stand in the order of the records that make them: the boxes outside
all nested canvases, and the `restore` record of each outermost nested canvas. Each object is
made from its record and from what the canvas shares, whatever else the text holds.
-/

namespace Patchbay

/-- Whether a record outside the nested canvases makes an object. -/
def Record.isBox (record : Record) : Bool :=
  record.word? 0 == some "#X" &&
    match record.word? 1 with
    | some "obj" | some "msg" | some "text" => true
    | some "floatatom" | some "symbolatom" | some "listbox" => true
    | _ => false

/-- The records that make objects, where `depth` canvases are open before the first. -/
def boxRecords : (depth : Nat) → List Record → List Record
  | _, [] => []
  | depth, record :: rest =>
    if PatchReader.opensCanvas record then boxRecords (depth + 1) rest
    else match depth with
      | 0 => if record.isBox then record :: boxRecords 0 rest else boxRecords 0 rest
      | depth + 1 =>
        if PatchReader.closesCanvas record then
          if depth = 0 then record :: boxRecords 0 rest else boxRecords depth rest
        else boxRecords (depth + 1) rest

/-- The records of a patch text that make its objects, in the order of the objects. -/
def boxRecordsOf (text : String) : List Record := boxRecords 0 (readRecords text).tail

/-- The object that a record makes; what is no box stands for a nested canvas. -/
def Canvas.box (canvas : Canvas) (record : Record) : PatchObject :=
  match record.word? 1 with
  | some "obj" => (canvas.object record).1
  | some "msg" => canvas.messageBox record
  | some "text" => canvas.comment record
  | some "floatatom" => canvas.entryBox "floatatom" record
  | some "symbolatom" => canvas.entryBox "symbolatom" record
  | some "listbox" => canvas.entryBox "listbox" record
  | _ => canvas.nested record

theorem mem_of_mem_splitColumns {tokens : List Token} {token : Token}
    (h : token ∈ (splitColumns tokens).1) : token ∈ tokens := by
  unfold splitColumns at h
  split at h
  · rename_i columns rest hreverse
    have hmem : token ∈ tokens.reverse := by
      rw [hreverse]
      simp [List.mem_reverse.mp h]
    exact List.mem_reverse.mp hmem
  · exact h

/-- A record makes an object of a class, with words for its arguments. -/
structure Record.IsObject (className : String) (words : List String) (record : Record) :
    Prop where
  mark : record.word? 0 = some "#X"
  kind : record.word? 1 = some "obj"
  className_eq : headWord? (splitColumns record.body).1 = some className
  words_eq : ((splitColumns record.body).1.drop 1).filterMap Token.word? = words

namespace Record.IsObject
variable {className : String} {words : List String} {record : Record}

theorem isBox (h : record.IsObject className words) : record.isBox := by
  simp [Record.isBox, h.mark, h.kind]

theorem arguments_eq (h : record.IsObject className words) (canvas : Canvas) :
    (((splitColumns record.body).1.drop 1).filterMap fun token =>
      token.word?.map fun word => expandWord word canvas.dollarZero) =
      words.map fun word => expandWord word canvas.dollarZero := by
  rw [← h.words_eq, List.map_filterMap]

theorem node_box (h : record.IsObject className words) (canvas : Canvas) {node : Node}
    (hname : className ≠ "") (hgui : GuiKind.ofClass? className = none)
    (hnode : Node.create className (words.map fun word => expandWord word canvas.dollarZero) =
      some node) : (canvas.box record).node = node := by
  simp only [Canvas.box, h.kind, Canvas.object, h.className_eq, Option.getD_some, h.arguments_eq,
    hgui, String.isEmpty_iff, hname, ↓reduceIte, hnode]

theorem node_box_of_gui (h : record.IsObject className words) (canvas : Canvas) {kind : GuiKind}
    (hgui : GuiKind.ofClass? className = some kind) :
    (canvas.box record).node =
      .gui (Gui.create kind (words.map fun word => expandWord word canvas.dollarZero)
        (record.int 2) (record.int 3) (fontCell canvas.fontSize).1) := by
  simp only [Canvas.box, h.kind, Canvas.object, h.className_eq, Option.getD_some, h.arguments_eq,
    hgui]

theorem mem_tokens (h : record.IsObject className words) {word : String} (hword : word ∈ words) :
    Token.word word ∈ record.tokens := by
  rw [← h.words_eq] at hword
  obtain ⟨token, htoken, htext⟩ := List.mem_filterMap.mp hword
  cases token with
  | word text =>
    cases htext
    exact List.mem_of_mem_drop (mem_of_mem_splitColumns (List.mem_of_mem_drop htoken))
  | comma => cases htext
  | semicolon => cases htext

end Record.IsObject

namespace PatchReader

/-- A record outside the nested canvases adds its object, if it makes one. -/
theorem objects_stepOuter (canvas : Canvas) (reader : PatchReader) (record : Record) :
    (stepOuter canvas reader record).objects =
        reader.objects ++ (if record.isBox then [canvas.box record] else []) ∧
      (stepOuter canvas reader record).depth = reader.depth := by
  unfold stepOuter
  by_cases hmark : record.word? 0 = some "#X"
  · rw [if_pos hmark]
    split
    all_goals rename_i hword
    · simp [add, Record.isBox, Canvas.box, hmark, hword]
    · simp [add, Record.isBox, Canvas.box, hmark, hword]
    · simp [add, Record.isBox, Canvas.box, hmark, hword]
    · simp [add, Record.isBox, Canvas.box, hmark, hword]
    · simp [add, Record.isBox, Canvas.box, hmark, hword]
    · simp [add, Record.isBox, Canvas.box, hmark, hword]
    · unfold connect
      split <;> simp [Record.isBox, hword]
    · have hplain : record.isBox = false := by
        unfold Record.isBox
        split <;> simp_all
      simp [hplain]
  · rw [if_neg hmark]
    simp [Record.isBox, hmark]

/-- A record that closes an outermost nested canvas makes the object that stands for it. -/
theorem box_of_closesCanvas (canvas : Canvas) {record : Record}
    (h : closesCanvas record = true) : canvas.box record = canvas.nested record := by
  simp only [closesCanvas, Bool.and_eq_true, beq_iff_eq] at h
  simp [Canvas.box, h.2]

/-- What all records add to the objects. -/
theorem objects_foldl_step (canvas : Canvas) (records : List Record) (reader : PatchReader) :
    (records.foldl (step canvas) reader).objects =
      reader.objects ++ (boxRecords reader.depth records).map canvas.box := by
  induction records generalizing reader with
  | nil => simp [boxRecords]
  | cons record rest ih =>
    rw [List.foldl_cons, ih]
    by_cases hopens : opensCanvas record
    · simp [step, boxRecords, hopens]
    · cases hdepth : reader.depth with
      | zero =>
        obtain ⟨hobjects, hkept⟩ := objects_stepOuter canvas reader record
        have hstep : step canvas reader record = stepOuter canvas reader record := by
          simp [step, hopens, hdepth]
        rw [hstep, hobjects, hkept, hdepth]
        by_cases hbox : record.isBox <;> simp [boxRecords, hopens, hbox]
      | succ depth =>
        by_cases hcloses : closesCanvas record
        · by_cases hlast : depth = 0
          · simp [step, boxRecords, hopens, hdepth, hcloses, hlast, add,
              box_of_closesCanvas canvas hcloses]
          · simp [step, boxRecords, hopens, hdepth, hcloses, hlast]
        · simp [step, boxRecords, hopens, hdepth, hcloses]

end PatchReader

/-- What an accepted text gives: its number, and an object for each record that makes one. -/
theorem objects_of_readPatch {name path text : String} {dollarZero : Int32} {patch : Patch}
    {diagnostics : List String}
    (h : readPatch name path text dollarZero = .ok (patch, diagnostics)) :
    patch.dollarZero = dollarZero ∧
      patch.objects = (boxRecordsOf text).map patch.canvas.box := by
  unfold readPatch at h
  split at h
  · cases h
  · rename_i header records hrecords
    split at h
    · cases h
    · cases h
      refine ⟨rfl, ?_⟩
      rw [boxRecordsOf, hrecords]
      exact PatchReader.objects_foldl_step _ records {}

/-- A text makes an object of one of some classes at a position, with a word for its first
argument. -/
def MakesObject (text : String) (classNames : List String) (word : String) (index : Nat) : Prop :=
  ∃ record className rest, (boxRecordsOf text)[index]? = some record ∧ className ∈ classNames ∧
    record.IsObject className (word :: rest)

/-- The records that make objects are among all records, and each is a box or closes a canvas. -/
theorem of_mem_boxRecords {records : List Record} {depth : Nat} {record : Record}
    (h : record ∈ boxRecords depth records) :
    record ∈ records ∧ (record.isBox = true ∨ PatchReader.closesCanvas record = true) := by
  induction records generalizing depth with
  | nil => simp [boxRecords] at h
  | cons first rest ih =>
    have hrest (depth : Nat) (hmem : record ∈ boxRecords depth rest) :
        record ∈ first :: rest ∧
          (record.isBox = true ∨ PatchReader.closesCanvas record = true) :=
      ⟨List.mem_cons_of_mem _ (ih hmem).1, (ih hmem).2⟩
    have hhead (depth : Nat)
        (hfirst : first.isBox = true ∨ PatchReader.closesCanvas first = true)
        (hmem : record ∈ first :: boxRecords depth rest) :
        record ∈ first :: rest ∧
          (record.isBox = true ∨ PatchReader.closesCanvas record = true) := by
      rcases List.mem_cons.mp hmem with rfl | hmem
      · exact ⟨List.mem_cons_self, hfirst⟩
      · exact hrest depth hmem
    unfold boxRecords at h
    split at h
    · exact hrest _ h
    · split at h
      · split at h
        · exact hhead _ (.inl ‹_›) h
        · exact hrest _ h
      · split at h
        · split at h
          · exact hhead _ (.inr ‹_›) h
          · exact hrest _ h
        · exact hrest _ h

/-- The records that make objects all begin with the same mark. -/
theorem mark_of_mem_boxRecordsOf {text : String} {record : Record}
    (h : record ∈ boxRecordsOf text) : record.word? 0 = some "#X" := by
  rcases (of_mem_boxRecords h).2 with hbox | hcloses
  · rw [Record.isBox, Bool.and_eq_true, beq_iff_eq] at hbox
    exact hbox.1
  · rw [PatchReader.closesCanvas, Bool.and_eq_true, beq_iff_eq] at hcloses
    exact hcloses.1

/-- No word of a record is empty. -/
theorem ne_empty_of_mem_boxRecordsOf {text : String} {record : Record}
    (hrecord : record ∈ boxRecordsOf text) {word : String} (hword : .word word ∈ record.tokens) :
    word ≠ "" := by
  have hread : record ∈ readRecords text := List.mem_of_mem_tail (of_mem_boxRecords hrecord).1
  have hformed := wellFormedRecords_readRecords text _ (List.mem_map_of_mem hread)
  exact (hformed.2 _ hword).1

/-- The node at a position is made from the record at that position. -/
theorem node?_of_readPatch {name path text : String} {dollarZero : Int32} {patch : Patch}
    {diagnostics : List String}
    (h : readPatch name path text dollarZero = .ok (patch, diagnostics)) {index : Nat}
    {record : Record} (hrecord : (boxRecordsOf text)[index]? = some record) :
    patch.node? index = some (patch.canvas.box record).node := by
  obtain ⟨-, hobjects⟩ := objects_of_readPatch h
  rw [Patch.node?, hobjects, List.getElem?_map, hrecord]
  rfl

/-- An object whose class makes the same node of its words under all its names. -/
theorem node?_of_makesObject {name path text word : String} {dollarZero : Int32} {patch : Patch}
    {diagnostics classNames : List String} {index : Nat} {node : Node}
    (h : readPatch name path text dollarZero = .ok (patch, diagnostics))
    (hobject : MakesObject text classNames word index)
    (hclass : ∀ className ∈ classNames, className ≠ "" ∧ GuiKind.ofClass? className = none ∧
      ∀ rest : List String, Node.create className
        ((word :: rest).map fun word => expandWord word patch.dollarZero) = some node) :
    patch.node? index = some node ∧ word ≠ "" := by
  obtain ⟨record, className, rest, hrecord, hmem, hobject⟩ := hobject
  obtain ⟨hname, hgui, hnode⟩ := hclass className hmem
  constructor
  · rw [node?_of_readPatch h hrecord, hobject.node_box patch.canvas hname hgui (hnode rest)]
  · exact ne_empty_of_mem_boxRecordsOf (List.mem_of_getElem? hrecord)
      (hobject.mem_tokens List.mem_cons_self)

end Patchbay
