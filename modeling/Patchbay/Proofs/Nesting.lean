import Mathlib.Data.List.Forall2
import Patchbay.Proofs.Boxes

/-!
# What is inside a nested canvas does not matter

A nested canvas counts as one object, whatever is inside it. Two patch texts that differ
inside an outermost nested canvas alone are read as the same patch. Their diagnostics are
the same up to the lines that they name, since what is inside may take up any number of
lines.

## Implementation notes

Where a nested canvas ends depends on what is inside, so the records inside have to be
balanced: every canvas opened there is closed there, and no other. A patch is read off two
lists of records, those that make objects and those outside every nested canvas. Balanced
records inside an open canvas are in neither of them.
-/

namespace Patchbay
open PatchReader

/-! ## Balanced records -/

/-- Records that close each canvas they open, and no other. -/
inductive Record.Balanced : List Record → Prop
  | nil : Balanced []
  | plain {record : Record} {rest : List Record} (hopens : opensCanvas record = false)
    (hcloses : closesCanvas record = false) (hrest : Balanced rest) : Balanced (record :: rest)
  | nested {opening closing : Record} {inside rest : List Record}
    (hopens : opensCanvas opening = true) (hinside : Balanced inside)
    (hcloses : closesCanvas closing = true) (hrest : Balanced rest) :
    Balanced (opening :: (inside ++ closing :: rest))

/-- How many nested canvases are open behind some records, if `depth` are open before. -/
def openCanvases : (depth : Nat) → List Record → Nat
  | depth, [] => depth
  | depth, record :: rest =>
    if opensCanvas record then openCanvases (depth + 1) rest
    else if closesCanvas record then openCanvases (depth - 1) rest
    else openCanvases depth rest

/-- A record that closes a canvas opens none. -/
theorem opensCanvas_of_closesCanvas {record : Record} (h : closesCanvas record = true) :
    opensCanvas record = false := by
  simp only [closesCanvas, Bool.and_eq_true, beq_iff_eq] at h
  simp [opensCanvas, h.1]

theorem outerRecords_append (first second : List Record) (depth : Nat) :
    outerRecords depth (first ++ second) =
      outerRecords depth first ++ outerRecords (openCanvases depth first) second := by
  induction first generalizing depth with
  | nil => rfl
  | cons record rest ih =>
    by_cases hopens : opensCanvas record
    · simp [outerRecords, openCanvases, hopens, ih]
    · by_cases hcloses : closesCanvas record
      · cases depth <;> simp [outerRecords, openCanvases, hopens, hcloses, ih]
      · cases depth <;> simp [outerRecords, openCanvases, hopens, hcloses, ih]

theorem not_isBox_of_closesCanvas {record : Record} (h : closesCanvas record = true) :
    record.isBox = false := by
  simp only [closesCanvas, Bool.and_eq_true, beq_iff_eq] at h
  simp [Record.isBox, h.2]

theorem boxRecords_append (first second : List Record) (depth : Nat) :
    boxRecords depth (first ++ second) =
      boxRecords depth first ++ boxRecords (openCanvases depth first) second := by
  induction first generalizing depth with
  | nil => rfl
  | cons record rest ih =>
    by_cases hopens : opensCanvas record
    · simp [boxRecords, openCanvases, hopens, ih]
    · by_cases hcloses : closesCanvas record
      · have hplain := not_isBox_of_closesCanvas hcloses
        cases depth with
        | zero => simp [boxRecords, openCanvases, hopens, hcloses, hplain, ih]
        | succ depth =>
          cases depth <;> simp [boxRecords, openCanvases, hopens, hcloses, ih]
      · cases depth with
        | zero =>
          by_cases hbox : record.isBox <;>
            simp [boxRecords, openCanvases, hopens, hcloses, hbox, ih]
        | succ depth => simp [boxRecords, openCanvases, hopens, hcloses, ih]

theorem openCanvases_append (first second : List Record) (depth : Nat) :
    openCanvases depth (first ++ second) = openCanvases (openCanvases depth first) second := by
  induction first generalizing depth with
  | nil => rfl
  | cons record rest ih =>
    simp only [List.cons_append, openCanvases, ih]
    split
    · rfl
    · split <;> rfl

/-- Balanced records inside an open canvas leave it open and are read over. -/
theorem skips_of_balanced {records : List Record} (h : Record.Balanced records) (depth : Nat) :
    openCanvases (depth + 1) records = depth + 1 ∧ outerRecords (depth + 1) records = [] ∧
      boxRecords (depth + 1) records = [] := by
  induction h generalizing depth with
  | nil => exact ⟨rfl, rfl, rfl⟩
  | plain hopens hcloses _ ih =>
    simpa [openCanvases, outerRecords, boxRecords, hopens, hcloses] using ih depth
  | nested hopens _ hcloses _ ihinside ihrest =>
    obtain ⟨hinside, hinsideOuter, hinsideBoxes⟩ := ihinside (depth + 1)
    obtain ⟨hrest, hrestOuter, hrestBoxes⟩ := ihrest depth
    have hplain := opensCanvas_of_closesCanvas hcloses
    refine ⟨?_, ?_, ?_⟩
    · simp [openCanvases, openCanvases_append, hopens, hinside, hplain, hcloses, hrest]
    · simp [outerRecords, outerRecords_append, hopens, hinside, hinsideOuter, hplain, hcloses,
        hrestOuter]
    · simp [boxRecords, boxRecords_append, hopens, hinside, hinsideBoxes, hplain, hcloses,
        hrestBoxes]

/-! ## A text around a nested canvas -/

/-- The records of a patch text behind its header, cut around a nested canvas. -/
structure Nest where
  before : List Record
  opening : Record
  inside : List Record
  closing : Record
  after : List Record

namespace Nest
variable {nest : Nest}

/-- All the records, in order. -/
def records (nest : Nest) : List Record :=
  nest.before ++ nest.opening :: (nest.inside ++ nest.closing :: nest.after)

/-- The nested canvas is inside no other, and the records inside it are balanced. -/
structure Outermost (nest : Nest) : Prop where
  depth_eq : openCanvases 0 nest.before = 0
  opens : opensCanvas nest.opening = true
  balanced : Record.Balanced nest.inside
  closes : closesCanvas nest.closing = true

/-- Outside the nested canvas are the records before and after it. -/
theorem outerRecords_records (h : nest.Outermost) :
    outerRecords 0 nest.records = outerRecords 0 nest.before ++ outerRecords 0 nest.after := by
  obtain ⟨hinside, houter, -⟩ := skips_of_balanced h.balanced 0
  have hplain := opensCanvas_of_closesCanvas h.closes
  rw [records, outerRecords_append, h.depth_eq]
  simp [outerRecords, outerRecords_append, h.opens, hinside, houter, hplain, h.closes]

/-- The nested canvas makes one object, between those before and those after it. -/
theorem boxRecords_records (h : nest.Outermost) :
    boxRecords 0 nest.records =
      boxRecords 0 nest.before ++ nest.closing :: boxRecords 0 nest.after := by
  obtain ⟨hinside, -, hboxes⟩ := skips_of_balanced h.balanced 0
  have hplain := opensCanvas_of_closesCanvas h.closes
  rw [records, boxRecords_append, h.depth_eq]
  simp [boxRecords, boxRecords_append, h.opens, hinside, hboxes, hplain, h.closes]

end Nest

/-! ## Reading off the two lists -/

/-- The patch and the diagnostics that some records give, of which some make objects and some are
outside the nested canvases. -/
def readingOf (name path : String) (dollarZero : Int32) (header : Record)
    (boxes outer : List Record) : Patch × List String :=
  let fontSize := if header.int 6 = 0 then 10 else header.int 6
  let canvas : Canvas := { name, dollarZero, fontSize }
  let count := boxes.length
  let connections :=
    ((outer.filter Record.isConnect).filter (Record.joins count)).map Record.connection
  ({ name, path, dollarZero, fontSize, connections
     x := header.int 2
     y := header.int 3
     width := header.int 4
     height := header.int 5
     objects := boxes.map canvas.box
     wiring := connections.foldl Wiring.add (Wiring.blank count) },
    outer.filterMap canvas.earlyReport? ++ outer.filterMap (Record.lateReport? name count))

theorem readPatch_eq_readingOf (name path : String) (dollarZero : Int32) {text : String}
    {header : Record} {records : List Record} (hrecords : readRecords text = header :: records)
    (hheader : opensCanvas header = true) :
    readPatch name path text dollarZero =
      .ok (readingOf name path dollarZero header (boxRecords 0 records)
        (outerRecords 0 records)) := by
  let canvas : Canvas :=
    { name, dollarZero, fontSize := if header.int 6 = 0 then 10 else header.int 6 }
  let reader := records.foldl (step canvas) {}
  have hobjects : reader.objects = (boxRecords 0 records).map canvas.box :=
    objects_foldl_step canvas records {}
  have hcount : reader.objects.length = (boxRecords 0 records).length := by
    rw [hobjects, List.length_map]
  have hdiagnostics : reader.diagnostics = (outerRecords 0 records).filterMap canvas.earlyReport? :=
    (foldl_step_adds canvas records {}).2
  have hconnections (count : Nat) :
      (reader.pending.filter fun entry => entry.2.fits count).map Prod.snd =
        (((outerRecords 0 records).filter Record.isConnect).filter (Record.joins count)).map
          Record.connection :=
    connections_foldl_step canvas count records
  have hmissing (count : Nat) :
      ((reader.pending.filter fun entry => !entry.2.fits count).map fun entry =>
          missingObject name entry.1 entry.2) =
        (outerRecords 0 records).filterMap (Record.lateReport? name count) := by
    rw [← map_missingObject_asked?, (foldl_step_adds canvas records {}).1]
    rfl
  have hread : readPatch name path text dollarZero =
      .ok
        ({ name, path, dollarZero, fontSize := canvas.fontSize
           connections := (reader.pending.filter fun entry =>
             entry.2.fits reader.objects.length).map Prod.snd
           x := header.int 2
           y := header.int 3
           width := header.int 4
           height := header.int 5
           objects := reader.objects
           wiring := ((reader.pending.filter fun entry =>
             entry.2.fits reader.objects.length).map Prod.snd).foldl Wiring.add
               (Wiring.blank reader.objects.length) },
          reader.diagnostics ++ (reader.pending.filter fun entry =>
            !entry.2.fits reader.objects.length).map fun entry =>
              missingObject name entry.1 entry.2) := by
    unfold readPatch
    rw [hrecords]
    simp only [hheader, Bool.not_true, Bool.false_eq_true, ↓reduceIte]
    rfl
  rw [hread, hconnections, hmissing, hdiagnostics, hcount, hobjects]
  rfl

/-! ## Lines aside -/

namespace Record

/-- Two records are the same but for the lines they stand on. -/
def SameTokens (record record' : Record) : Prop := record.tokens = record'.tokens

variable {record record' : Record}

/-- A record is told by its tokens and its line. -/
theorem SameTokens.exists_eq (h : record.SameTokens record') :
    ∃ line, record' = { record with line } := by
  obtain ⟨line, tokens⟩ := record'
  exact ⟨line, by rw [show record.tokens = tokens from h]⟩

theorem forall₂_sameTokens_iff {records records' : List Record} :
    List.Forall₂ SameTokens records records' ↔ records.map tokens = records'.map tokens := by
  rw [← List.forall₂_eq_eq_eq, List.forall₂_map_left_iff, List.forall₂_map_right_iff]
  rfl

/-- A view of records that does not look at their lines. -/
def Lineless {α : Type*} (view : Record → α) : Prop :=
  ∀ record line, view { record with line } = view record

namespace Lineless
variable {α : Type*} {records records' : List Record}

theorem eq {view : Record → α} (hview : Lineless view) (h : record.SameTokens record') :
    view record' = view record := by
  obtain ⟨line, rfl⟩ := h.exists_eq
  exact hview record line

theorem map_eq {view : Record → α} (hview : Lineless view)
    (h : List.Forall₂ SameTokens records records') : records'.map view = records.map view := by
  induction h with
  | nil => rfl
  | cons hrecord _ ih => rw [List.map_cons, List.map_cons, hview.eq hrecord, ih]

theorem filter {view : Record → Bool} (hview : Lineless view)
    (h : List.Forall₂ SameTokens records records') :
    List.Forall₂ SameTokens (records.filter view) (records'.filter view) := by
  refine List.rel_filter ?_ h
  intro record record' hrecord
  exact iff_of_eq (congrArg (· = true) (hview.eq hrecord).symm)

end Lineless

theorem lineless_opensCanvas : Lineless opensCanvas := fun _ _ => rfl

theorem lineless_closesCanvas : Lineless closesCanvas := fun _ _ => rfl

theorem lineless_isBox : Lineless isBox := fun _ _ => rfl

end Record

/-- Two texts that differ in a line number at most. -/
inductive SameButLine : String → String → Prop
  | refl (text : String) : SameButLine text text
  | lines (before after : String) (line line' : Nat) :
    SameButLine (before ++ ("line " ++ toString line) ++ after)
      (before ++ ("line " ++ toString line') ++ after)

/-- Two readings of a patch that are the same up to the lines they name. -/
inductive SameReading :
    Except Failure (Patch × List String) → Except Failure (Patch × List String) → Prop
  | ok {patch : Patch} {diagnostics diagnostics' : List String}
    (h : List.Forall₂ SameButLine diagnostics diagnostics') :
    SameReading (.ok (patch, diagnostics)) (.ok (patch, diagnostics'))
  | error (path : String) (line line' : Nat) (reason : String) :
    SameReading (.error (.invalidPatch path line reason)) (.error (.invalidPatch path line' reason))

theorem SameReading.of_patch {reading reading' : Patch × List String}
    (hpatch : reading.1 = reading'.1)
    (hdiagnostics : List.Forall₂ SameButLine reading.2 reading'.2) :
    SameReading (.ok reading) (.ok reading') := by
  obtain ⟨patch, diagnostics⟩ := reading
  obtain ⟨patch', diagnostics'⟩ := reading'
  cases hpatch
  exact .ok hdiagnostics

theorem sameTokens_outerRecords {records records' : List Record}
    (h : List.Forall₂ Record.SameTokens records records') (depth : Nat) :
    List.Forall₂ Record.SameTokens (outerRecords depth records) (outerRecords depth records') := by
  induction h generalizing depth with
  | nil => exact .nil
  | cons hrecord _ ih =>
    simp only [outerRecords, Record.lineless_opensCanvas.eq hrecord,
      Record.lineless_closesCanvas.eq hrecord]
    split
    · exact ih _
    · cases depth with
      | zero => exact .cons hrecord (ih 0)
      | succ depth =>
        simp only
        split
        · exact ih _
        · exact ih _

theorem sameTokens_boxRecords {records records' : List Record}
    (h : List.Forall₂ Record.SameTokens records records') (depth : Nat) :
    List.Forall₂ Record.SameTokens (boxRecords depth records) (boxRecords depth records') := by
  induction h generalizing depth with
  | nil => exact .nil
  | cons hrecord _ ih =>
    simp only [boxRecords, Record.lineless_opensCanvas.eq hrecord,
      Record.lineless_closesCanvas.eq hrecord, Record.lineless_isBox.eq hrecord]
    split
    · exact ih _
    · cases depth with
      | zero =>
        simp only
        split
        · exact .cons hrecord (ih 0)
        · exact ih 0
      | succ depth =>
        simp only
        split
        · split
          · exact .cons hrecord (ih 0)
          · exact ih _
        · exact ih _

/-- What is said of a record first is the same but for its line. -/
theorem Canvas.earlyReport?_rel (canvas : Canvas) {record record' : Record}
    (h : record.SameTokens record') :
    Option.Rel SameButLine (canvas.earlyReport? record) (canvas.earlyReport? record') := by
  obtain ⟨line, rfl⟩ := h.exists_eq
  have hconnect : Record.isConnect { record with line } = record.isConnect := rfl
  have hports : Record.hasPorts { record with line } = record.hasPorts := rfl
  have hfailure : canvas.creationFailure? { record with line } = canvas.creationFailure? record :=
    rfl
  simp only [earlyReport?, hconnect, hports, hfailure]
  split
  · split
    · exact .none
    · obtain ⟨before, after, hnamed⟩ := exists_badFields_eq canvas.name
      rw [hnamed record, hnamed { record with line }]
      exact .some (.lines before after record.line line)
  · cases canvas.creationFailure? record with
    | none => exact .none
    | some text => exact .some (.refl text)

/-- What is said of a record once all objects are known is the same but for its line. -/
theorem Record.lateReport?_rel (name : String) (count : Nat) {record record' : Record}
    (h : record.SameTokens record') :
    Option.Rel SameButLine (record.lateReport? name count) (record'.lateReport? name count) := by
  obtain ⟨line, rfl⟩ := h.exists_eq
  have hreports : (Record.isConnect { record with line } && Record.hasPorts { record with line } &&
      !Record.joins count { record with line }) =
      (record.isConnect && record.hasPorts && !record.joins count) := rfl
  simp only [lateReport?, hreports]
  split
  · obtain ⟨before, after, hnamed⟩ := exists_missingObject_eq name record.connection
    rw [hnamed record.line]
    exact .some (hnamed line ▸ .lines before after record.line line)
  · exact .none

/-- A patch is the same whatever lines its records stand on. -/
theorem readingOf_sameTokens (name path : String) (dollarZero : Int32)
    {header header' : Record} {boxes boxes' outer outer' : List Record}
    (hheader : header.SameTokens header') (hboxes : List.Forall₂ Record.SameTokens boxes boxes')
    (houter : List.Forall₂ Record.SameTokens outer outer') :
    (readingOf name path dollarZero header boxes outer).1 =
        (readingOf name path dollarZero header' boxes' outer').1 ∧
      List.Forall₂ SameButLine (readingOf name path dollarZero header boxes outer).2
        (readingOf name path dollarZero header' boxes' outer').2 := by
  have hcount : boxes'.length = boxes.length := hboxes.length_eq.symm
  have hobjects (canvas : Canvas) : boxes'.map canvas.box = boxes.map canvas.box :=
    Record.Lineless.map_eq (fun _ _ => rfl) hboxes
  have hjoins : List.Forall₂ Record.SameTokens
      ((outer.filter Record.isConnect).filter (Record.joins boxes.length))
      ((outer'.filter Record.isConnect).filter (Record.joins boxes.length)) :=
    Record.Lineless.filter (fun _ _ => rfl) (Record.Lineless.filter (fun _ _ => rfl) houter)
  have hconnections :
      ((outer'.filter Record.isConnect).filter (Record.joins boxes.length)).map
          Record.connection =
        ((outer.filter Record.isConnect).filter (Record.joins boxes.length)).map
          Record.connection :=
    Record.Lineless.map_eq (fun _ _ => rfl) hjoins
  obtain ⟨line, rfl⟩ := hheader.exists_eq
  constructor
  · have hline : readingOf name path dollarZero { header with line } boxes' outer' =
        readingOf name path dollarZero header boxes' outer' := rfl
    rw [hline]
    simp only [readingOf, hcount, hconnections, hobjects]
  · simp only [readingOf, hcount]
    apply List.rel_append
    · exact List.rel_filterMap (fun _ _ hrecord => Canvas.earlyReport?_rel _ hrecord) houter
    · exact List.rel_filterMap
        (fun _ _ hrecord => Record.lateReport?_rel name boxes.length hrecord) houter

/-- What is read off a text depends, lines aside, on its header and on the two lists. -/
theorem sameReading_of_lists {text text' : String} {header header' : Record}
    {records records' : List Record} (h : readRecords text = header :: records)
    (h' : readRecords text' = header' :: records') (hheader : header.SameTokens header')
    (hboxes : List.Forall₂ Record.SameTokens (boxRecords 0 records) (boxRecords 0 records'))
    (houter : List.Forall₂ Record.SameTokens (outerRecords 0 records) (outerRecords 0 records'))
    (name path : String) (dollarZero : Int32) :
    SameReading (readPatch name path text dollarZero)
      (readPatch name path text' dollarZero) := by
  have hopens' := Record.lineless_opensCanvas.eq hheader
  by_cases hopens : opensCanvas header = true
  · have hread := readPatch_eq_readingOf name path dollarZero h hopens
    have hread' := readPatch_eq_readingOf name path dollarZero h' (hopens'.trans hopens)
    obtain ⟨hpatch, hdiagnostics⟩ :=
      readingOf_sameTokens name path dollarZero hheader hboxes houter
    rw [hread, hread']
    exact .of_patch hpatch hdiagnostics
  · have hread : readPatch name path text dollarZero =
        .error (.invalidPatch path header.line "missing canvas header") := by
      simp [readPatch, h, hopens]
    have hread' : readPatch name path text' dollarZero =
        .error (.invalidPatch path header'.line "missing canvas header") := by
      simp [readPatch, h', hopens', hopens]
    rw [hread, hread']
    exact .error path header.line header'.line _

/-! ## Another inside -/

/-- Patch texts that differ, lines aside, by what is inside one outermost nested canvas are read
as the same patch with the same diagnostics. The nested canvas is one object that does nothing,
at the place of the record that closes it. -/
theorem sameReading_of_inside {text text' : String} {header : Record} {nest : Nest}
    (h : readRecords text = header :: nest.records) (hnest : nest.Outermost)
    {inside : List Record} (hinside : Record.Balanced inside)
    (h' : (readRecords text').map Record.tokens =
      (header :: { nest with inside }.records).map Record.tokens)
    (name path : String) (dollarZero : Int32) :
    SameReading (readPatch name path text dollarZero) (readPatch name path text' dollarZero) ∧
      ∀ patch diagnostics, readPatch name path text dollarZero = .ok (patch, diagnostics) →
        patch.objects = (boxRecords 0 nest.before).map patch.canvas.box ++
            patch.canvas.nested nest.closing :: (boxRecords 0 nest.after).map patch.canvas.box ∧
          (patch.canvas.nested nest.closing).node = .inert ∧
          connectRecords text =
            (outerRecords 0 nest.before ++ outerRecords 0 nest.after).filter Record.isConnect := by
  have hboxes := Nest.boxRecords_records hnest
  have houter := Nest.outerRecords_records hnest
  -- With other records inside, the two lists are the same.
  let other : Nest := { nest with inside }
  have hother : other.Outermost := ⟨hnest.depth_eq, hnest.opens, hinside, hnest.closes⟩
  have hsameBoxes : boxRecords 0 other.records = boxRecords 0 nest.records :=
    (Nest.boxRecords_records hother).trans hboxes.symm
  have hsameOuter : outerRecords 0 other.records = outerRecords 0 nest.records :=
    (Nest.outerRecords_records hother).trans houter.symm
  have hrecords : List.Forall₂ Record.SameTokens (header :: other.records) (readRecords text') :=
    Record.forall₂_sameTokens_iff.mpr h'.symm
  obtain ⟨header', records', hheader, hsame, hrecords'⟩ := List.forall₂_cons_left_iff.mp hrecords
  refine ⟨sameReading_of_lists h hrecords' hheader (hsameBoxes ▸ sameTokens_boxRecords hsame 0)
    (hsameOuter ▸ sameTokens_outerRecords hsame 0) name path dollarZero, ?_⟩
  intro patch diagnostics hdone
  have hobjects := (objects_of_readPatch hdone).2
  have hclosing := box_of_closesCanvas patch.canvas hnest.closes
  rw [boxRecordsOf, h, List.tail_cons, hboxes, List.map_append, List.map_cons, hclosing]
    at hobjects
  refine ⟨hobjects, rfl, ?_⟩
  rw [connectRecords, outerRecordsOf, h, List.tail_cons, houter]

/-- A patch text with a nested canvas that holds an object and a connection. -/
def nestedText : String :=
  "#N canvas;\n#X obj 0 0 r;\n#N canvas;\n#X obj 0 0 s;\n#X connect 0 0 1 0;\n" ++
    "#X restore 5 6 pd;\n#X connect 0 0 2 0;\n"

/-- The same text with a further canvas inside and a record that says nothing. -/
def refilledText : String :=
  "#N canvas;\n#X obj 0 0 r;\n#N canvas;\n#N canvas;\n#X msg 0 0 x;\n#X restore;\n#A;\n" ++
    "#X restore 5 6 pd;\n#X connect 0 0 2 0;\n"

/-- The records of `nestedText` behind its header, around the nested canvas. -/
def nestedRecords : Nest where
  before := [⟨2, ["#X", "obj", "0", "0", "r"].map .word⟩]
  opening := ⟨3, ["#N", "canvas"].map .word⟩
  inside := [⟨4, ["#X", "obj", "0", "0", "s"].map .word⟩,
    ⟨5, ["#X", "connect", "0", "0", "1", "0"].map .word⟩]
  closing := ⟨6, ["#X", "restore", "5", "6", "pd"].map .word⟩
  after := [⟨7, ["#X", "connect", "0", "0", "2", "0"].map .word⟩]

/-- The records that `refilledText` has inside. -/
def refill : List Record :=
  [⟨4, ["#N", "canvas"].map .word⟩, ⟨5, ["#X", "msg", "0", "0", "x"].map .word⟩,
    ⟨6, ["#X", "restore"].map .word⟩, ⟨7, ["#A"].map .word⟩]

/-- Both texts give the same patch, and their diagnostics name different lines. -/
theorem sameReading_of_inside_refill :
    nestedRecords.Outermost ∧ Record.Balanced refill ∧
      SameReading (readPatch "a.pd" "/a.pd" nestedText 1000)
        (readPatch "a.pd" "/a.pd" refilledText 1000) ∧
      (readPatch "a.pd" "/a.pd" nestedText 1000).toOption.map Prod.snd =
        some ["a.pd: connection 0 0 2 0 (line 7) refers to a missing object"] ∧
      (readPatch "a.pd" "/a.pd" refilledText 1000).toOption.map Prod.snd =
        some ["a.pd: connection 0 0 2 0 (line 9) refers to a missing object"] := by
  have houtermost : nestedRecords.Outermost :=
    ⟨by decide, by decide, .plain (by decide) (by decide) (.plain (by decide) (by decide) .nil),
      by decide⟩
  have hinside : Record.Balanced [⟨5, ["#X", "msg", "0", "0", "x"].map .word⟩] :=
    .plain (by decide) (by decide) .nil
  have hbalanced : Record.Balanced refill :=
    .nested (by decide) hinside (by decide) (.plain (by decide) (by decide) .nil)
  have htext : nestedText = String.ofList _ := append_eq_ofList rfl rfl
  have htext' : refilledText = String.ofList _ := append_eq_ofList rfl rfl
  have hread : readRecords nestedText =
      ⟨1, ["#N", "canvas"].map .word⟩ :: nestedRecords.records := by
    rw [htext, readRecords_ofList]
    decide +kernel
  have hread' : (readRecords refilledText).map Record.tokens =
      ((⟨1, ["#N", "canvas"].map .word⟩ : Record) ::
        { nestedRecords with inside := refill }.records).map Record.tokens := by
    rw [htext', readRecords_ofList]
    decide +kernel
  refine ⟨houtermost, hbalanced,
    (sameReading_of_inside hread houtermost hbalanced hread' "a.pd" "/a.pd" 1000).1, ?_, ?_⟩
  · rw [readPatch, hread]
    decide
  · rw [htext', readPatch, readRecords_ofList]
    decide +kernel

end Patchbay
