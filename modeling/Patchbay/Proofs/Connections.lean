import Mathlib.Data.List.Perm.Basic
import Patchbay.Patch.Patch

/-!
# Connections of a patch

Each `connect` record outside the nested canvases is one connection of the patch, or it is
refused with one diagnostic. Which of the two it is can be told from its four fields and the
number of objects. The list of connections and the table of targets hold the same
connections in the same order.

## Implementation notes

A record is refused for its fields while the records are read, and for its objects once all
of them are known, so the diagnostics of refused records stand in two groups. They are
compared with the refused records up to order.
-/

namespace Patchbay

/-! ## What records say -/

namespace Record

/-- Whether a record is about a connection. -/
def isConnect (record : Record) : Bool :=
  record.word? 0 == some "#X" && record.word? 1 == some "connect"

/-- The number in a field. -/
def field (record : Record) (index : Nat) : Int := (record.int index).toInt

/-- Whether no field is negative and the ports are in range. -/
def hasPorts (record : Record) : Bool :=
  decide (0 ≤ record.field 2 ∧ 0 ≤ record.field 3 ∧ 0 ≤ record.field 4 ∧ 0 ≤ record.field 5 ∧
    record.field 3 ≤ 1023 ∧ record.field 5 ≤ 1023)

/-- Whether a record joins two of `count` objects. -/
def joins (count : Nat) (record : Record) : Bool :=
  record.hasPorts && decide (record.field 2 < count ∧ record.field 4 < count)

/-- The connection that the fields of a record name. -/
def connection (record : Record) : Connection where
  source := (record.field 2).toNat
  outlet := (record.field 3).toNat
  target := (record.field 4).toNat
  inlet := (record.field 5).toNat

/-- The diagnostic of a record that is refused for its fields. -/
def badFields (name : String) (record : Record) : String :=
  let line := record.line
  name ++ s!": connection on line {line} has an invalid object or port index"

/-- The diagnostic of a record that is refused. -/
def refusal (name : String) (record : Record) : String :=
  if record.hasPorts then missingObject name record.line record.connection
  else record.badFields name

end Record

/-- The records outside all nested canvases, where `depth` canvases are open before the first. -/
def outerRecords : (depth : Nat) → List Record → List Record
  | _, [] => []
  | depth, record :: rest =>
    if PatchReader.opensCanvas record then outerRecords (depth + 1) rest
    else match depth with
      | 0 => record :: outerRecords 0 rest
      | depth + 1 =>
        if PatchReader.closesCanvas record then outerRecords depth rest
        else outerRecords (depth + 1) rest

/-- The records of a patch text behind its header and outside all nested canvases. -/
def outerRecordsOf (text : String) : List Record := outerRecords 0 (readRecords text).tail

/-- The connections that a patch text asks for. -/
def connectRecords (text : String) : List Record :=
  (outerRecordsOf text).filter Record.isConnect

/-- The diagnostic of a record whose object cannot be created. -/
def Canvas.creationFailure? (canvas : Canvas) (record : Record) : Option String :=
  if record.word? 0 = some "#X" ∧ record.word? 1 = some "obj" then (canvas.object record).2
  else none

/-- What the objects of a patch have shared. -/
def Patch.canvas (patch : Patch) : Canvas :=
  { name := patch.name, dollarZero := patch.dollarZero, fontSize := patch.fontSize }

/-- The diagnostics of the objects of a patch that could not be created. -/
def Patch.creationFailures (patch : Patch) (text : String) : List String :=
  (outerRecordsOf text).filterMap patch.canvas.creationFailure?

/-! ## Reading a record -/

theorem nonNegative?_eq (n : Int32) :
    nonNegative? n = if 0 ≤ n.toInt then some n.toInt.toNat else none := by
  unfold nonNegative?
  by_cases hneg : n < 0
  · have hlt : n.toInt < 0 := Int32.lt_iff_toInt_lt.mp hneg
    rw [if_pos hneg, if_neg (Int.not_le.mpr hlt)]
  · have hle : 0 ≤ n.toInt := Int.not_lt.mp fun hlt => hneg (Int32.lt_iff_toInt_lt.mpr hlt)
    rw [if_neg hneg, if_pos hle]
    rfl

/-- A record names a connection exactly if its fields are in range. -/
theorem Connection.ofRecord?_eq (record : Record) :
    Connection.ofRecord? record = if record.hasPorts then some record.connection else none := by
  simp only [Connection.ofRecord?, nonNegative?_eq, Record.hasPorts, Record.connection,
    Record.field, maxPort]
  by_cases hsource : 0 ≤ (record.int 2).toInt
  · by_cases houtlet : 0 ≤ (record.int 3).toInt
    · by_cases htarget : 0 ≤ (record.int 4).toInt
      · by_cases hinlet : 0 ≤ (record.int 5).toInt
        · have hports : ((record.int 3).toInt.toNat ≤ 1023 ∧ (record.int 5).toInt.toNat ≤ 1023) ↔
              ((record.int 3).toInt ≤ 1023 ∧ (record.int 5).toInt ≤ 1023) := by omega
          simp only [hsource, houtlet, htarget, hinlet, hports, ↓reduceIte, true_and,
            decide_eq_true_eq]
        · simp [hsource, houtlet, htarget, hinlet]
      · simp [hsource, houtlet, htarget]
    · simp [hsource, houtlet]
  · simp [hsource]

theorem Record.joins_eq {record : Record} (h : record.hasPorts = true) (count : Nat) :
    record.joins count = record.connection.fits count := by
  simp only [Record.hasPorts, decide_eq_true_eq] at h
  have hends : (record.field 2 < count ∧ record.field 4 < count) ↔
      ((record.field 2).toNat < count ∧ (record.field 4).toNat < count) := by omega
  simp [Record.joins, Record.hasPorts, h, Connection.fits, Record.connection, hends]

/-- What the first reading says about a record. -/
def Canvas.earlyReport? (canvas : Canvas) (record : Record) : Option String :=
  if record.isConnect then
    if record.hasPorts then none else some (record.badFields canvas.name)
  else canvas.creationFailure? record

namespace PatchReader
variable {canvas : Canvas} {reader : PatchReader}

/-- The connection that a record asks for, with its line. -/
def asked? (record : Record) : Option (Nat × Connection) :=
  if record.isConnect && record.hasPorts then some (record.line, record.connection) else none

theorem stepOuter_of_isConnect (canvas : Canvas) (reader : PatchReader) {record : Record}
    (h : record.isConnect = true) :
    stepOuter canvas reader record = connect canvas reader record := by
  simp only [Record.isConnect, Bool.and_eq_true, beq_iff_eq] at h
  simp [stepOuter, h]

/-- Any other record adds an object at most, with its diagnostic if it could not be created. -/
theorem stepOuter_of_not_isConnect (canvas : Canvas) (reader : PatchReader) {record : Record}
    (h : record.isConnect = false) :
    (stepOuter canvas reader record).pending = reader.pending ∧
      (stepOuter canvas reader record).diagnostics =
        reader.diagnostics ++ (canvas.creationFailure? record).toList ∧
      (stepOuter canvas reader record).depth = reader.depth := by
  unfold stepOuter
  by_cases hmark : record.word? 0 = some "#X"
  · rw [if_pos hmark]
    split
    all_goals rename_i hword
    · simp [add, Canvas.creationFailure?, hmark, hword]
    · simp [add, Canvas.creationFailure?, hword]
    · simp [add, Canvas.creationFailure?, hword]
    · simp [add, Canvas.creationFailure?, hword]
    · simp [add, Canvas.creationFailure?, hword]
    · simp [add, Canvas.creationFailure?, hword]
    · simp [Record.isConnect, hmark, hword] at h
    · have hobject : record.word? 1 ≠ some "obj" := by assumption
      simp [Canvas.creationFailure?, hobject]
  · rw [if_neg hmark]
    simp [Canvas.creationFailure?, hmark]

/-- What a record outside the nested canvases adds to the connections and diagnostics. -/
theorem stepOuter_adds (canvas : Canvas) (reader : PatchReader) (record : Record) :
    (stepOuter canvas reader record).pending = reader.pending ++ (asked? record).toList ∧
      (stepOuter canvas reader record).diagnostics =
        reader.diagnostics ++ (canvas.earlyReport? record).toList ∧
      (stepOuter canvas reader record).depth = reader.depth := by
  cases hconnect : record.isConnect with
  | true =>
    rw [stepOuter_of_isConnect canvas reader hconnect]
    simp only [connect, Connection.ofRecord?_eq, asked?, Canvas.earlyReport?, hconnect]
    by_cases hports : record.hasPorts
    · simp [hports]
    · simp [hports, Record.badFields]
  | false =>
    obtain ⟨hpending, hdiagnostics, hdepth⟩ :=
      stepOuter_of_not_isConnect canvas reader hconnect
    simp [asked?, Canvas.earlyReport?, hconnect, hpending, hdiagnostics, hdepth]

/-- What all records add: only those outside the nested canvases matter. -/
theorem foldl_step_adds (canvas : Canvas) (records : List Record) (reader : PatchReader) :
    (records.foldl (step canvas) reader).pending =
        reader.pending ++ (outerRecords reader.depth records).filterMap asked? ∧
      (records.foldl (step canvas) reader).diagnostics =
        reader.diagnostics ++
          (outerRecords reader.depth records).filterMap canvas.earlyReport? := by
  induction records generalizing reader with
  | nil => simp [outerRecords]
  | cons record rest ih =>
    rw [List.foldl_cons]
    obtain ⟨hpending, hdiagnostics⟩ := ih (step canvas reader record)
    rw [hpending, hdiagnostics]
    by_cases hopens : opensCanvas record
    · simp [step, outerRecords, hopens]
    · cases hdepth : reader.depth with
      | zero =>
        obtain ⟨hasked, hreport, hkept⟩ := stepOuter_adds canvas reader record
        have hstep : step canvas reader record = stepOuter canvas reader record := by
          simp [step, hopens, hdepth]
        rw [hstep, hasked, hreport, hkept, hdepth]
        simp only [outerRecords, hopens, Bool.false_eq_true, ↓reduceIte, List.filterMap_cons]
        constructor
        · cases asked? record <;> simp
        · cases canvas.earlyReport? record <;> simp
      | succ depth =>
        by_cases hcloses : closesCanvas record
        · by_cases hlast : depth = 0
          · simp [step, outerRecords, hopens, hdepth, hcloses, hlast, add]
          · simp [step, outerRecords, hopens, hdepth, hcloses, hlast]
        · simp [step, outerRecords, hopens, hdepth, hcloses]

end PatchReader

/-! ## The table of targets -/

namespace Wiring
variable {wiring : Wiring}

theorem getD_extend (outlets : List (List (Nat × Nat))) (outlet : Nat) (target : Nat × Nat)
    (index : Nat) :
    (extend outlets outlet target).getD index [] =
      outlets.getD index [] ++ if outlet = index then [target] else [] := by
  have hroom (index : Nat) :
      (outlets ++ List.replicate (outlet + 1 - outlets.length) [])[index]?.getD [] =
        outlets[index]?.getD [] := by
    rw [List.getElem?_append]
    split
    · rfl
    · rename_i hge
      rw [List.getElem?_eq_none (Nat.le_of_not_lt hge), List.getElem?_replicate]
      split <;> rfl
  simp only [extend, List.getD_eq_getElem?_getD, List.getElem?_modify]
  by_cases heq : outlet = index
  · subst heq
    have hlt : outlet < (outlets ++ List.replicate (outlet + 1 - outlets.length) []).length := by
      rw [List.length_append, List.length_replicate]
      omega
    have hown := hroom outlet
    rw [List.getElem?_eq_getElem hlt, Option.getD_some] at hown
    simp [List.getElem?_eq_getElem hlt, hown]
  · simp [heq, hroom]

theorem length_add (wiring : Wiring) (connection : Connection) :
    (wiring.add connection).length = wiring.length := List.length_modify ..

/-- A connection adds its target to its outlet. -/
theorem targets_add {connection : Connection} (h : connection.source < wiring.length)
    (object outlet : Nat) :
    (wiring.add connection).targets object outlet =
      wiring.targets object outlet ++
        if connection.source = object ∧ connection.outlet = outlet then
          [(connection.target, connection.inlet)]
        else [] := by
  have hobject : (wiring.add connection).getD object [] =
      if connection.source = object then
        extend (wiring.getD object []) connection.outlet (connection.target, connection.inlet)
      else wiring.getD object [] := by
    simp only [add, List.getD_eq_getElem?_getD, List.getElem?_modify]
    by_cases heq : connection.source = object
    · subst heq
      simp [h]
    · simp [heq]
  rw [targets, hobject, targets]
  by_cases heq : connection.source = object
  · rw [if_pos heq, getD_extend]
    simp [heq]
  · simp [heq]

/-- Connections stand at their outlets in the order in which they were added. -/
theorem targets_foldl_add (connections : List Connection)
    (h : ∀ connection ∈ connections, connection.source < wiring.length) (object outlet : Nat) :
    (connections.foldl add wiring).targets object outlet =
      wiring.targets object outlet ++
        (connections.filter fun connection =>
            decide (connection.source = object ∧ connection.outlet = outlet)).map
          fun connection => (connection.target, connection.inlet) := by
  induction connections generalizing wiring with
  | nil => simp
  | cons connection rest ih =>
    have hfirst := h connection List.mem_cons_self
    have hrest : ∀ other ∈ rest, other.source < (wiring.add connection).length := by
      intro other hother
      rw [length_add]
      exact h other (List.mem_cons_of_mem connection hother)
    rw [List.foldl_cons, ih hrest, targets_add hfirst, List.filter_cons]
    by_cases heq : connection.source = object ∧ connection.outlet = outlet <;> simp [heq]

theorem targets_blank (size object outlet : Nat) : (blank size).targets object outlet = [] := by
  simp only [targets, blank, List.getD_eq_getElem?_getD, List.getElem?_replicate]
  split <;> rfl

end Wiring

/-! ## Reading a patch -/

/-- The diagnostic of a record that is refused for its objects. -/
def Record.lateReport? (name : String) (count : Nat) (record : Record) : Option String :=
  if record.isConnect && record.hasPorts && !record.joins count then
    some (missingObject name record.line record.connection)
  else none

/-- The diagnostic of a connection that is refused, for whatever reason. -/
def Record.refusal? (name : String) (count : Nat) (record : Record) : Option String :=
  if record.isConnect && !record.joins count then some (record.refusal name) else none

/-- Both readings together report what could not be created and what was refused. -/
theorem Canvas.reports_eq (canvas : Canvas) (count : Nat) (record : Record) :
    (canvas.earlyReport? record).toList ++ (record.lateReport? canvas.name count).toList =
      (canvas.creationFailure? record).toList ++ (record.refusal? canvas.name count).toList := by
  cases hconnect : record.isConnect with
  | false => simp [earlyReport?, Record.lateReport?, Record.refusal?, hconnect]
  | true =>
    have hcreated : canvas.creationFailure? record = none := by
      simp only [Record.isConnect, Bool.and_eq_true, beq_iff_eq] at hconnect
      simp [creationFailure?, hconnect]
    by_cases hports : record.hasPorts
    · by_cases hjoins : record.joins count
      · simp [earlyReport?, Record.lateReport?, Record.refusal?, hconnect, hcreated, hports, hjoins]
      · simp [earlyReport?, Record.lateReport?, Record.refusal?, Record.refusal, hconnect, hcreated,
          hports, hjoins]
    · have hjoins : record.joins count = false := by simp [Record.joins, hports]
      simp [earlyReport?, Record.lateReport?, Record.refusal?, Record.refusal, hconnect, hcreated,
        hports, hjoins]

theorem Canvas.reports_perm (canvas : Canvas) (count : Nat) (records : List Record) :
    (records.filterMap canvas.earlyReport? ++
        records.filterMap (Record.lateReport? canvas.name count)).Perm
      (records.filterMap canvas.creationFailure? ++
        records.filterMap (Record.refusal? canvas.name count)) := by
  simp only [List.filterMap_eq_flatMap_toList]
  refine (List.flatMap_append_perm records _ _).trans ?_
  simp only [canvas.reports_eq count]
  exact (List.flatMap_append_perm records _ _).symm

/-- The connections that fit are those of the records that join two objects. -/
theorem map_filter_asked? (count : Nat) (records : List Record) :
    ((records.filterMap PatchReader.asked?).filter fun entry => entry.2.fits count).map Prod.snd =
      ((records.filter Record.isConnect).filter (Record.joins count)).map Record.connection := by
  induction records with
  | nil => rfl
  | cons record rest ih =>
    by_cases hconnect : record.isConnect
    · by_cases hports : record.hasPorts
      · have hfits := record.joins_eq hports count
        by_cases hjoins : record.joins count
        · rw [hjoins] at hfits
          simp [PatchReader.asked?, hconnect, hports, hjoins, ← hfits, ih]
        · rw [Bool.not_eq_true _ |>.mp hjoins] at hfits
          simp [PatchReader.asked?, hconnect, hports, hjoins, ← hfits, ih]
      · have hjoins : record.joins count = false := by simp [Record.joins, hports]
        simp [PatchReader.asked?, hconnect, hports, hjoins, ih]
    · simp [PatchReader.asked?, hconnect, ih]

/-- The connections that do not fit are reported. -/
theorem map_missingObject_asked? (name : String) (count : Nat) (records : List Record) :
    ((records.filterMap PatchReader.asked?).filter fun entry => !entry.2.fits count).map
        (fun entry => missingObject name entry.1 entry.2) =
      records.filterMap (Record.lateReport? name count) := by
  induction records with
  | nil => rfl
  | cons record rest ih =>
    by_cases hconnect : record.isConnect
    · by_cases hports : record.hasPorts
      · have hfits := record.joins_eq hports count
        by_cases hjoins : record.joins count
        · rw [hjoins] at hfits
          simp [PatchReader.asked?, Record.lateReport?, hconnect, hports, hjoins, ← hfits, ih]
        · rw [Bool.not_eq_true _ |>.mp hjoins] at hfits
          simp [PatchReader.asked?, Record.lateReport?, hconnect, hports, hjoins, ← hfits, ih]
      · simp [PatchReader.asked?, Record.lateReport?, hconnect, hports, ih]
    · simp [PatchReader.asked?, Record.lateReport?, hconnect, ih]

theorem filterMap_refusal? (name : String) (count : Nat) (records : List Record) :
    records.filterMap (Record.refusal? name count) =
      ((records.filter Record.isConnect).filter fun record => !record.joins count).map
        (Record.refusal name) := by
  induction records with
  | nil => rfl
  | cons record rest ih =>
    by_cases hconnect : record.isConnect
    · by_cases hjoins : record.joins count <;> simp [Record.refusal?, hconnect, hjoins, ih]
    · simp [Record.refusal?, hconnect, ih]

section
variable (canvas : Canvas) (count : Nat) (records : List Record)

/-- The connections that are left once those that do not fit have been taken out. -/
theorem connections_foldl_step :
    (((records.foldl (PatchReader.step canvas) {}).pending.filter fun entry =>
        entry.2.fits count).map Prod.snd) =
      (((outerRecords 0 records).filter Record.isConnect).filter (Record.joins count)).map
        Record.connection := by
  obtain ⟨hpending, -⟩ := PatchReader.foldl_step_adds canvas records {}
  rw [hpending, ← map_filter_asked?]
  rfl

/-- The diagnostics of both readings, by what they are about. -/
theorem diagnostics_foldl_step :
    ((records.foldl (PatchReader.step canvas) {}).diagnostics ++
        ((records.foldl (PatchReader.step canvas) {}).pending.filter fun entry =>
          !entry.2.fits count).map fun entry => missingObject canvas.name entry.1 entry.2).Perm
      ((outerRecords 0 records).filterMap canvas.creationFailure? ++
        (((outerRecords 0 records).filter Record.isConnect).filter fun record =>
          !record.joins count).map (Record.refusal canvas.name)) := by
  obtain ⟨hpending, hdiagnostics⟩ := PatchReader.foldl_step_adds canvas records {}
  have hperm := canvas.reports_perm count (outerRecords 0 records)
  rw [← map_missingObject_asked?, filterMap_refusal?] at hperm
  rw [hpending, hdiagnostics]
  exact hperm

end

/-- The diagnostic of a connection with a missing end names a line. -/
theorem exists_missingObject_eq (name : String) (connection : Connection) :
    ∃ before after, ∀ line : Nat,
      missingObject name line connection = before ++ ("line " ++ toString line) ++ after := by
  obtain ⟨source, outlet, target, inlet⟩ := connection
  refine ⟨name ++ ": connection " ++ toString source ++ " " ++ toString outlet ++ " " ++
    toString target ++ " " ++ toString inlet ++ " (", ") refers to a missing object", ?_⟩
  intro line
  have hopening : (" (line " : String) = " (" ++ "line " := rfl
  have hending : (") refers to a missing object" : String) =
    ") " ++ "refers to a missing object" := rfl
  simp only [missingObject, hopening, hending, String.append_assoc]
  rfl

/-- The diagnostic of a record that is refused for its fields names a line. -/
theorem exists_badFields_eq (name : String) :
    ∃ before after, ∀ record : Record,
      record.badFields name = before ++ ("line " ++ toString record.line) ++ after := by
  refine ⟨name ++ ": connection on ", " has an invalid object or port index", ?_⟩
  intro record
  have hopening : (": connection on line " : String) = ": connection on " ++ "line " := rfl
  simp only [Record.badFields, hopening, String.append_assoc]
  rfl

/-- A diagnostic of a refused record names its line. -/
theorem Record.refusal_line (name : String) (record : Record) :
    ∃ before after, record.refusal name = before ++ ("line " ++ toString record.line) ++ after := by
  unfold refusal
  split
  · obtain ⟨before, after, h⟩ := exists_missingObject_eq name record.connection
    exact ⟨before, after, h record.line⟩
  · obtain ⟨before, after, h⟩ := exists_badFields_eq name
    exact ⟨before, after, h record⟩

/-- What becomes of the connections that a patch text asks for. -/
structure Patch.Connects (patch : Patch) (diagnostics : List String) (text : String) : Prop where
  /-- The connections of the patch are those between two of its objects, in order. -/
  connections_eq : patch.connections =
    ((connectRecords text).filter (Record.joins patch.objects.length)).map Record.connection
  /-- The targets of an outlet are those of its connections, in order. -/
  targets_eq : ∀ object outlet, patch.wiring.targets object outlet =
    (patch.connections.filter fun connection =>
        decide (connection.source = object ∧ connection.outlet = outlet)).map
      fun connection => (connection.target, connection.inlet)
  /-- Each of the other records is refused with one diagnostic. Nothing else is reported but
  objects that could not be created. -/
  diagnostics_perm : diagnostics.Perm
    (patch.creationFailures text ++
      ((connectRecords text).filter fun record => !record.joins patch.objects.length).map
        (Record.refusal patch.name))
  /-- The diagnostic of a refused record names the line of the record. -/
  lines : ∀ record ∈ connectRecords text, record.joins patch.objects.length = false →
    ∃ before after,
      record.refusal patch.name = before ++ ("line " ++ toString record.line) ++ after
  /-- No record is lost. -/
  length_eq : (connectRecords text).length + (patch.creationFailures text).length =
    patch.connections.length + diagnostics.length

/-- Records that are connections or are refused are not lost. -/
theorem Patch.length_eq_of_perm {patch : Patch} {diagnostics : List String} {text : String}
    (hconnections : patch.connections =
      ((connectRecords text).filter (Record.joins patch.objects.length)).map Record.connection)
    (hperm : diagnostics.Perm
      (patch.creationFailures text ++
        ((connectRecords text).filter fun record => !record.joins patch.objects.length).map
          (Record.refusal patch.name))) :
    (connectRecords text).length + (patch.creationFailures text).length =
      patch.connections.length + diagnostics.length := by
  have hsplit := List.length_eq_length_filter_add (l := connectRecords text)
    (Record.joins patch.objects.length)
  rw [hperm.length_eq, hconnections, List.length_append, List.length_map, List.length_map]
  omega

/-- What is reported about a patch text: objects that could not be created, and refused
connections. -/
theorem diagnostics_perm_of_readPatch {name path text : String} {dollarZero : Int32}
    {patch : Patch} {diagnostics : List String}
    (h : readPatch name path text dollarZero = .ok (patch, diagnostics)) :
    diagnostics.Perm
      (patch.creationFailures text ++
        ((connectRecords text).filter fun record => !record.joins patch.objects.length).map
          (Record.refusal patch.name)) := by
  unfold readPatch at h
  split at h
  · cases h
  · rename_i header records hrecords
    split at h
    · cases h
    · cases h
      have houter : outerRecordsOf text = outerRecords 0 records := by
        rw [outerRecordsOf, hrecords, List.tail_cons]
      rw [Patch.creationFailures, connectRecords, houter]
      exact diagnostics_foldl_step _ _ records

/-- Whatever text is accepted as a patch, its connections are accounted for. -/
theorem connects_of_readPatch {name path text : String} {dollarZero : Int32} {patch : Patch}
    {diagnostics : List String}
    (h : readPatch name path text dollarZero = .ok (patch, diagnostics)) :
    patch.Connects diagnostics text := by
  have hperm := diagnostics_perm_of_readPatch h
  unfold readPatch at h
  split at h
  · cases h
  · rename_i header records hrecords
    split at h
    · cases h
    · cases h
      let canvas : Canvas :=
        { name, dollarZero, fontSize := if header.int 6 = 0 then 10 else header.int 6 }
      let count := (records.foldl (PatchReader.step canvas) {}).objects.length
      have houter : outerRecordsOf text = outerRecords 0 records := by
        rw [outerRecordsOf, hrecords, List.tail_cons]
      have hconnections := connections_foldl_step canvas count records
      rw [← houter, ← connectRecords] at hconnections
      refine ⟨hconnections, ?_, hperm, fun record _ _ => record.refusal_line name, ?_⟩
      · intro object outlet
        have hsources : ∀ connection ∈ ((connectRecords text).filter (Record.joins count)).map
            Record.connection, connection.source < (Wiring.blank count).length := by
          intro connection hconnection
          obtain ⟨record, hrecord, rfl⟩ := List.mem_map.mp hconnection
          have hjoins := (List.mem_filter.mp hrecord).2
          simp only [Record.joins, Record.hasPorts, Bool.and_eq_true, decide_eq_true_eq] at hjoins
          simp only [Wiring.blank, List.length_replicate, Record.connection]
          omega
        rw [← hconnections] at hsources
        have htargets := Wiring.targets_foldl_add _ hsources object outlet
        rwa [Wiring.targets_blank, List.nil_append] at htargets
      · exact Patch.length_eq_of_perm hconnections hperm

/-- A text with a forward reference, a connection made twice, one inside a nested canvas, and
three that are refused. -/
def tangled : String :=
  "#N canvas 0 0 9 9 10;\n#X connect 0 0 1 3;\n#X obj 0 0 r a;\n#N canvas 0 0 9 9 in 0;\n" ++
    "#X connect 0 0 0 0;\n#X restore 0 0 pd in;\n#X connect 0 0 1 3;#X connect 0 -1 1 0;\n" ++
    "#X obj 0 0 nothing;\n#X connect 2 1024 1 0;\n#X connect 2 0 3 0;\n"

/-- What is reported about `tangled`. -/
def tangledReports : List String :=
  ["t.pd: connection on line 7 has an invalid object or port index",
    "nothing\n... couldn't create",
    "t.pd: connection on line 9 has an invalid object or port index",
    "t.pd: connection 2 0 3 0 (line 10) refers to a missing object"]

theorem connects_of_readPatch_tangled :
    ∃ patch, readPatch "t.pd" "/t.pd" tangled 1000 = .ok (patch, tangledReports) ∧
      patch.connections = [⟨0, 0, 1, 3⟩, ⟨0, 0, 1, 3⟩] ∧
      patch.wiring.targets 0 0 = [(1, 3), (1, 3)] ∧ patch.Connects tangledReports tangled := by
  have hseen : ((readPatch "t.pd" "/t.pd" tangled 1000).toOption.map fun done =>
      (done.1.connections, done.1.wiring.targets 0 0, done.2)) =
      some ([⟨0, 0, 1, 3⟩, ⟨0, 0, 1, 3⟩], [(1, 3), (1, 3)], tangledReports) := by
    have htext : tangled = String.ofList _ := append_eq_ofList (append_eq_ofList rfl rfl) rfl
    rw [htext, readPatch, readRecords_ofList]
    decide +kernel
  cases hdone : readPatch "t.pd" "/t.pd" tangled 1000 with
  | error failure =>
    rw [hdone] at hseen
    cases hseen
  | ok done =>
    obtain ⟨patch, diagnostics⟩ := done
    rw [hdone] at hseen
    simp only [Except.toOption, Option.map_some, Option.some.injEq, Prod.mk.injEq] at hseen
    obtain ⟨hconnections, htargets, rfl⟩ := hseen
    exact ⟨patch, rfl, hconnections, htargets, connects_of_readPatch hdone⟩

end Patchbay
