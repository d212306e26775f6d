import Patchbay.Proofs.Session

/-!
# Loading a file that is found

Loading is reading the text of a file and opening the patch. What a load comes to is stated here
with the file found already, and with its text taken apart into characters.

## Implementation notes

A closed session is evaluated by the kernel. It goes through the bytes of a text from the start
for each character, but sees at once which characters a literal is made of. A text enters a
session with a load only, so that `Rack.session_of_load` is all that is needed to get by without
the bytes.
-/

namespace Patchbay

/-! ## Files -/

namespace FileTree
variable {tree : FileTree} {path text : String} {place : Place}

/-- An absolute path leads to a place. -/
structure LeadsTo (tree : FileTree) (path : String) (place : Place) : Prop where
  isEmpty_eq : path.isEmpty = false
  isAbsolute : Path.isAbsolute path = true
  follow_eq : tree.follow [] (tree.start path).2 = some place

instance (tree : FileTree) (path : String) (place : Place) : Decidable (tree.LeadsTo path place) :=
  decidable_of_iff (path.isEmpty = false ∧ Path.isAbsolute path = true ∧
      tree.follow [] (tree.start path).2 = some place)
    ⟨fun h => ⟨h.1, h.2.1, h.2.2⟩, fun h => ⟨h.isEmpty_eq, h.isAbsolute, h.follow_eq⟩⟩

theorem LeadsTo.find?_eq (h : tree.LeadsTo path place) : tree.find? path = tree.entry? place := by
  have hstart : (tree.start path).1 = [] := if_pos h.isAbsolute
  simp only [find?, h.isEmpty_eq, hstart, h.follow_eq, Bool.false_eq_true, if_false,
    Option.bind_some]

theorem LeadsTo.readText?_eq (h : tree.LeadsTo path place)
    (hentry : tree.entry? place = some (.file (.text text))) :
    tree.readText? path = some text := by
  simp only [readText?, h.find?_eq, hentry]

/-- An absolute path of a file is taken as it is. -/
theorem LeadsTo.resolve?_eq (h : tree.LeadsTo path place)
    (hentry : tree.entry? place = some (.file (.text text))) (searchPath : SearchPath)
    (directory : String) : searchPath.resolve? tree path directory = some path := by
  simp only [SearchPath.resolve?, h.isAbsolute, isFile, h.find?_eq, hentry, if_true]

end FileTree

/-! ## Loads -/

/-- The environment after a number has been used up. -/
def Environment.numbered (environment : Environment) : Environment :=
  { environment with nextDollarZero := environment.nextDollarZero + 1 }

/-- Open the patch that was read from a file, if one was. -/
def Instance.openRead (inst : Instance) (name path : String)
    (read : Except Failure (Patch × List String)) : Outcome Instance PatchId :=
  match read with
  | .error failure => { state := inst, result := .error failure }
  | .ok (patch, diagnostics) =>
    let (inst, calls, id) := inst.openPatch patch diagnostics
    let dollarZero := patch.dollarZero
    { state := inst
      calls := calls ++
        [inst.logLine .info s!"opened patch {name} ($0={dollarZero}) from {path}"]
      result := .ok id }

/-- Loading a file that is found is reading its text and opening the patch. -/
theorem Instance.load_of_leadsTo {environment : Environment} (place : Place) {path text : String}
    {chars : List Char} (hentry : environment.files.entry? place = some (.file (.text text)))
    (htext : text = String.ofList chars) (hleads : environment.files.LeadsTo path place)
    (inst : Instance) (directory : String) :
    inst.load environment path directory =
      (inst.openRead path path (readPatch ((Path.fileName? path).getD "") path
        (String.ofList chars) environment.nextDollarZero)).within environment.numbered := by
  subst htext
  simp only [load, hleads.resolve?_eq hentry, Environment.readPatchFile,
    hleads.readText?_eq hentry]
  cases readPatch ((Path.fileName? path).getD "") path (String.ofList chars)
    environment.nextDollarZero <;> rfl

/-- A session up to a load, the load, and what comes after it. -/
theorem Rack.session_of_load {rack before : Rack} (actions : List HostAction) (count : Nat)
    (place : Place) {position : Nat} {path text : String} {chars : List Char}
    (hbefore : rack.session (actions.take count) = some before)
    (hload : actions[count]? = some (.request position (.load path "")))
    (hentry : before.environment.files.entry? place = some (.file (.text text)))
    (htext : text = String.ofList chars) (hleads : before.environment.files.LeadsTo path place) :
    rack.session actions =
      ({ before with environment := before.environment.numbered }.runAlone position fun inst =>
        inst.openRead path path (readPatch ((Path.fileName? path).getD "") path
          (String.ofList chars) before.environment.nextDollarZero)).bind
        fun done => done.state.session (actions.drop (count + 1)) := by
  obtain ⟨hlt, hget⟩ := List.getElem?_eq_some_iff.mp hload
  have hactions : actions.take count ++
      .request position (.load path "") :: actions.drop (count + 1) = actions := by
    rw [← hget, ← List.drop_eq_getElem_cons hlt, List.take_append_drop]
  conv_lhs => rw [← hactions, session_append, hbefore, Option.bind_some]
  simp only [session, act, runAlone, run, instance?, Instance.serve,
    Instance.load_of_leadsTo place hentry htext hleads, Option.bind_map]
  rfl

end Patchbay
