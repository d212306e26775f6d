import Mathlib.Data.List.Basic
import Patchbay.Proofs.SettingsTexts

/-!
# Settings files

Settings that have been saved are read back from the same path. Whatever way the path takes,
a file is found where it has been written: it is put at a place that was not a directory, so
no other way through the tree changes.
-/

namespace Patchbay

namespace FileTree

theorem entry?_put_self (tree : FileTree) {place : Place} (hplace : place ≠ [])
    (entry : FileEntry) : entry? (tree.put place entry) place = some entry := by
  simp [ entry?, put, hplace]

theorem entry?_put_of_ne (tree : FileTree) {place other : Place} (h : other ≠ place)
    (entry : FileEntry) : entry? (tree.put place entry) other = tree.entry? other := by
  have hother : (other == place) = false := beq_false_of_ne h
  have hlookup (entries : List (Place × FileEntry)) :
      (entries.filter fun old => old.1 != place).lookup other = entries.lookup other := by
    induction entries with
    | nil => rfl
    | cons old entries ih =>
      obtain ⟨key, value⟩ := old
      by_cases hkey : key = place
      · simp [hkey, List.lookup_cons, hother, ih]
      · simp [hkey, List.lookup_cons, ih]
  simp [ entry?, put, List.lookup_cons, hother, hlookup]

/-- A file that is put where no directory is stands in nobody's way. -/
theorem follow_put {tree : FileTree} {place : Place} (hplace : place ≠ [])
    (hfree : tree.isDirectoryAt place = false) (content : FileContent) {start found : Place}
    {names : List String} (h : tree.follow start names = some found) :
    (tree.put place (.file content)).follow start names = some found := by
  have hdirectory {other : Place} (hother : tree.isDirectoryAt other = true) :
      (tree.put place (.file content)).isDirectoryAt other = true := by
    have hne : other ≠ place := by
      rintro rfl
      rw [hfree] at hother
      cases hother
    rw [isDirectoryAt, entry?_put_of_ne tree hne]
    exact hother
  have hpresent {other : Place} (hother : (tree.entry? other).isSome = true) :
      ( entry? (tree.put place (.file content)) other).isSome = true := by
    by_cases heq : other = place
    · rw [heq, entry?_put_self tree hplace]
      rfl
    · rwa [entry?_put_of_ne tree heq]
  induction names generalizing start with
  | nil => exact h
  | cons name names ih =>
    rw [follow] at h ⊢
    split at h
    · cases h
    · rename_i hstart
      have hstart : tree.isDirectoryAt start = true := by simpa using hstart
      rw [hdirectory hstart]
      split at h
      · rename_i htrivial
        simp [htrivial, ih h]
      · rename_i htrivial
        split at h
        · rename_i habove
          simp [habove, ih h]
        · rename_i habove
          split at h
          · rename_i hnext
            simp [htrivial, habove, hpresent hnext, ih h]
          · cases h

theorem follow_append (tree : FileTree) (start : Place) (first second : List String) :
    tree.follow start (first ++ second) =
      (tree.follow start first).bind fun place => tree.follow place second := by
  induction first generalizing start with
  | nil => rfl
  | cons name names ih =>
    rw [List.cons_append, follow, follow]
    split
    · rfl
    · split
      · exact ih start
      · split
        · exact ih _
        · split
          · exact ih _
          · rfl

/-- A file that has been written is found, with the text it was given. -/
theorem find?_of_write? {tree written : FileTree} {path : String} {content : FileContent}
    (h : tree.write? path content = some written) :
    written.find? path = some (.file content) := by
  have hpath : path.isEmpty = false := by
    rw [Bool.eq_false_iff]
    intro hempty
    obtain rfl : path = "" := String.isEmpty_iff.mp hempty
    cases h
  rcases hstart : tree.start path with ⟨start, names⟩
  simp only [write?, hstart] at h
  split at h
  · cases h
  · rename_i name before hreverse
    have hnames : names = before.reverse ++ [name] := by
      rw [← List.reverse_reverse names, hreverse, List.reverse_cons]
    split at h
    · cases h
    · rename_i hname
      split at h
      · rename_i directory hfollow
        split at h
        · rename_i hplace
          obtain rfl := Option.some.inj h
          rw [Bool.and_eq_true, Bool.not_eq_true'] at hplace
          obtain ⟨hdirectory, hfree⟩ := hplace
          have hne : directory ++ [name] ≠ [] := by simp
          have hself := entry?_put_self tree hne (.file content)
          have habove := follow_put hne hfree content hfollow
          have hkept : (tree.put (directory ++ [name]) (.file content)).isDirectoryAt directory =
              true := by
            rw [isDirectoryAt, entry?_put_of_ne tree (by simp)]
            exact hdirectory
          have hlast : (tree.put (directory ++ [name]) (.file content)).follow directory [name] =
              some (directory ++ [name]) := by
            simp only [not_or] at hname
            simp [follow, hkept, hname, hself]
          have hsame : (tree.put (directory ++ [name]) (.file content)).start path =
              (start, names) := hstart
          rw [find?, hpath, hsame]
          simp only [Bool.false_eq_true, ↓reduceIte]
          rw [hnames, follow_append, habove, Option.bind_some, hlast, Option.bind_some, hself]
        · cases h
      · cases h

end FileTree

namespace Settings

/-- Settings that have been saved are read back, and loaded. -/
theorem read_of_save {settings : Settings} (hstorable : settings.Storable)
    {files saved : FileTree} {path : String}
    (h : settings.save files path = (saved, .ok ())) :
    read saved path = .ok (some settings) ∧ load saved path = settings := by
  have hfound : saved.find? path = some (.file (.text settings.text)) := by
    rw [save] at h
    split at h
    · cases h
    · split at h
      · rename_i hwrite
        obtain rfl := (Prod.mk.inj h).1
        exact FileTree.find?_of_write? hwrite
      · cases h
  have hread : read saved path = .ok (some settings) := by
    simp [read, FileTree.isPresent, FileTree.readText?, hfound, parse?_text hstorable]
  exact ⟨hread, by rw [load, hread]⟩

/-- Settings whose texts look like nothing, numbers, truth values and syntax, begin or end with
blanks, or have characters that need an escape, with the largest and smallest numbers. -/
def lookalikes : Settings where
  searchPaths := ["", "null", "1e3", "- a", " b ", "c: d # e", "\x27\x22\\", "é🎛"]
  format :=
    { inputs := 0
      outputs := 18446744073709551615
      sampleRate := 4294967295
      blockSize := 0 }
  patches := ["true", "0x10", "007", "[x]", "f\tg"]

theorem read_of_save_lookalikes :
    ∃ saved, lookalikes.save {} "conf/host.yaml" = (saved, .ok ()) ∧
      read saved "conf/host.yaml" = .ok (some lookalikes) ∧
      load saved "conf/host.yaml" = lookalikes := by
  have hstorable : lookalikes.Storable :=
    ⟨by decide, by decide, by decide, by decide, by decide, by decide⟩
  have hsave : lookalikes.save {} "conf/host.yaml" =
      ((lookalikes.save {} "conf/host.yaml").1, .ok ()) := rfl
  exact ⟨_, hsave, read_of_save hstorable hsave⟩

end Settings

end Patchbay
