import Mathlib.Data.List.DropRight
import Patchbay.Config.Settings
import Patchbay.Proofs.BlockTexts
import Patchbay.Proofs.Expansion

/-!
# The text of settings

Settings are read off the text that they are written as. No text among them may break a line,
and their numbers have to fit their kinds; apart from that they may be anything, and there may
be any number of search paths and patches.

The text is cut into the lines that it was put together from. A key is read with what stands
behind its colon or on the lines below it, and what follows it is the line of the next key or
the end of the text.
-/

namespace Patchbay
open Yaml

/-! ## Numbers -/

namespace Yaml

/-- A number has no zeros before its digits. -/
theorem head?_toDigits_ne {n : Nat} (hn : n ≠ 0) : (Nat.toDigits 10 n).head? ≠ some '0' := by
  induction n using Nat.strongRecOn with
  | ind n ih =>
    rw [Nat.toDigits_eq_if (by decide)]
    by_cases hsmall : n < 10
    · have hall : ∀ digit : Fin 10, digit.val ≠ 0 → digit.val.digitChar ≠ '0' := by decide
      simpa [hsmall] using hall ⟨n, hsmall⟩ hn
    · rw [if_neg hsmall, List.head?_append_of_ne_nil _ Nat.toDigits_ne_nil]
      exact ih (n / 10) (by omega) (by omega)

theorem digitIn?_digitChar {digit : Nat} (h : digit < 10) :
    digitIn? 10 digit.digitChar = some digit := by
  have hall : ∀ digit : Fin 10, digitIn? 10 digit.val.digitChar = some digit.val := by decide
  exact hall ⟨digit, h⟩

theorem readBase?_toDigits (n : Nat) : readBase? 10 (Nat.toDigits 10 n) = some n := by
  have hne (m : Nat) : (Nat.toDigits 10 m).isEmpty = false := by
    simp [Nat.toDigits_ne_nil]
  rw [readBase?, hne n, if_neg (by decide)]
  induction n using Nat.strongRecOn with
  | ind n ih =>
    rw [Nat.toDigits_eq_if (by decide)]
    by_cases hsmall : n < 10
    · simp [hsmall, digitIn?_digitChar hsmall]
    · have hlast : n % 10 < 10 := Nat.mod_lt n (by decide)
      rw [if_neg hsmall, List.foldl_append, ih (n / 10) (by omega)]
      simp only [List.foldl_cons, List.foldl_nil, digitIn?_digitChar hlast, Option.some.injEq]
      exact Nat.div_add_mod n 10

/-- The digits of a number name no base, and no zero comes before others. -/
theorem readUnsigned?_toDigits {bound n : Nat} (h : n < bound) :
    readUnsigned? bound (Nat.toDigits 10 n) = some n := by
  have hread : readMagnitude? bound (Nat.toDigits 10 n) false = some n ∧
      hasLeadingZero (Nat.toDigits 10 n) = false ∧ (Nat.toDigits 10 n).head? ≠ some '+' := by
    obtain ⟨c, rest, hchars⟩ :=
      List.exists_cons_of_ne_nil (Nat.toDigits_ne_nil (n := n) (b := 10))
    have hdigit : c.isDigit = true := isDigit_of_mem_toDigits (by rw [hchars]; simp)
    have hminus : c ≠ '-' := by
      rintro rfl
      cases hdigit
    have hplus : c ≠ '+' := by
      rintro rfl
      cases hdigit
    have hvalue := readBase?_toDigits n
    rw [hchars] at hvalue ⊢
    by_cases hn : n = 0
    · subst hn
      obtain ⟨rfl, rfl⟩ := List.cons.inj hchars
      exact ⟨by simp [readMagnitude?, splitBase?, hvalue, h], rfl, by decide⟩
    · have hzero : c ≠ '0' := fun heq => head?_toDigits_ne hn (by rw [hchars, heq]; rfl)
      have hbase : splitBase? (c :: rest) = none := by
        unfold splitBase?
        split <;> simp_all
      have hleading : hasLeadingZero (c :: rest) = false := by
        simp [hasLeadingZero, hminus, hplus, hzero]
      exact ⟨by simp [readMagnitude?, hbase, hvalue, h], hleading, by simpa using hplus⟩
  obtain ⟨hmagnitude, hleading, hplus⟩ := hread
  unfold readUnsigned?
  split
  · rename_i rest heq
    exact absurd (by rw [heq]; rfl) hplus
  · rw [hleading, hmagnitude]

end Yaml

namespace Settings

/-! ## The lines of a settings file -/

/-- The lines of a key with a list of texts. -/
def textLines (key : String) (texts : List String) : List Line :=
  if texts.isEmpty then [keyLine 0 key [' ', '[', ']']]
  else keyLine 0 key [] :: texts.map entryLine

/-- The line of a key with a number. -/
def countLine (key : String) (n : Nat) : Line := keyLine 2 key (' ' :: Nat.toDigits 10 n)

/-- The lines of an audio format. -/
def formatLines (format : AudioFormat) : List Line :=
  [countLine "inputs" format.inputs, countLine "outputs" format.outputs,
    countLine "sample_rate" format.sampleRate, countLine "block_size" format.blockSize]

/-- The lines of a settings file. -/
def lines (settings : Settings) : List Line :=
  textLines "search_paths" settings.searchPaths ++
    (keyLine 0 "dsp" [] :: (formatLines settings.format ++
      textLines "patches" settings.patches))

/-- Lines with a line break after each. -/
def endLines (lines : List Line) : List Char := lines.flatMap fun line => line.chars ++ ['\n']

theorem endLines_append (first second : List Line) :
    endLines (first ++ second) = endLines first ++ endLines second :=
  List.flatMap_append

/-- Behind the last line break stands an empty line. -/
theorem joinLines_append_empty (lines : List Line) :
    joinLines (lines ++ [⟨0, []⟩]) = '\n' :: endLines lines := by
  induction lines with
  | nil => rfl
  | cons line rest ih =>
    rw [List.cons_append, joinLines_cons, ih, endLines, endLines, List.flatMap_cons,
      List.append_assoc]
    rfl

theorem writeTexts_eq (key : String) (texts : List String) :
    writeTexts key texts = endLines (textLines key texts) := by
  cases texts with
  | nil => simp [writeTexts, textLines, endLines, keyLine, Line.chars]
  | cons text texts =>
    have hentry (text : String) : (entryLine text).chars = ['-', ' '] ++ writeScalar text := rfl
    have hkey : (keyLine 0 key []).chars = key.toList ++ [':'] := rfl
    simp [writeTexts, textLines, endLines, List.flatMap_map, hentry, hkey]

theorem writeCount_eq {name : String} (key : String)
    (hname : name.toList = ' ' :: ' ' :: key.toList) (n : Nat) :
    writeCount name n = endLines [countLine key n] := by
  simp [writeCount, hname, endLines, countLine, keyLine, Line.chars, List.replicate]

theorem toList_text (settings : Settings) : settings.text.toList = endLines settings.lines := by
  have hkey : endLines [keyLine 0 "dsp" []] = "dsp:\n".toList := rfl
  rw [text, String.toList_ofList, writeTexts_eq, writeTexts_eq, ← hkey,
    writeCount_eq "inputs" rfl, writeCount_eq "outputs" rfl, writeCount_eq "sample_rate" rfl,
    writeCount_eq "block_size" rfl]
  simp only [← endLines_append]
  simp [lines, formatLines]

/-- A settings file can hold settings: no text breaks a line, and the numbers fit their kinds. -/
structure Storable (settings : Settings) : Prop where
  searchPaths : ∀ text ∈ settings.searchPaths, '\n' ∉ text.toList
  patches : ∀ text ∈ settings.patches, '\n' ∉ text.toList
  inputs : settings.format.inputs < sizeBound
  outputs : settings.format.outputs < sizeBound
  sampleRate : settings.format.sampleRate < Nat.pow 2 32
  blockSize : settings.format.blockSize < sizeBound

theorem keyed_textLines {key : String} (hkey : IsKey key) {texts : List String}
    (htexts : ∀ text ∈ texts, '\n' ∉ text.toList) {rest : List Line} (hnext : KeyNext rest) :
    Keyed (textLines key texts ++ rest) := by
  cases texts with
  | nil =>
    have hline := hkey.isContent 0 [' ', '[', ']'] (List.all_eq_true.mp rfl)
    exact ⟨List.forall_mem_cons.mpr ⟨hline, hnext.isContent⟩, key, _, _, hkey, rfl, rfl⟩
  | cons text texts =>
    have hline := hkey.isContent 0 [] (by simp)
    exact ⟨List.forall_mem_cons.mpr ⟨hline, isContent_entries htexts hnext.isContent⟩,
      key, [], _, hkey, rfl, rfl⟩

theorem isContent_countLine {key : String} (hkey : IsKey key) (n : Nat) :
    (countLine key n).IsContent :=
  hkey.isContent 2 _ (List.forall_mem_cons.mpr ⟨rfl, fun _ hc =>
    isPrintable_of_isDigit (isDigit_of_mem_toDigits hc)⟩)

theorem keyed_formatLines (format : AudioFormat) {rest : List Line} (hnext : KeyNext rest) :
    Keyed (keyLine 0 "dsp" [] :: (formatLines format ++ rest)) := by
  have hkey : IsKey "dsp" := by decide
  refine ⟨?_, "dsp", [], _, hkey, rfl, rfl⟩
  simp only [formatLines, List.forall_mem_cons, List.cons_append, List.nil_append]
  exact ⟨hkey.isContent 0 [] (by simp), isContent_countLine (by decide) _,
    isContent_countLine (by decide) _, isContent_countLine (by decide) _,
    isContent_countLine (by decide) _, hnext.isContent⟩

/-! ## Reading the lines -/

theorem readPairs_skipBlank (fuel column : Nat) (lines : List Line) :
    readPairs fuel column (skipBlank lines) = readPairs fuel column lines := by
  have hskip : skipBlank (skipBlank lines) = skipBlank lines :=
    List.dropWhile_idempotent Line.isBlank lines
  cases fuel with
  | zero => rw [readPairs, readPairs]
  | succ fuel => rw [readPairs, readPairs, hskip]

/-- A key with a list of texts is read as these texts. -/
theorem readPairs_textLines {key : String} (hkey : IsKey key) {texts : List String}
    (htexts : ∀ text ∈ texts, '\n' ∉ text.toList) {rest : List Line} (hnext : KeyNext rest)
    (fuel : Nat) (hfuel : texts.length + 1 < fuel) :
    ∃ items, List.Forall₂ Value.IsText items texts ∧
      readPairs (fuel + 1) 0 (textLines key texts ++ rest) =
        (readPairs fuel 0 rest).map fun (entries, after) =>
          ((.scalar true key, .sequence items) :: entries, after) := by
  cases texts with
  | nil =>
    refine ⟨[], .nil, ?_⟩
    have hvalue : readInline fuel 1 ['[', ']'] rest = some (.sequence [], rest) := by
      obtain ⟨fuel, rfl⟩ : ∃ less, fuel = less + 2 := ⟨fuel - 2, by omega⟩
      have hflow : readFlow (fuel + 2) ('[' :: ']' :: joinLines rest) =
          some (.sequence [], joinLines rest) := by
        simp [readFlow, readFlowItems, skipSpace, isSpacing]
      simp [readInline, hflow, endLine?_joinLines (hnext.ends 0).isCut]
    exact readPairs_inline hkey rfl (by decide) hvalue
  | cons text texts =>
    obtain ⟨items, hitems, hread⟩ := readEntries_texts htexts hnext fuel (by omega)
    refine ⟨items, hitems, ?_⟩
    rw [← readPairs_skipBlank fuel 0 rest]
    exact readPairs_sequence hkey rfl rfl rfl hread

/-- The value of a key with a number. -/
def countValue (n : Nat) : Value := .scalar true (String.ofList (Nat.toDigits 10 n))

theorem readPairs_countLine {key : String} (hkey : IsKey key) (n fuel : Nat) {rest : List Line}
    (hends : Ends 3 rest) :
    readPairs (fuel + 1) 2 (countLine key n :: rest) =
      (readPairs fuel 2 rest).map fun (entries, after) =>
        ((.scalar true key, countValue n) :: entries, after) := by
  have hword := isScalar_word (Nat.toDigits_ne_nil (n := n) (b := 10))
    fun c hc => isWordChar_of_isDigit (isDigit_of_mem_toDigits hc)
  have hvalue := hword.readInline_eq fuel hends
  obtain ⟨c, digits, hchars⟩ := List.exists_cons_of_ne_nil (Nat.toDigits_ne_nil (n := n) (b := 10))
  have hdigit : c.isDigit = true := isDigit_of_mem_toDigits (by rw [hchars]; simp)
  have hspacing : isSpacing c = false := by
    rw [Bool.eq_false_iff]
    intro hblank
    rcases (by simpa [isSpacing] using hblank : c = ' ' ∨ c = '\t') with rfl | rfl <;> cases hdigit
  have hhash : c ≠ '#' := by
    rintro rfl
    cases hdigit
  rw [countLine, countValue]
  rw [hchars] at hvalue ⊢
  exact readPairs_inline hkey hspacing hhash hvalue

/-- What the lines of an audio format are read as. -/
def formatEntries (format : AudioFormat) : List (Value × Value) :=
  [(.scalar true "inputs", countValue format.inputs),
    (.scalar true "outputs", countValue format.outputs),
    (.scalar true "sample_rate", countValue format.sampleRate),
    (.scalar true "block_size", countValue format.blockSize)]

theorem readPairs_formatLines (format : AudioFormat) {rest : List Line} (hnext : KeyNext rest)
    (fuel : Nat) : readPairs (fuel + 5) 2 (formatLines format ++ rest) =
      some (formatEntries format, skipBlank rest) := by
  have hmore {key : String} (hkey : IsKey key) (n : Nat) {lines : List Line}
      (hlines : Ends 3 lines) : Ends 3 (countLine key n :: lines) :=
    .cons (isContent_countLine hkey n).toIsCut (by simp [countLine, keyLine])
      (Nat.lt_succ_self 2) hlines.isCut
  have hinputs : IsKey "inputs" := by decide
  have houtputs : IsKey "outputs" := by decide
  have hrate : IsKey "sample_rate" := by decide
  have hblock : IsKey "block_size" := by decide
  -- What follows each line, from the last to the first.
  have hlast := hnext.ends 2
  have hthird := hmore hblock format.blockSize hlast
  have hsecond := hmore hrate format.sampleRate hthird
  have hfirst := hmore houtputs format.outputs hsecond
  rw [formatLines, List.cons_append, List.cons_append, List.cons_append, List.cons_append,
    List.nil_append, readPairs_countLine hinputs _ _ hfirst,
    readPairs_countLine houtputs _ _ hsecond, readPairs_countLine hrate _ _ hthird,
    readPairs_countLine hblock _ _ hlast, readPairs_of_keyNext hnext (by decide)]
  rfl

/-! ## The settings in a text -/

theorem textsOf?_of_forall₂ {items : List Value} {texts : List String}
    (h : List.Forall₂ Value.IsText items texts) : textsOf? (.sequence items) = some texts := by
  rw [textsOf?]
  induction h with
  | nil => rfl
  | cons htext _ ih =>
    obtain ⟨plain, rfl⟩ := htext
    rw [List.mapM_cons, ih]
    rfl

theorem countOf?_countValue {bound n : Nat} (h : n < bound) :
    countOf? bound (countValue n) = some n := by
  rw [countValue, countOf?, String.toList_ofList, readUnsigned?_toDigits h]

/-- A key that is given once has its value. -/
theorem field?_of_filter {α : Type} {entries : List (String × Value)} {key : String} {value : Value}
    (h : (entries.filter fun entry => entry.1 == key) = [(key, value)])
    (read : Value → Option α) (default : α) : field? entries key read default = read value := by
  rw [field?, h]

theorem formatOf?_formatEntries {settings : Settings} (h : settings.Storable) :
    formatOf? (.mapping (formatEntries settings.format)) = some settings.format := by
  have hentries : entriesOf? (.mapping (formatEntries settings.format)) =
      some [("inputs", countValue settings.format.inputs),
        ("outputs", countValue settings.format.outputs),
        ("sample_rate", countValue settings.format.sampleRate),
        ("block_size", countValue settings.format.blockSize)] := rfl
  rw [formatOf?, hentries]
  simp only [Option.bind_eq_bind, Option.bind_some]
  rw [field?_of_filter rfl, countOf?_countValue h.inputs, Option.bind_some, field?_of_filter rfl,
    countOf?_countValue h.outputs, Option.bind_some, field?_of_filter rfl,
    countOf?_countValue h.sampleRate, Option.bind_some, field?_of_filter rfl,
    countOf?_countValue h.blockSize]
  rfl

/-- The entries of a settings file stand for the settings. -/
theorem ofValue?_entries {settings : Settings} (h : settings.Storable)
    {searchPaths patches : List Value}
    (hsearch : List.Forall₂ Value.IsText searchPaths settings.searchPaths)
    (hpatches : List.Forall₂ Value.IsText patches settings.patches) :
    ofValue? (.mapping
      [(.scalar true "search_paths", .sequence searchPaths),
        (.scalar true "dsp", .mapping (formatEntries settings.format)),
        (.scalar true "patches", .sequence patches)]) = some settings := by
  have hentries : entriesOf? (.mapping
      [(.scalar true "search_paths", .sequence searchPaths),
        (.scalar true "dsp", .mapping (formatEntries settings.format)),
        (.scalar true "patches", .sequence patches)]) =
      some [("search_paths", .sequence searchPaths),
        ("dsp", .mapping (formatEntries settings.format)),
        ("patches", .sequence patches)] := rfl
  rw [ofValue?, hentries]
  simp only [Option.bind_eq_bind, Option.bind_some]
  rw [field?_of_filter rfl, textsOf?_of_forall₂ hsearch, Option.bind_some, field?_of_filter rfl,
    formatOf?_formatEntries h, Option.bind_some, field?_of_filter rfl,
    textsOf?_of_forall₂ hpatches]
  rfl

theorem length_lt_textLines (key : String) (texts : List String) :
    texts.length < (textLines key texts).length := by
  cases texts with
  | nil => simp [textLines]
  | cons text texts => simp [textLines]

/-- There is a character for each line, so the reader has enough fuel for all lines. -/
theorem length_le_endLines (lines : List Line) : lines.length ≤ (endLines lines).length := by
  induction lines with
  | nil => exact Nat.le_refl 0
  | cons line rest ih =>
    rw [endLines, List.flatMap_cons, List.length_append, List.length_append, List.length_cons,
      List.length_singleton]
    rw [endLines] at ih
    omega

/-- The lines of a settings file, from each key on, are lines that begin with a key. -/
theorem keyed_lines {settings : Settings} (h : settings.Storable) :
    Keyed (textLines "patches" settings.patches ++ [⟨0, []⟩]) ∧
      Keyed (keyLine 0 "dsp" [] :: (formatLines settings.format ++
        (textLines "patches" settings.patches ++ [⟨0, []⟩]))) ∧
      Keyed (settings.lines ++ [⟨0, []⟩]) := by
  have hpatches := keyed_textLines (by decide : IsKey "patches") h.patches (.inl rfl)
  have hformat := keyed_formatLines settings.format (.inr hpatches)
  have hsearch := keyed_textLines (by decide : IsKey "search_paths") h.searchPaths (.inr hformat)
  refine ⟨hpatches, hformat, ?_⟩
  simpa only [lines, List.append_assoc, List.cons_append] using hsearch

/-- The lines of a settings file are read as the entries of its settings. -/
theorem readPairs_lines {settings : Settings} (h : settings.Storable) (fuel : Nat)
    (hfuel : settings.lines.length + 8 ≤ fuel) :
    ∃ searchPaths patches, List.Forall₂ Value.IsText searchPaths settings.searchPaths ∧
      List.Forall₂ Value.IsText patches settings.patches ∧
      readPairs fuel 0 (settings.lines ++ [⟨0, []⟩]) =
        some ([(.scalar true "search_paths", .sequence searchPaths),
          (.scalar true "dsp", .mapping (formatEntries settings.format)),
          (.scalar true "patches", .sequence patches)], []) := by
  have hsearchLength := length_lt_textLines "search_paths" settings.searchPaths
  have hpatchesLength := length_lt_textLines "patches" settings.patches
  simp only [lines, List.length_append, List.length_cons] at hfuel
  obtain ⟨fuel, rfl⟩ : ∃ less, fuel = less + 9 := ⟨fuel - 9, by omega⟩
  simp only [lines, List.append_assoc, List.cons_append]
  obtain ⟨hpatchesKeyed, hformatKeyed, -⟩ := keyed_lines h
  have hsearchKey : IsKey "search_paths" := by decide
  have hdspKey : IsKey "dsp" := by decide
  have hinputsKey : IsKey "inputs" := by decide
  have hpatchesKey : IsKey "patches" := by decide
  obtain ⟨searchPaths, hsearch, hfirst⟩ :=
    readPairs_textLines hsearchKey h.searchPaths (.inr hformatKeyed) (fuel + 8) (by omega)
  have hentries := readPairs_formatLines settings.format (.inr hpatchesKeyed) fuel
  have hsecond : readPairs (fuel + 8) 0 (keyLine 0 "dsp" [] :: (formatLines settings.format ++
      (textLines "patches" settings.patches ++ [⟨0, []⟩]))) =
        (readPairs (fuel + 7) 0 (skipBlank (textLines "patches" settings.patches ++
          [⟨0, []⟩]))).map fun (entries, after) =>
            ((.scalar true "dsp", .mapping (formatEntries settings.format)) :: entries, after) :=
    readPairs_mapping hdspKey hinputsKey Nat.zero_lt_two rfl hentries
  obtain ⟨patches, hpatches, hthird⟩ :=
    readPairs_textLines hpatchesKey h.patches (.inl rfl) (fuel + 6) (by omega)
  have hnothing : readPairs (fuel + 6) 0 [⟨0, []⟩] = some ([], []) := by
    rw [readPairs]
    rfl
  refine ⟨searchPaths, patches, hsearch, hpatches, ?_⟩
  rw [hfirst, hsecond, readPairs_skipBlank, hthird, hnothing]
  rfl

/-- Settings are read off their text. -/
theorem parse?_text {settings : Settings} (h : settings.Storable) :
    parse? settings.text = some settings := by
  have hlength : settings.lines.length ≤ settings.text.toList.length := by
    rw [toList_text]
    exact length_le_endLines settings.lines
  have hsome : 0 < settings.lines.length := by
    rw [lines, List.length_append]
    exact Nat.add_pos_left (Nat.zero_lt_of_lt (length_lt_textLines _ _)) _
  obtain ⟨searchPaths, patches, hsearch, hpatches, hentries⟩ :=
    readPairs_lines h (4 * settings.text.toList.length + 6) (by omega)
  have htext := joinLines_append_empty settings.lines
  rw [← toList_text] at htext
  have hdocument := readDocument_of_keyed (keyed_lines h).2.2 htext hentries rfl
  rw [parse?, hdocument, Option.bind_some, ofValue?_entries h hsearch hpatches]

end Settings

end Patchbay
