import Mathlib.Data.List.TakeWhile
import Patchbay.Config.BlockReader
import Patchbay.Proofs.ScalarTexts

/-!
# Documents of keys and entries

Lines that are joined with line breaks are cut into the same lines again. From such lines the
reader takes a key with a scalar behind its colon, with a sequence of texts below it in the
same column, or with a mapping below it further to the right. A document is the mapping of
the keys in its first column.

What is read as the value of a key depends on the line that follows. It goes back to a column
before the value, or the text ends, so nothing goes on with the value.
-/

namespace Patchbay.Yaml

/-! ## Lines -/

/-- A line holds characters that can be written as themselves, and its blanks are counted. -/
structure Line.IsCut (line : Line) : Prop where
  isPrintable : ∀ c ∈ line.content, isPrintable c = true
  head_ne_space : line.content.head? ≠ some ' '

/-- A line does not begin like the mark of a document. -/
def Line.Unmarked (line : Line) : Prop :=
  line.content.take 3 ≠ ['-', '-', '-'] ∧ line.content.take 3 ≠ ['.', '.', '.']

/-- A line may stand anywhere in a document. -/
structure Line.IsContent (line : Line) : Prop extends line.IsCut where
  unmarked : line.Unmarked

theorem isContent_empty : Line.IsContent ⟨0, []⟩ where
  isPrintable := by simp
  head_ne_space := by simp
  unmarked := by simp [Line.Unmarked]

/-- The characters of a line. -/
def Line.chars (line : Line) : List Char := List.replicate line.indent ' ' ++ line.content

theorem joinLines_cons (line : Line) (rest : List Line) :
    joinLines (line :: rest) = '\n' :: (line.chars ++ joinLines rest) := rfl

theorem Line.IsCut.newline_not_mem {line : Line} (h : line.IsCut) : '\n' ∉ line.chars := by
  rw [Line.chars, List.mem_append, not_or]
  refine ⟨fun hmem => ?_, fun hmem => ne_newline_of_isPrintable (h.isPrintable _ hmem) rfl⟩
  exact absurd (List.eq_of_mem_replicate hmem) (by decide)

theorem Line.IsCut.ofChars_chars {line : Line} (h : line.IsCut) : ofChars line.chars = line := by
  have hspaces : ∀ c ∈ List.replicate line.indent ' ', (c == ' ') = true :=
    fun c hc => beq_iff_eq.mpr (List.eq_of_mem_replicate hc)
  have htake : line.content.takeWhile (· == ' ') = [] := by
    cases hcontent : line.content with
    | nil => rfl
    | cons c rest =>
      have hc : c ≠ ' ' := fun heq => h.head_ne_space (by rw [hcontent, heq]; rfl)
      simp [hc]
  have hdrop : line.content.dropWhile (· == ' ') = line.content := by
    have hparts := List.takeWhile_append_dropWhile (p := (· == ' ')) (l := line.content)
    rwa [htake] at hparts
  rw [ofChars, chars, List.takeWhile_append_of_pos hspaces, List.dropWhile_append_of_pos hspaces,
    htake, hdrop]
  simp

/-- Lines that have been joined are cut again into the same lines. -/
theorem exists_joinLines {lines : List Line} (hne : lines ≠ [])
    (hcut : ∀ line ∈ lines, line.IsCut) :
    ∃ text, joinLines lines = '\n' :: text ∧ splitLines text = lines := by
  induction lines with
  | nil => exact absurd rfl hne
  | cons line rest ih =>
    obtain ⟨hline, hrest⟩ := List.forall_mem_cons.mp hcut
    refine ⟨_, joinLines_cons line rest, ?_⟩
    by_cases hlast : rest = []
    · subst hlast
      simp [splitLines, joinLines, List.splitOn_eq_singleton hline.newline_not_mem,
        hline.ofChars_chars]
    · obtain ⟨text, htext, hsplit⟩ := ih hlast hrest
      rw [htext, splitLines,
        List.splitOn_append_cons_self_of_not_mem hline.newline_not_mem, List.map_cons,
        hline.ofChars_chars]
      rw [splitLines] at hsplit
      rw [hsplit]

theorem endLine?_joinLines {rest : List Line} (hcut : ∀ line ∈ rest, line.IsCut) :
    endLine? (joinLines rest) = some rest := by
  by_cases hlast : rest = []
  · subst hlast
    rfl
  · obtain ⟨text, htext, hsplit⟩ := exists_joinLines hlast hcut
    rw [htext, endLine?]
    simp [onlyComment, hsplit]

theorem head?_joinLines_ne (rest : List Line) : (joinLines rest).head? ≠ some singleQuote := by
  cases rest with
  | nil => simp [joinLines]
  | cons line rest =>
    rw [joinLines_cons]
    exact fun heq => absurd (Option.some.inj heq) (by decide)

/-- What follows a value goes back to a column before it, or is the end of the text. -/
structure Ends (least : Nat) (rest : List Line) : Prop where
  isCut : ∀ line ∈ rest, line.IsCut
  goesBack : rest = [⟨0, []⟩] ∨
    ∃ line more, rest = line :: more ∧ line.content ≠ [] ∧ line.indent < least

theorem Ends.cons {least : Nat} {line : Line} {rest : List Line} (hline : line.IsCut)
    (hcontent : line.content ≠ []) (hindent : line.indent < least)
    (hrest : ∀ line ∈ rest, line.IsCut) : Ends least (line :: rest) :=
  ⟨List.forall_mem_cons.mpr ⟨hline, hrest⟩, .inr ⟨line, rest, rfl, hcontent, hindent⟩⟩

theorem Ends.continuePlain_eq {least : Nat} {rest : List Line} (h : Ends least rest) :
    continuePlain least 1 rest = some ([], rest) := by
  rcases h.goesBack with rfl | ⟨line, more, rfl, hcontent, hindent⟩
  · rfl
  · simp [continuePlain, hcontent, hindent]

/-! ## Words -/

/-- Letters, digits and the underscore mean nothing to the reader. -/
def isWordChar (c : Char) : Bool := c.isAlphanum || c == '_'

theorem not_mem_of_isWordChar {c : Char} (h : isWordChar c = true) :
    c ∉ ['\n', ' ', '\t', ':', '-', '?'] ++ startIndicators := by
  have hall : (['\n', ' ', '\t', ':', '-', '?'] ++ startIndicators).any isWordChar = false := rfl
  intro hmem
  exact List.any_eq_false.mp hall c hmem h

theorem startsPlain_of_isWordChar {c : Char} (h : isWordChar c = true) (rest : List Char) :
    startsPlain (c :: rest) = true := by
  have hmem := not_mem_of_isWordChar h
  simp only [List.mem_append, List.mem_cons, List.not_mem_nil, or_false, not_or] at hmem
  obtain ⟨⟨hbreak, hspace, htab, hcolon, hdash, hquestion⟩, hindicator⟩ := hmem
  simp [startsPlain, isSpacing, hbreak, hspace, htab, hcolon, hdash, hquestion, hindicator]

theorem isWordChar_of_isDigit {c : Char} (h : c.isDigit = true) : isWordChar c = true := by
  simp [isWordChar, Char.isAlphanum, h]

theorem isPrintable_of_isWordChar {c : Char} (h : isWordChar c = true) : isPrintable c = true := by
  have hkinds : (((c.isUpper || c.isLower) || c.isDigit) || c == '_') = true := h
  simp only [Bool.or_eq_true, beq_iff_eq] at hkinds
  rcases hkinds with ((hupper | hlower) | hdigit) | rfl
  · exact isPrintable_of_le 'A' 'Z' (by decide) (by decide) (of_decide_eq_true hupper)
  · have hbounds := (Bool.and_eq_true_iff.mp hlower).imp of_decide_eq_true of_decide_eq_true
    exact isPrintable_of_le 'a' 'z' (by decide) (by decide) hbounds
  · exact isPrintable_of_isDigit hdigit
  · rfl

/-- A word is read up to where a plain scalar ends. -/
theorem scanPlain_word {word rest : List Char} (hword : ∀ c ∈ word, isWordChar c = true)
    (hrest : scanPlain false [] 0 rest = ([], rest)) :
    scanPlain false [] 0 (word ++ rest) = (word, rest) := by
  induction word with
  | nil => exact hrest
  | cons c word ih =>
    obtain ⟨hc, hword⟩ := List.forall_mem_cons.mp hword
    have hmem := not_mem_of_isWordChar hc
    simp only [List.mem_append, List.mem_cons, List.not_mem_nil, or_false, not_or] at hmem
    obtain ⟨⟨hbreak, hspace, htab, hcolon, -, -⟩, -⟩ := hmem
    rw [List.cons_append, scanPlain]
    simp [hbreak, isSpacing, hspace, htab, endsPlain, hcolon, ih hword, foldGap]

theorem isScalar_word {word : List Char} (hne : word ≠ [])
    (hword : ∀ c ∈ word, isWordChar c = true) : IsScalar true word word := by
  obtain ⟨c, rest, rfl⟩ := List.exists_cons_of_ne_nil hne
  refine .plain (startsPlain_of_isWordChar (hword c List.mem_cons_self) rest) ?_
  have hscan : scanPlain false [] 0 (c :: rest ++ []) = (c :: rest, []) := scanPlain_word hword rfl
  rwa [List.append_nil] at hscan

theorem not_mem_of_startsPlain {c : Char} {rest : List Char}
    (h : startsPlain (c :: rest) = true) : c ∉ startIndicators := by
  simp only [startsPlain, Bool.and_eq_true, Bool.not_eq_true'] at h
  simpa using h.1.1.1

theorem startsQuoted_of_startsPlain {content : List Char} (h : startsPlain content = true) :
    startsQuoted content = false := by
  cases content with
  | nil => rfl
  | cons c rest =>
    have hsingle : c ≠ singleQuote := fun heq => not_mem_of_startsPlain h (heq ▸ by decide)
    have hdouble : c ≠ doubleQuote := fun heq => not_mem_of_startsPlain h (heq ▸ by decide)
    simp [startsQuoted, hsingle, hdouble]

theorem startsEntry_of_startsPlain {content : List Char} (h : startsPlain content = true) :
    startsEntry content = false := by
  unfold startsEntry
  split
  · simp only [startsPlain, Bool.and_eq_true, Bool.not_eq_true'] at h
    simpa using h.2
  · rfl

theorem isBlank_of_startsPlain {content : List Char} (h : startsPlain content = true)
    (indent : Nat) : (Line.mk indent content).isBlank = false := by
  cases content with
  | nil => cases h
  | cons c rest =>
    have hhash : c ≠ '#' := fun heq => not_mem_of_startsPlain h (heq ▸ by decide)
    simp [Line.isBlank, hhash]

theorem exists_quote {content : List Char} (h : startsQuoted content = true) :
    ∃ c rest, content = c :: rest ∧ (c = singleQuote ∨ c = doubleQuote) := by
  cases content with
  | nil => cases h
  | cons c rest => exact ⟨c, rest, rfl, by simpa [startsQuoted] using h⟩

/-! ## Keys -/

/-- A text is a key that is written as it stands. -/
structure IsKey (key : String) : Prop where
  ne_nil : key.toList ≠ []
  isWordChar : ∀ c ∈ key.toList, isWordChar c = true

instance (key : String) : Decidable (IsKey key) :=
  decidable_of_iff (key.toList ≠ [] ∧ key.toList.all isWordChar = true)
    ⟨fun h => ⟨h.1, List.all_eq_true.mp h.2⟩,
      fun h => ⟨h.ne_nil, List.all_eq_true.mpr h.isWordChar⟩⟩

/-- The line of a key in a column, with what follows the colon. -/
def keyLine (column : Nat) (key : String) (after : List Char) : Line :=
  { indent := column, content := key.toList ++ ':' :: after }

theorem IsKey.startsPlain_eq {key : String} (h : IsKey key) (column : Nat) (after : List Char) :
    startsPlain (keyLine column key after).content = true := by
  obtain ⟨c, rest, hchars⟩ := List.exists_cons_of_ne_nil h.ne_nil
  rw [keyLine, hchars]
  exact startsPlain_of_isWordChar (h.isWordChar c (by rw [hchars]; simp)) _

theorem IsKey.isBlank_eq {key : String} (h : IsKey key) (column : Nat) (after : List Char) :
    (keyLine column key after).isBlank = false :=
  isBlank_of_startsPlain (h.startsPlain_eq column after) column

theorem IsKey.splitKey?_eq {key : String} (h : IsKey key) (column : Nat) (after : List Char)
    (hafter : blankNext after = true) :
    splitKey? (keyLine column key after).content = some (.scalar true key, after) := by
  have hstart := h.startsPlain_eq column after
  have hcolon : scanPlain false [] 0 (':' :: after) = ([], ':' :: after) := by
    simp [scanPlain, isSpacing, endsPlain, hafter]
  rw [splitKey?, startsQuoted_of_startsPlain hstart, hstart, keyLine]
  simp [scanPlain_word h.isWordChar hcolon, afterColon?, isSpacing, hafter]

theorem IsKey.isContent {key : String} (h : IsKey key) (column : Nat) (after : List Char)
    (hafter : ∀ c ∈ after, isPrintable c = true) : (keyLine column key after).IsContent := by
  obtain ⟨c, rest, hchars⟩ := List.exists_cons_of_ne_nil h.ne_nil
  have hfirst := h.isWordChar c (by rw [hchars]; simp)
  refine ⟨⟨fun d hd => ?_, ?_⟩, ?_⟩
  · rcases List.mem_append.mp hd with hword | hrest
    · exact isPrintable_of_isWordChar (h.isWordChar d hword)
    · rcases List.mem_cons.mp hrest with rfl | hmore
      · rfl
      · exact hafter d hmore
  · rw [keyLine, hchars]
    intro heq
    obtain rfl := Option.some.inj heq
    cases hfirst
  · rw [Line.Unmarked, keyLine, hchars, List.cons_append, List.take_succ_cons]
    constructor <;> intro heq <;> obtain rfl := (List.cons.inj heq).1 <;> cases hfirst

/-- Lines of a document that begin with a key in the first column. -/
structure Keyed (lines : List Line) : Prop where
  isContent : ∀ line ∈ lines, line.IsContent
  exists_key : ∃ key after more, IsKey key ∧ blankNext after = true ∧
    lines = keyLine 0 key after :: more

/-- The next line has a key in the first column, or the text ends. -/
def KeyNext (rest : List Line) : Prop := rest = [⟨0, []⟩] ∨ Keyed rest

theorem KeyNext.isContent {rest : List Line} (h : KeyNext rest) :
    ∀ line ∈ rest, line.IsContent := by
  rcases h with rfl | hkeyed
  · exact List.forall_mem_singleton.mpr isContent_empty
  · exact hkeyed.isContent

theorem KeyNext.ends {rest : List Line} (h : KeyNext rest) (column : Nat) :
    Ends (column + 1) rest := by
  refine ⟨fun line hline => (h.isContent line hline).toIsCut, h.imp id fun hkeyed => ?_⟩
  obtain ⟨key, after, more, -, -, rfl⟩ := hkeyed.exists_key
  exact ⟨_, more, rfl, by simp [keyLine], Nat.succ_pos column⟩

/-! ## Scalars on a line -/

theorem IsScalar.splitKey?_eq {plain : Bool} {content text : List Char}
    (h : IsScalar plain content text) : splitKey? content = none := by
  cases h with
  | plain start scan =>
    simp [splitKey?, startsQuoted_of_startsPlain start, start, scan, afterColon?]
  | quoted start read =>
    have hread := read [] (by simp)
    rw [List.append_nil] at hread
    simp [splitKey?, start, hread, afterColon?]

theorem IsScalar.startsEntry_eq {plain : Bool} {content text : List Char}
    (h : IsScalar plain content text) : startsEntry content = false := by
  cases h with
  | plain start scan => exact startsEntry_of_startsPlain start
  | quoted start read => obtain ⟨c, rest, rfl, rfl | rfl⟩ := exists_quote start <;> rfl

theorem IsScalar.isBlank_eq {plain : Bool} {content text : List Char}
    (h : IsScalar plain content text) (indent : Nat) :
    (Line.mk indent content).isBlank = false := by
  cases h with
  | plain start scan => exact isBlank_of_startsPlain start indent
  | quoted start read => obtain ⟨c, rest, rfl, rfl | rfl⟩ := exists_quote start <;> rfl

/-- A scalar is read off its line if nothing goes on with it. -/
theorem IsScalar.readInline_eq {plain : Bool} {content text : List Char}
    (h : IsScalar plain content text) (fuel : Nat) {least : Nat} {rest : List Line}
    (hends : Ends least rest) :
    readInline fuel least content rest = some (.scalar plain (String.ofList text), rest) := by
  cases h with
  | plain start scan =>
    cases content with
    | nil => cases start
    | cons c marks =>
      have hindicator := not_mem_of_startsPlain start
      have hbracket : c ≠ '[' := fun heq => hindicator (heq ▸ by decide)
      have hbrace : c ≠ openBrace := fun heq => hindicator (heq ▸ by decide)
      have hbar : c ≠ '|' := fun heq => hindicator (heq ▸ by decide)
      simp [readInline, hbracket, hbrace, hbar, startsQuoted_of_startsPlain start, start, scan,
        hends.continuePlain_eq]
  | quoted start read =>
    have hread := read (joinLines rest) (head?_joinLines_ne rest)
    obtain ⟨c, marks, rfl, hquote⟩ := exists_quote start
    have hbracket : c ≠ '[' ∧ c ≠ openBrace := by
      rcases hquote with rfl | rfl <;> decide
    rw [List.cons_append] at hread
    simp [readInline, hbracket, start, hread, endLine?_joinLines hends.isCut]

/-! ## Sequences of texts -/

/-- The line of a sequence entry with a text. -/
def entryLine (text : String) : Line := { indent := 0, content := '-' :: ' ' :: writeScalar text }

/-- A value is a scalar with a text. -/
def Value.IsText (value : Value) (text : String) : Prop := ∃ plain, value = .scalar plain text

theorem skipBlank_cons {line : Line} (h : line.isBlank = false) (rest : List Line) :
    skipBlank (line :: rest) = line :: rest := by
  simp [skipBlank, h]

theorem readEntries_of_keyNext {rest : List Line} (h : KeyNext rest) (fuel : Nat) :
    readEntries (fuel + 1) 0 rest = some ([], skipBlank rest) := by
  rcases h with rfl | hkeyed
  · rw [readEntries]
    rfl
  · obtain ⟨key, after, more, hkey, -, rfl⟩ := hkeyed.exists_key
    have hentry := startsEntry_of_startsPlain (hkey.startsPlain_eq 0 after)
    rw [readEntries, skipBlank_cons (hkey.isBlank_eq 0 after)]
    simp only [keyLine] at hentry ⊢
    simp [hentry]

theorem isContent_entryLine {text : String} (h : '\n' ∉ text.toList) :
    (entryLine text).IsContent where
  isPrintable := by
    simp only [entryLine, List.forall_mem_cons]
    exact ⟨rfl, rfl, fun c => isPrintable_writeScalar h⟩
  head_ne_space := by simp [entryLine]
  unmarked := by simp [Line.Unmarked, entryLine]

/-- The lines of a sequence of texts, and what follows them. -/
theorem isContent_entries {texts : List String} (htexts : ∀ text ∈ texts, '\n' ∉ text.toList)
    {rest : List Line} (hrest : ∀ line ∈ rest, line.IsContent) :
    ∀ line ∈ texts.map entryLine ++ rest, line.IsContent := by
  rw [List.forall_mem_append, List.forall_mem_map]
  exact ⟨fun text htext => isContent_entryLine (htexts text htext), hrest⟩

/-- An entry with a text is read off its line. -/
theorem readEntries_entryLine {text : String} (htext : '\n' ∉ text.toList) {rest : List Line}
    (hends : Ends 1 rest) (fuel : Nat) :
    ∃ value : Value, value.IsText text ∧
      readEntries (fuel + 2) 0 (entryLine text :: rest) =
        (readEntries (fuel + 1) 0 rest).map fun (items, after) => (value :: items, after) := by
  obtain ⟨plain, hscalar⟩ := isScalar_writeScalar htext
  refine ⟨.scalar plain text, ⟨plain, rfl⟩, ?_⟩
  have hhead : (writeScalar text).head? ≠ some ' ' := by
    cases hscalar with
    | plain start scan =>
      intro hspace
      obtain ⟨rest, hcontent⟩ := List.head?_eq_some_iff.mp hspace
      rw [hcontent] at start
      cases start
    | quoted start read =>
      obtain ⟨c, rest, hcontent, hquote⟩ := exists_quote start
      rw [hcontent]
      intro hspace
      obtain rfl := Option.some.inj hspace
      rcases hquote with hquote | hquote <;> exact absurd hquote (by decide)
  have hcutItem : Line.IsCut ⟨1, writeScalar text⟩ :=
    ⟨fun c => isPrintable_writeScalar htext, hhead⟩
  have hitem : Line.ofChars (' ' :: writeScalar text) = ⟨1, writeScalar text⟩ :=
    hcutItem.ofChars_chars
  have hentry : startsEntry (entryLine text).content = true := rfl
  have hfilled : (entryLine text).isBlank = false := rfl
  have hvalue : readAt (fuel + 1) 1 ⟨2, writeScalar text⟩ rest =
      some (.scalar plain text, rest) := by
    rw [readAt]
    simp [hscalar.startsEntry_eq, hscalar.splitKey?_eq, hscalar.readInline_eq fuel hends]
  rw [readEntries, skipBlank_cons hfilled]
  simp only [entryLine] at hentry ⊢
  simp [hentry, hitem, hscalar.isBlank_eq 1, hvalue]

/-- A sequence of texts is read as these texts. -/
theorem readEntries_texts {texts : List String} (htexts : ∀ text ∈ texts, '\n' ∉ text.toList)
    {rest : List Line} (hnext : KeyNext rest) (fuel : Nat) (hfuel : texts.length < fuel) :
    ∃ items, List.Forall₂ Value.IsText items texts ∧
      readEntries fuel 0 (texts.map entryLine ++ rest) = some (items, skipBlank rest) := by
  induction texts generalizing fuel with
  | nil =>
    obtain ⟨fuel, rfl⟩ := Nat.exists_eq_succ_of_ne_zero (Nat.ne_of_gt hfuel)
    exact ⟨[], .nil, readEntries_of_keyNext hnext fuel⟩
  | cons text texts ih =>
    obtain ⟨htext, htexts⟩ := List.forall_mem_cons.mp htexts
    obtain ⟨fuel, rfl⟩ : ∃ less, fuel = less + 2 :=
      ⟨fuel - 2, by rw [List.length_cons] at hfuel; omega⟩
    rw [List.length_cons] at hfuel
    -- What follows an entry is the next one, in the column that the reader goes back to.
    have hends : Ends 1 (texts.map entryLine ++ rest) := by
      cases texts with
      | nil => exact hnext.ends 0
      | cons next texts =>
        obtain ⟨hnextText, hmore⟩ := List.forall_mem_cons.mp htexts
        exact .cons (isContent_entryLine hnextText).toIsCut (by simp [entryLine]) Nat.one_pos
          fun line hline => (isContent_entries hmore hnext.isContent line hline).toIsCut
    obtain ⟨value, hvalue, hfirst⟩ := readEntries_entryLine htext hends fuel
    obtain ⟨items, hitems, hmore⟩ := ih htexts (fuel + 1) (by omega)
    refine ⟨value :: items, .cons hvalue hitems, ?_⟩
    rw [List.map_cons, List.cons_append, hfirst, hmore]
    rfl

/-! ## Mappings -/

section
variable {column fuel : Nat} {key : String}

/-- A key with a value behind its colon. -/
theorem readPairs_inline (hkey : IsKey key) {c : Char} {content : List Char} {value : Value}
    {rest after : List Line} (hspacing : isSpacing c = false) (hhash : c ≠ '#')
    (hvalue : readInline fuel (column + 1) (c :: content) rest = some (value, after)) :
    readPairs (fuel + 1) column (keyLine column key (' ' :: c :: content) :: rest) =
      (readPairs fuel column after).map fun (entries, after) =>
        ((.scalar true key, value) :: entries, after) := by
  have hkeyed := hkey.splitKey?_eq column (' ' :: c :: content) rfl
  have hblank : isSpacing ' ' = true := rfl
  rw [readPairs, skipBlank_cons (hkey.isBlank_eq column _)]
  simp only [keyLine] at hkeyed ⊢
  simp [hkeyed, onlyComment, hblank, hspacing, hhash, hvalue]

/-- A key with a sequence below it, in the same column. -/
theorem readPairs_sequence (hkey : IsKey key) {next : Line} {others after : List Line}
    {items : List Value} (hnext : next.isBlank = false) (hcolumn : next.indent = column)
    (hentry : startsEntry next.content = true)
    (hitems : readEntries fuel column (next :: others) = some (items, after)) :
    readPairs (fuel + 1) column (keyLine column key [] :: next :: others) =
      (readPairs fuel column after).map fun (entries, after) =>
        ((.scalar true key, .sequence items) :: entries, after) := by
  have hkeyed := hkey.splitKey?_eq column [] rfl
  rw [readPairs, skipBlank_cons (hkey.isBlank_eq column _)]
  simp only [keyLine] at hkeyed ⊢
  simp [hkeyed, onlyComment, skipBlank_cons hnext, hcolumn, hentry, hitems]

/-- A mapping begins with its first key. -/
theorem readBlock_mapping (hkey : IsKey key) {least : Nat} (hleast : least ≤ column)
    {content : List Char} (hcontent : blankNext content = true) {rest after : List Line}
    {entries : List (Value × Value)}
    (hentries : readPairs fuel column (keyLine column key content :: rest) =
      some (entries, after)) :
    readBlock (fuel + 2) least (keyLine column key content :: rest) =
      some (.mapping entries, after) := by
  have hentry := startsEntry_of_startsPlain (hkey.startsPlain_eq column content)
  have hsplit := hkey.splitKey?_eq column content hcontent
  have hcolumn : (keyLine column key content).indent = column := rfl
  rw [readBlock, skipBlank_cons (hkey.isBlank_eq column content)]
  simp only [hcolumn, Nat.not_lt.mpr hleast, ↓reduceIte]
  rw [readAt, hentry, hsplit]
  simp [hcolumn, hentries]

/-- A key with a mapping below it, further to the right. -/
theorem readPairs_mapping (hkey : IsKey key) {inner : String} (hinner : IsKey inner)
    {wide : Nat} (hwide : column < wide) {content : List Char} (hcontent : blankNext content = true)
    {rest after : List Line} {entries : List (Value × Value)}
    (hentries : readPairs fuel wide (keyLine wide inner content :: rest) =
      some (entries, after)) :
    readPairs (fuel + 3) column (keyLine column key [] :: keyLine wide inner content :: rest) =
      (readPairs (fuel + 2) column after).map fun (more, after) =>
        ((.scalar true key, .mapping entries) :: more, after) := by
  have hkeyed := hkey.splitKey?_eq column [] rfl
  have hblank := skipBlank_cons (hinner.isBlank_eq wide content) rest
  have hvalue := readBlock_mapping hinner (Nat.succ_le_of_lt hwide) hcontent hentries
  have hcolumn : (keyLine wide inner content).indent ≠ column := Nat.ne_of_gt hwide
  rw [readPairs, skipBlank_cons (hkey.isBlank_eq column _)]
  simp only [keyLine] at hkeyed hvalue hcolumn hblank ⊢
  simp [hkeyed, onlyComment, hblank, hcolumn, hvalue]

/-- A mapping ends where the lines go back. -/
theorem readPairs_of_keyNext {rest : List Line} (h : KeyNext rest) (hcolumn : column ≠ 0)
    (fuel : Nat) : readPairs (fuel + 1) column rest = some ([], skipBlank rest) := by
  rcases h with rfl | hkeyed
  · rw [readPairs]
    rfl
  · obtain ⟨key, after, more, hkey, -, rfl⟩ := hkeyed.exists_key
    rw [readPairs, skipBlank_cons (hkey.isBlank_eq 0 after)]
    simp [keyLine, Nat.pos_of_ne_zero hcolumn]

end

/-! ## Documents -/

theorem unifyBreaks_eq_self {text : List Char} (h : '\r' ∉ text) : unifyBreaks text = text := by
  induction text with
  | nil => rfl
  | cons c rest ih =>
    obtain ⟨hc, hrest⟩ := List.ne_and_not_mem_of_not_mem_cons h
    unfold unifyBreaks
    split
    · rename_i heq
      exact absurd (List.cons.inj heq).1.symm hc
    · rename_i heq
      exact absurd (List.cons.inj heq).1.symm hc
    · rename_i heq
      obtain ⟨rfl, rfl⟩ := List.cons.inj heq
      rw [ih hrest]
    · rename_i heq
      cases heq

theorem documentLines_eq {lines : List Line} (h : Keyed lines) :
    documentLines lines = some lines := by
  have hmark (line : Line) (hline : line ∈ lines) :
      line.isMark '-' = false ∧ line.isMark '.' = false := by
    obtain ⟨hdashes, hdots⟩ := (h.isContent line hline).unmarked
    simp [Line.isMark, hdashes, hdots]
  have hinside : lines.takeWhile (fun line => !line.isMark '-' && !line.isMark '.') = lines := by
    rw [List.takeWhile_eq_self_iff]
    intro line hline
    simp [hmark line hline]
  obtain ⟨key, after, more, hkey, -, rfl⟩ := h.exists_key
  have hfirst := (hmark _ List.mem_cons_self).1
  rw [documentLines, skipBlank_cons (hkey.isBlank_eq 0 after)]
  simp only [hfirst, Bool.false_eq_true, ↓reduceIte, hinside, List.drop_length]
  rfl

theorem isAllowed_of_isPrintable {c : Char} (h : isPrintable c = true) : isAllowed c = true := by
  have hspace : ' ' ≤ c ↔ 0x20 ≤ c.toNat := Iff.rfl
  simp only [isPrintable, Bool.or_eq_true, Bool.and_eq_true, decide_eq_true_eq, bne_iff_ne] at h
  simp only [isAllowed, Bool.or_eq_true, Bool.and_eq_true, decide_eq_true_eq, bne_iff_ne, hspace]
  omega

/-- Of characters that can be written as themselves and line feeds, a document is read as it
stands. -/
theorem taken_of_isPrintable {text : List Char}
    (h : ∀ c ∈ text, c = '\n' ∨ isPrintable c = true) :
    dropOrderMark text = text ∧ text.all isAllowed = true ∧ unifyBreaks text = text := by
  refine ⟨?_, ?_, unifyBreaks_eq_self fun hc => ?_⟩
  · cases text with
    | nil => rfl
    | cons c rest =>
      have hc : c.toNat ≠ 0xFEFF := by
        intro heq
        rcases h c List.mem_cons_self with rfl | hprintable
        · cases heq
        · simp [isPrintable, heq] at hprintable
      simp [dropOrderMark, hc]
  · rw [List.all_eq_true]
    intro c hc
    rcases h c hc with rfl | hprintable
    · rfl
    · exact isAllowed_of_isPrintable hprintable
  · rcases h _ hc with heq | hprintable
    · exact absurd heq (by decide)
    · cases hprintable

/-- The characters of a text of lines are those of the lines, spaces and line breaks. -/
theorem mem_joinLines {lines : List Line} (hcut : ∀ line ∈ lines, line.IsCut) {c : Char}
    (hc : c ∈ joinLines lines) : c = '\n' ∨ isPrintable c = true := by
  obtain ⟨line, hline, hmem⟩ := List.mem_flatMap.mp hc
  rcases List.mem_cons.mp hmem with rfl | hmem
  · exact .inl rfl
  · rcases List.mem_append.mp hmem with hspace | hcontent
    · rw [List.eq_of_mem_replicate hspace]
      exact .inr rfl
    · exact .inr ((hcut line hline).isPrintable c hcontent)

/-- A document that begins with a key is the mapping that its lines make. The reader has fuel
for four times as many calls as there are characters, of which two are spent before the first
key. -/
theorem readDocument_of_keyed {text : String} {lines after : List Line} (h : Keyed lines)
    (htext : joinLines lines = '\n' :: text.toList) {entries : List (Value × Value)}
    (hentries : readPairs (4 * text.toList.length + 6) 0 lines = some (entries, after))
    (hafter : skipBlank after = []) : readDocument text = some (.mapping entries) := by
  have hcut : ∀ line ∈ lines, line.IsCut := fun line hline => (h.isContent line hline).toIsCut
  obtain ⟨horder, hallowed, hbreaks⟩ := taken_of_isPrintable fun c (hc : c ∈ text.toList) =>
    mem_joinLines hcut (by rw [htext]; exact List.mem_cons_of_mem _ hc)
  have hdocument := documentLines_eq h
  obtain ⟨key, content, rest, hkey, hcontent, rfl⟩ := h.exists_key
  have hsplit : splitLines text.toList = keyLine 0 key content :: rest := by
    obtain ⟨joined, hjoined, hsplit⟩ := exists_joinLines (List.cons_ne_nil _ _) hcut
    rw [htext] at hjoined
    rw [(List.cons.inj hjoined).2, hsplit]
  have hcolumn : (keyLine 0 key content).indent = 0 := rfl
  have hvalue := readBlock_mapping hkey (Nat.zero_le 0) hcontent hentries
  rw [readDocument, horder, hallowed, hbreaks, hsplit, hdocument]
  simp [skipBlank_cons (hkey.isBlank_eq 0 content), hcolumn, hvalue, hafter]

end Patchbay.Yaml
