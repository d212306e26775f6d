import Mathlib.Data.List.Basic
import Patchbay.Config.ScalarReader
import Patchbay.Config.ScalarWriter

/-!
# Scalars read back

A text without line breaks is written as a scalar that is read as the same text. Between
quotes any such text can be held: single quotes are written twice, and what cannot be written
as itself is escaped by a letter or by its number. Without quotes a text can be held that has
nothing in it that means something to the reader and does not read as something else.

## Implementation notes

A reader keeps the blanks that it has passed over until a character follows. So each lemma
about reading is stated for any blanks before the place where reading goes on.
-/

namespace Patchbay.Yaml

/-! ## Characters -/

theorem ne_newline_of_isPrintable {c : Char} (h : isPrintable c = true) : c ≠ '\n' := by
  rintro rfl
  cases h

theorem isPrintable_of_le (first last : Char) {c : Char} (hfirst : 0x20 ≤ first.toNat)
    (hlast : last.toNat ≤ 0x7E) (h : first ≤ c ∧ c ≤ last) : isPrintable c = true := by
  have hleast : first.toNat ≤ c.toNat := h.1
  have hmost : c.toNat ≤ last.toNat := h.2
  have hrange : 0x20 ≤ c.toNat ∧ c.toNat ≤ 0x7E := by omega
  simp [isPrintable, hrange]

/-- The only blank that can be written as itself is the space. -/
theorem eq_space_of_isPrintable {c : Char} (h : isPrintable c = true)
    (hspacing : isSpacing c = true) : c = ' ' := by
  rcases (by simpa [isSpacing] using hspacing : c = ' ' ∨ c = '\t') with rfl | rfl
  · rfl
  · cases h

theorem not_blankNext_of_not_gapNext {text : List Char} (h : gapNext text = false) :
    blankNext text = false := by
  cases text with
  | nil => cases h
  | cons c rest =>
    simp only [gapNext, isLineBreak, Bool.or_eq_false_iff, decide_eq_false_iff_not] at h
    simp [blankNext, h.1.1, h.1.2.1]

/-! ## Single quotes -/

/-- A text with each single quote written twice. -/
def doubled (text : List Char) : List Char :=
  text.flatMap fun c => if c = singleQuote then [c, c] else [c]

theorem writeSingle_eq (text : List Char) :
    writeSingle text = singleQuote :: (doubled text ++ [singleQuote]) := rfl

theorem scanSingle_doubled {text rest : List Char} (htext : '\n' ∉ text)
    (hrest : rest.head? ≠ some singleQuote) (blanks : List Char) :
    scanSingle blanks 0 (doubled text ++ singleQuote :: rest) = some (blanks ++ text, rest) := by
  have hbreak : singleQuote ≠ '\n' := by decide
  have hspacing : isSpacing singleQuote = false := by decide
  induction text generalizing blanks with
  | nil =>
    cases rest with
    | nil => simp [doubled, scanSingle, hbreak, hspacing, foldGap]
    | cons d rest =>
      have hd : d ≠ singleQuote := fun heq => hrest (by rw [heq]; rfl)
      simp [doubled, scanSingle, hbreak, hspacing, foldGap, hd]
  | cons c text ih =>
    obtain ⟨hc, htext⟩ := List.ne_and_not_mem_of_not_mem_cons htext
    have hplain : c ≠ '\n' := fun heq => hc heq.symm
    have ih := ih htext
    by_cases hquote : c = singleQuote
    · subst hquote
      have hstep : doubled (singleQuote :: text) = singleQuote :: singleQuote :: doubled text :=
        rfl
      simp [hstep, scanSingle, hbreak, hspacing, foldGap, ih]
    · have hstep : doubled (c :: text) = c :: doubled text := by simp [doubled, hquote]
      rw [hstep, List.cons_append, scanSingle_cons hplain hquote, ih, ih]
      by_cases hblank : isSpacing c = true <;> simp [hblank]

theorem readQuoted?_writeSingle {text rest : List Char} (htext : '\n' ∉ text)
    (hrest : rest.head? ≠ some singleQuote) :
    readQuoted? (writeSingle text ++ rest) = some (text, rest) := by
  rw [writeSingle_eq, List.cons_append, List.append_assoc, readQuoted?, if_pos rfl]
  exact scanSingle_doubled htext hrest []

/-! ## Double quotes -/

/-- The number that a row of hexadecimal digits denotes. -/
def hexNumber? (value : Nat) : List Char → Option Nat
  | [] => some value
  | c :: rest => (hexValue? c).bind fun digit => hexNumber? (16 * value + digit) rest

theorem hexNumber?_append (value : Nat) (first second : List Char) :
    hexNumber? value (first ++ second) =
      (hexNumber? value first).bind fun value => hexNumber? value second := by
  induction first generalizing value with
  | nil => rfl
  | cons c rest ih =>
    simp only [List.cons_append, hexNumber?]
    cases hexValue? c with
    | none => rfl
    | some digit => exact ih (16 * value + digit)

theorem hexNumber?_zeros (count : Nat) (digits : List Char) :
    hexNumber? 0 (List.replicate count '0' ++ digits) = hexNumber? 0 digits := by
  induction count with
  | zero => rfl
  | succ count ih => exact ih

theorem hexValue?_digitChar {digit : Nat} (h : digit < 16) :
    hexValue? digit.digitChar.toUpper = some digit := by
  have hall : ∀ digit : Fin 16, hexValue? digit.val.digitChar.toUpper = some digit.val := by
    decide
  exact hall ⟨digit, h⟩

theorem hexNumber?_toDigits (n : Nat) :
    hexNumber? 0 ((Nat.toDigits 16 n).map Char.toUpper) = some n := by
  induction n using Nat.strongRecOn with
  | ind n ih =>
    rw [Nat.toDigits_eq_if (by decide)]
    by_cases hsmall : n < 16
    · simp [hsmall, hexNumber?, hexValue?_digitChar]
    · have hlast : n % 16 < 16 := Nat.mod_lt n (by decide)
      rw [if_neg hsmall, List.map_append, hexNumber?_append, ih (n / 16) (by omega)]
      simp only [List.map_cons, List.map_nil, Option.bind_some, hexNumber?,
        hexValue?_digitChar hlast, Option.some.injEq]
      exact Nat.div_add_mod n 16

theorem hexNumber?_writeHex (width n : Nat) : hexNumber? 0 (writeHex width n) = some n := by
  rw [writeHex, hexNumber?_zeros, hexNumber?_toDigits]

theorem length_writeHex {width n : Nat} (hwidth : width ≠ 0) (h : n < Nat.pow 16 width) :
    (writeHex width n).length = width := by
  have hlength : (Nat.toDigits 16 n).length ≤ width :=
    (Nat.length_toDigits_le_iff (by decide) (Nat.pos_of_ne_zero hwidth)).mpr h
  simp only [writeHex, List.length_append, List.length_replicate, List.length_map]
  omega

theorem char?_toNat (c : Char) : char? c.toNat = some c := by
  have hvalid : c.toNat.isValidChar := c.valid
  rw [char?, if_pos hvalid, Char.ofNat_toNat]

theorem scanDouble_number {digits : List Char} (hdigits : digits ≠ []) {value n : Nat}
    (h : hexNumber? value digits = some n) {named : Char} (hnamed : char? n = some named)
    (blanks rest : List Char) :
    scanDouble (.number digits.length value) blanks 0 (digits ++ rest) =
      (scanDouble .text [] 0 rest).map fun (text, after) => (blanks ++ named :: text, after) := by
  induction digits generalizing value with
  | nil => exact absurd rfl hdigits
  | cons c digits ih =>
    rw [hexNumber?] at h
    obtain ⟨digit, hdigit, h⟩ := Option.bind_eq_some_iff.mp h
    cases digits with
    | nil =>
      obtain rfl := Option.some.inj h
      simp [scanDouble, hdigit, hnamed, foldGap]
    | cons d digits =>
      rw [List.cons_append, scanDouble]
      simp only [hdigit, List.length_cons, Nat.add_eq_right, Nat.add_eq_zero_iff,
        List.length_eq_zero_iff, Nat.succ_ne_self, and_false, ↓reduceIte]
      exact ih (by simp) h

/-- A single letter escapes what it stands for when it is read. -/
theorem lookup_namedEscapes {n : Nat} {letter : Char}
    (h : writtenEscapes.lookup n = some letter) :
    letter ≠ '\n' ∧ numberedEscape? letter = none ∧ namedEscapes.lookup letter = some n := by
  have hall : ∀ entry ∈ writtenEscapes, entry.2 ≠ '\n' ∧ numberedEscape? entry.2 = none ∧
      namedEscapes.lookup entry.2 = some entry.1 := by
    decide
  obtain ⟨before, after, hsplit, -⟩ := List.lookup_eq_some_iff.mp h
  exact hall (n, letter) (by simp [hsplit])

theorem scanDouble_numbered {letter : Char} {width : Nat} (hwidth : width ≠ 0)
    (hletter : numberedEscape? letter = some width) (hbreak : letter ≠ '\n') {c : Char}
    (hc : c.toNat < Nat.pow 16 width) (blanks rest : List Char) :
    scanDouble .text blanks 0 ('\\' :: letter :: (writeHex width c.toNat ++ rest)) =
      (scanDouble .text [] 0 rest).map fun (text, after) => (blanks ++ c :: text, after) := by
  have hlength := length_writeHex hwidth hc
  have hdigits : writeHex width c.toNat ≠ [] := by
    rintro heq
    rw [heq] at hlength
    exact hwidth hlength.symm
  have hread := scanDouble_number hdigits (hexNumber?_writeHex width c.toNat) (char?_toNat c)
    blanks rest
  rw [hlength] at hread
  rw [scanDouble_backslash, scanDouble]
  simp only [hbreak, hletter, ↓reduceIte]
  exact hread

/-- However a character is written between double quotes, reading goes on behind it. -/
theorem scanDouble_writeDoubleChar {c : Char} {text rest after : List Char}
    (hrest : ∀ blanks, scanDouble .text blanks 0 rest = some (blanks ++ text, after))
    (blanks : List Char) :
    scanDouble .text blanks 0 (writeDoubleChar c ++ rest) =
      some (blanks ++ c :: text, after) := by
  have hmore : ((scanDouble .text [] 0 rest).map
      fun (text, after) => (blanks ++ c :: text, after)) = some (blanks ++ c :: text, after) := by
    rw [hrest]
    rfl
  unfold writeDoubleChar
  split
  · rename_i hplain
    simp only [Bool.and_eq_true, bne_iff_ne] at hplain
    obtain ⟨⟨⟨hprintable, -⟩, hquote⟩, hslash⟩ := hplain
    have hbreak := ne_newline_of_isPrintable hprintable
    rw [List.cons_append, List.nil_append, scanDouble]
    by_cases hblank : isSpacing c = true
    · simp [hbreak, hblank, hrest]
    · simp only [hbreak, hblank, hquote, hslash, Bool.false_eq_true, ↓reduceIte, foldGap]
      exact hmore
  -- An escape stands for one character, whether by its letter or by its number.
  · cases hlookup : writtenEscapes.lookup c.toNat with
    | some letter =>
      obtain ⟨hbreak, hnumbered, hnamed⟩ := lookup_namedEscapes hlookup
      rw [List.cons_append, List.cons_append, List.nil_append, scanDouble_backslash, scanDouble]
      simp only [hbreak, hnumbered, hnamed, ↓reduceIte, foldGap, Char.ofNat_toNat]
      exact hmore
    | none =>
      dsimp only
      have hbound : c.toNat < 0x110000 := by
        have hvalid : c.toNat.isValidChar := c.valid
        rw [Nat.isValidChar] at hvalid
        omega
      have hnumbered {letter : Char} {width : Nat} (hwidth : width ≠ 0)
          (hletter : numberedEscape? letter = some width) (hbreak : letter ≠ '\n')
          (hc : c.toNat < Nat.pow 16 width) :=
        (scanDouble_numbered hwidth hletter hbreak hc blanks rest).trans hmore
      split
      · rename_i hbyte
        exact hnumbered (by decide) rfl (by decide) (Nat.lt_of_le_of_lt hbyte (by decide))
      · split
        · rename_i hplane
          exact hnumbered (by decide) rfl (by decide) (Nat.lt_of_le_of_lt hplane (by decide))
        · exact hnumbered (by decide) rfl (by decide) (Nat.lt_trans hbound (by decide))

theorem readQuoted?_writeDouble (text rest : List Char) :
    readQuoted? (writeDouble text ++ rest) = some (text, rest) := by
  have hscan (blanks : List Char) :
      scanDouble .text blanks 0 (text.flatMap writeDoubleChar ++ doubleQuote :: rest) =
        some (blanks ++ text, rest) := by
    induction text generalizing blanks with
    | nil =>
      simp [scanDouble, foldGap, (by decide : doubleQuote ≠ '\n'),
        (by decide : isSpacing doubleQuote = false)]
    | cons c text ih =>
      rw [List.flatMap_cons, List.append_assoc]
      exact scanDouble_writeDoubleChar ih blanks
  have hquote : doubleQuote ≠ singleQuote := by decide
  have htext : writeDouble text ++ rest =
      doubleQuote :: (text.flatMap writeDoubleChar ++ doubleQuote :: rest) := by
    simp [writeDouble]
  rw [htext, readQuoted?, if_neg hquote, if_pos rfl]
  exact hscan []

/-! ## Plain scalars -/

/-- The writer looks for indicators behind any gap, and the reader behind spaces. A text with
no indicators and no space at its end is read whole. -/
theorem scanPlain_of_printable {text : List Char} (hchars : ∀ c ∈ text, isPrintable c = true)
    (hlast : text.getLast? ≠ some ' ') {gap : Bool} (hinner : hasInnerIndicator gap text = false)
    {blanks : List Char} (hgap : blanks ≠ [] → gap = true) (hend : text = [] → blanks = []) :
    scanPlain false blanks 0 text = (blanks ++ text, []) := by
  induction text generalizing gap blanks with
  | nil => simp [scanPlain, hend rfl]
  | cons c rest ih =>
    obtain ⟨hprintable, hrestChars⟩ := List.forall_mem_cons.mp hchars
    simp only [hasInnerIndicator, Bool.or_eq_false_iff] at hinner
    obtain ⟨⟨hcolon, hhash⟩, hinner⟩ := hinner
    have hlast' : rest.getLast? ≠ some ' ' := by
      cases rest with
      | nil => simp
      | cons d rest => rwa [List.getLast?_cons_cons] at hlast
    have hbreak := ne_newline_of_isPrintable hprintable
    rw [scanPlain]
    by_cases hblank : isSpacing c = true
    -- A space is kept, since the text does not end in it.
    · obtain rfl := eq_space_of_isPrintable hprintable hblank
      have hmore : rest ≠ [] := by
        rintro rfl
        exact hlast rfl
      have hrest : scanPlain false (blanks ++ [' ']) 0 rest = (blanks ++ [' '] ++ rest, []) :=
        ih hrestChars hlast' hinner (fun _ => rfl) fun hnil => absurd hnil hmore
      simp [hbreak, hblank, hrest]
    · have hends : endsPlain false (!blanks.isEmpty) c rest = false := by
        have hhash' : (c == '#' && !blanks.isEmpty) = false := by
          cases blanks with
          | nil => simp
          | cons b blanks => simpa [hgap (by simp)] using hhash
        have hcolon' : (c == ':' && blankNext rest) = false := by
          by_cases hc : c = ':'
          · have hnext : gapNext rest = false := by simpa [hc] using hcolon
            simp [not_blankNext_of_not_gapNext hnext]
          · simp [hc]
        simp [endsPlain, hcolon', hhash']
      have hrest : scanPlain false [] 0 rest = ([] ++ rest, []) :=
        ih hrestChars hlast' hinner (fun hne => absurd rfl hne) fun _ => rfl
      simp [hbreak, hblank, hends, hrest, foldGap]

/-! ## Scalars -/

/-- A row of characters is a plain or quoted scalar, and its text. -/
inductive IsScalar : (plain : Bool) → (content text : List Char) → Prop
  | plain {content text : List Char} (start : startsPlain content = true)
      (scan : scanPlain false [] 0 content = (text, [])) : IsScalar true content text
  | quoted {content text : List Char} (start : startsQuoted content = true)
      (read : ∀ rest : List Char, rest.head? ≠ some singleQuote →
        readQuoted? (content ++ rest) = some (text, rest)) : IsScalar false content text

/-- A text that plain scalars can hold is one, if there is something in it. -/
theorem isScalar_of_fitsPlain {text : List Char} (hne : text ≠ []) (h : fitsPlain text = true) :
    IsScalar true text text := by
  simp only [fitsPlain, Bool.and_eq_true, Bool.not_eq_true', bne_iff_ne,
    List.all_eq_true] at h
  obtain ⟨⟨⟨⟨⟨hfirst, hinner⟩, -⟩, hhead⟩, hlast⟩, hchars⟩ := h
  refine .plain ?_ (scanPlain_of_printable (fun c hc => (hchars c hc).1) hlast hinner
    (fun hne => absurd rfl hne) fun _ => rfl)
  obtain ⟨c, rest, rfl⟩ := List.exists_cons_of_ne_nil hne
  have hprintable := (hchars c List.mem_cons_self).1
  simp only [hasFirstIndicator, Bool.or_eq_false_iff] at hfirst
  have hblank : isSpacing c = false := by
    rw [Bool.eq_false_iff]
    intro hblank
    exact hhead (by rw [eq_space_of_isPrintable hprintable hblank]; rfl)
  have hmark : ((['-', '?', ':'].contains c) && blankNext rest) = false := by
    by_cases hc : (['-', '?', ':'].contains c) = true
    · have hnext : gapNext rest = false := by simpa only [hc, Bool.true_and] using hfirst.2
      rw [not_blankNext_of_not_gapNext hnext, Bool.and_false]
    · rw [Bool.eq_false_iff.mpr hc, Bool.false_and]
  have hbreak : (c != '\n') = true := bne_iff_ne.mpr (ne_newline_of_isPrintable hprintable)
  simp only [startsPlain, hfirst.1, hblank, hbreak, hmark, Bool.not_false, Bool.and_self]

/-- A text without line breaks is written as a scalar with that text. -/
theorem isScalar_writeScalar {text : String} (h : '\n' ∉ text.toList) :
    ∃ plain, IsScalar plain (writeScalar text) text.toList := by
  have hcontains : text.toList.contains '\n' = false := by simpa using h
  simp only [writeScalar, hcontains, Bool.false_and, Bool.false_eq_true, ↓reduceIte]
  split
  · rename_i hplain
    rw [Bool.and_eq_true] at hplain
    refine ⟨true, isScalar_of_fitsPlain ?_ hplain.2⟩
    intro hnil
    obtain rfl : text = "" := String.toList_eq_nil_iff.mp hnil
    exact absurd hplain.1 (by decide)
  · split
    · exact ⟨false, .quoted rfl fun rest hrest => readQuoted?_writeSingle h hrest⟩
    · exact ⟨false, .quoted rfl fun rest _ => readQuoted?_writeDouble _ rest⟩

/-! ## What scalars are made of -/

theorem isPrintable_of_isDigit {c : Char} (h : c.isDigit = true) : isPrintable c = true := by
  rw [Char.isDigit, Bool.and_eq_true, decide_eq_true_eq, decide_eq_true_eq] at h
  exact isPrintable_of_le '0' '9' (by decide) (by decide) h

theorem isPrintable_of_hexValue? {c : Char} {digit : Nat} (h : hexValue? c = some digit) :
    isPrintable c = true := by
  unfold hexValue? at h
  split at h
  · rename_i hdigit
    exact isPrintable_of_isDigit hdigit
  · split at h
    · rename_i hlower
      exact isPrintable_of_le 'a' 'f' (by decide) (by decide) hlower
    · split at h
      · rename_i hupper
        exact isPrintable_of_le 'A' 'F' (by decide) (by decide) hupper
      · cases h

theorem isPrintable_of_hexNumber? {digits : List Char} {value n : Nat}
    (h : hexNumber? value digits = some n) : ∀ c ∈ digits, isPrintable c = true := by
  induction digits generalizing value with
  | nil => simp
  | cons c digits ih =>
    obtain ⟨digit, hdigit, h⟩ := Option.bind_eq_some_iff.mp h
    exact List.forall_mem_cons.mpr ⟨isPrintable_of_hexValue? hdigit, ih h⟩

theorem isPrintable_writeDoubleChar {c d : Char} (h : d ∈ writeDoubleChar c) :
    isPrintable d = true := by
  have hhex (letter : Char) (hletter : isPrintable letter = true) (width : Nat)
      (hd : d ∈ ['\\', letter] ++ writeHex width c.toNat) : isPrintable d = true := by
    rcases List.mem_append.mp hd with hmark | hdigit
    · rcases (by simpa using hmark : d = '\\' ∨ d = letter) with rfl | rfl
      · rfl
      · exact hletter
    · exact isPrintable_of_hexNumber? (hexNumber?_writeHex width c.toNat) d hdigit
  unfold writeDoubleChar at h
  split at h
  · rename_i hplain
    simp only [Bool.and_eq_true] at hplain
    exact List.mem_singleton.mp h ▸ hplain.1.1.1
  · split at h
    · rename_i letter hlookup
      have hall : ∀ entry ∈ writtenEscapes, isPrintable entry.2 = true := by decide
      obtain ⟨before, after, hsplit, -⟩ := List.lookup_eq_some_iff.mp hlookup
      rcases (by simpa using h : d = '\\' ∨ d = letter) with rfl | rfl
      · rfl
      · exact hall (c.toNat, d) (by simp [hsplit])
    · split at h
      · exact hhex 'x' rfl 2 h
      · split at h
        · exact hhex 'u' rfl 4 h
        · exact hhex 'U' rfl 8 h

/-- A scalar is written with characters that can be written as themselves. -/
theorem isPrintable_writeScalar {text : String} (h : '\n' ∉ text.toList) {c : Char}
    (hc : c ∈ writeScalar text) : isPrintable c = true := by
  have hcontains : text.toList.contains '\n' = false := by simpa using h
  simp only [writeScalar, hcontains, Bool.false_and, Bool.false_eq_true, ↓reduceIte] at hc
  split at hc
  · rename_i hplain
    simp only [fitsPlain, Bool.and_eq_true, List.all_eq_true] at hplain
    exact (hplain.2.2 c hc).1
  · split at hc
    · rename_i hsingle
      simp only [fitsSingle, Bool.and_eq_true, List.all_eq_true, Bool.or_eq_true,
        decide_eq_true_eq] at hsingle
      have hchars (d : Char) (hd : d ∈ text.toList) : isPrintable d = true :=
        (hsingle.1.1 d hd).resolve_right fun hbreak => h (hbreak ▸ hd)
      rw [writeSingle_eq] at hc
      rcases (by simpa using hc : c = singleQuote ∨ c ∈ doubled text.toList ∨ c = singleQuote)
        with rfl | hmem | rfl
      · rfl
      · obtain ⟨d, hd, hmem⟩ := List.mem_flatMap.mp hmem
        have heq : c = d := by
          split at hmem <;> simpa using hmem
        exact heq ▸ hchars d hd
      · rfl
    · simp only [writeDouble, List.mem_append, List.mem_singleton] at hc
      rcases hc with (rfl | hmem) | rfl
      · rfl
      · obtain ⟨d, -, hmem⟩ := List.mem_flatMap.mp hmem
        exact isPrintable_writeDoubleChar hmem
      · rfl

end Patchbay.Yaml
