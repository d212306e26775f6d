import Mathlib.Data.List.Forall2
import Patchbay.Proofs.Connections
import Patchbay.Proofs.Records

/-!
# The lines that records are reported on

A record begins at the first sign behind the end of the record before it that is no gap.
Its line is noted there if that sign is a plain character of a word. A record that begins
with an escape or a comma has no line noted, and is reported on the line of the record
before it.

## Implementation notes

Where records begin is told by the text alone, cut into signs: a character, or a backslash
with the character that it takes along. A sign begins a record if only gaps stand between it
and the latest end of a record, and nothing of the reader is needed to say so.
-/

namespace Patchbay

/-! ## The signs of a text -/

/-- A character of a patch text, with the backslash before it if there is one. -/
inductive Sign where
  | plain (c : Char)
  | escaped (c : Char)
  /-- A backslash at the end of the text. -/
  | stray
  deriving DecidableEq, Repr

namespace Sign

/-- A sign as it stands in the text. -/
def written : Sign → List Char
  | plain c => [c]
  | escaped c => ['\\', c]
  | stray => ['\\']

/-- Whether a sign ends a record. -/
def ends : Sign → Bool
  | plain c => c == ';'
  | _ => false

/-- Whether a sign only stands between words. -/
def isGap : Sign → Bool
  | plain c => isBlank c
  | escaped c => c == '\n'
  | stray => true

/-- Whether a sign is a plain character of a word, if it belongs to a record. -/
def isNoted : Sign → Bool
  | plain c => c != ','
  | _ => false

/-- A token begins with a sign. -/
inductive Heads : Sign → Token → Prop
  | plain {c : Char} {text : String} (hc : c ≠ ',') (h : text.toList.head? = some c) :
    Heads (.plain c) (.word text)
  | escaped {c : Char} {text : String} (hcomma : c ≠ ',') (hsemicolon : c ≠ ';')
    (h : text.toList.head? = some c) : Heads (.escaped c) (.word text)
  | comma : Heads (.plain ',') .comma
  | escapedComma : Heads (.escaped ',') .comma
  | semicolon : Heads (.escaped ';') .semicolon

end Sign

/-- The signs of a text. -/
def signs : List Char → List Sign
  | [] => []
  | [c] => if c = '\\' then [.stray] else [.plain c]
  | c :: d :: rest => if c = '\\' then .escaped d :: signs rest else .plain c :: signs (d :: rest)

/-- Nothing of a text is lost in its signs. -/
theorem flatMap_written_signs (text : List Char) : (signs text).flatMap Sign.written = text := by
  induction text using signs.induct with
  | case1 => rfl
  | case2 => rfl
  | case3 c hc => simp [signs, hc, Sign.written]
  | case4 d rest ih => simp [signs, Sign.written, ih]
  | case5 c d rest hc ih => simp [signs, hc, Sign.written, ih]

/-! ## Where records begin -/

/-- Whether only gaps stand behind the latest end of a record. -/
def isFresh (seen : List Sign) : Bool :=
  (seen.reverse.takeWhile fun sign => !sign.ends).all Sign.isGap

theorem isFresh_snoc (seen : List Sign) (sign : Sign) :
    isFresh (seen ++ [sign]) = (sign.ends || (sign.isGap && isFresh seen)) := by
  cases hends : sign.ends <;> simp [isFresh, hends]

/-- The place where a record begins: the text before it and its first sign. -/
structure Opening where
  before : List Char
  sign : Sign
  deriving DecidableEq, Repr

/-- The line of a place: one more than the line breaks before it. -/
def Opening.line (opening : Opening) : Nat := 1 + opening.before.count '\n'

/-- A record begins with the sign at a place. -/
def Opening.Heads (opening : Opening) (record : Record) : Prop :=
  ∃ token rest, record.tokens = token :: rest ∧ opening.sign.Heads token

/-- The places where records begin, behind some signs. -/
def openingsFrom (seen : List Sign) : List Sign → List Opening
  | [] => []
  | sign :: rest =>
    (if isFresh seen && !sign.isGap && !sign.ends then
      [{ before := seen.flatMap Sign.written, sign }]
    else []) ++ openingsFrom (seen ++ [sign]) rest

/-- The places where the records of a text begin. -/
def openings (text : String) : List Opening := openingsFrom [] (signs text.toList)

theorem openingsFrom_append (seen first second : List Sign) :
    openingsFrom seen (first ++ second) =
      openingsFrom seen first ++ openingsFrom (seen ++ first) second := by
  induction first generalizing seen with
  | nil => simp [openingsFrom]
  | cons sign rest ih =>
    simp only [List.cons_append, openingsFrom, ih, List.append_assoc, List.nil_append]

/-- The lines that are noted for some records: that of its first sign for a record that begins
with a plain character of a word, and that of the record before it for any other. -/
def notedLines (latest : Nat) : List Opening → List Nat
  | [] => []
  | opening :: rest =>
    let line := if opening.sign.isNoted then opening.line else latest
    line :: notedLines line rest

theorem notedLines_snoc (latest : Nat) (before : List Opening) (opening : Opening) :
    notedLines latest (before ++ [opening]) =
      notedLines latest before ++
        [if opening.sign.isNoted then opening.line
          else (notedLines latest before).getLastD latest] := by
  induction before generalizing latest with
  | nil => rfl
  | cons first rest ih =>
    simp only [List.cons_append, notedLines, ih, List.getLastD_cons]

theorem getElem?_notedLines {latest : Nat} {places : List Opening} {index : Nat}
    {opening : Opening} (h : places[index]? = some opening) (hnoted : opening.sign.isNoted = true) :
    (notedLines latest places)[index]? = some opening.line := by
  induction places generalizing latest index with
  | nil => cases h
  | cons first rest ih =>
    cases index with
    | zero =>
      cases h
      simp [notedLines, hnoted]
    | succ index => exact ih h

/-! ## What the reader has read -/

namespace RecordReader
variable {reader next : RecordReader} {seen : List Sign} {sign : Sign}

/-- The tokens of the record being read, in order. -/
def pending (reader : RecordReader) : List Token :=
  (withWord reader.tokens reader.word).reverse

theorem pending_eq_nil_iff :
    reader.pending = [] ↔ reader.tokens.isEmpty = true ∧ reader.word.isEmpty = true := by
  unfold pending withWord
  cases hword : reader.word.isEmpty <;> simp

@[simp] theorem pending_endWord (reader : RecordReader) :
    reader.endWord.pending = reader.pending := by
  unfold endWord pending withWord
  cases hword : reader.word.isEmpty
  · simp
  · simp [hword]

@[simp] theorem endWord_keeps (reader : RecordReader) :
    reader.endWord.records = reader.records ∧ reader.endWord.line = reader.line ∧
      reader.endWord.recordLine = reader.recordLine ∧
      reader.endWord.tokens = withWord reader.tokens reader.word ∧ reader.endWord.word = [] := by
  unfold endWord withWord
  cases hword : reader.word.isEmpty
  · simp
  · simpa using hword

theorem finish_eq (reader : RecordReader) :
    reader.finish = reader.records.reverse ++
      (if reader.pending = [] then [] else [⟨reader.recordLine, reader.pending⟩]) := by
  obtain ⟨hrecords, -, hrecordLine, htokens, -⟩ := reader.endWord_keeps
  unfold finish endRecord pending
  simp only [htokens, hrecords, hrecordLine]
  cases withWord reader.tokens reader.word <;> simp

/-- What a sign of a record does to the tokens of the record. -/
inductive Grows (sign : Sign) : List Token → List Token → Prop
  | first {token : Token} (h : sign.Heads token) : Grows sign [] [token]
  | further {first first' : Token} {rest rest' : List Token}
    (h : ∀ other : Sign, other.Heads first → other.Heads first') :
    Grows sign (first :: rest) (first' :: rest')

/-- The reader has read some signs. -/
structure Follows (reader : RecordReader) (seen : List Sign) : Prop where
  line_eq : reader.line = 1 + (seen.flatMap Sign.written).count '\n'
  recordLine_eq : reader.recordLine = (notedLines 1 (openingsFrom [] seen)).getLastD 1
  lines_eq : reader.finish.map Record.line = notedLines 1 (openingsFrom [] seen)
  heads : List.Forall₂ Opening.Heads (openingsFrom [] seen) reader.finish
  fresh_iff : reader.pending = [] ↔ isFresh seen = true

/-! ### One sign more -/

theorem openingsFrom_snoc (seen : List Sign) (sign : Sign) :
    openingsFrom [] (seen ++ [sign]) = openingsFrom [] seen ++
      if isFresh seen && !sign.isGap && !sign.ends then
        [{ before := seen.flatMap Sign.written, sign }]
      else [] := by
  rw [openingsFrom_append, List.nil_append, openingsFrom, openingsFrom, List.append_nil]

theorem count_snoc (seen : List Sign) (sign : Sign) :
    ((seen ++ [sign]).flatMap Sign.written).count '\n' =
      (seen.flatMap Sign.written).count '\n' + sign.written.count '\n' := by
  rw [List.flatMap_append, List.count_append, List.flatMap_singleton]

/-- A sign that begins no record and adds nothing to one. -/
theorem Follows.idle (h : reader.Follows seen) (hidle : sign.isGap = true ∨ sign.ends = true)
    (hfinish : next.finish = reader.finish)
    (hline : next.line = reader.line + sign.written.count '\n')
    (hrecordLine : next.recordLine = reader.recordLine)
    (hfresh : next.pending = [] ↔ isFresh (seen ++ [sign]) = true) :
    next.Follows (seen ++ [sign]) := by
  have hopenings : openingsFrom [] (seen ++ [sign]) = openingsFrom [] seen := by
    rw [openingsFrom_snoc]
    rcases hidle with hgap | hends
    · simp [hgap]
    · simp [hends]
  constructor
  · rw [count_snoc, hline, h.line_eq, Nat.add_assoc]
  · rw [hopenings, hrecordLine, h.recordLine_eq]
  · rw [hopenings, hfinish, h.lines_eq]
  · rw [hopenings, hfinish]
    exact h.heads
  · exact hfresh

theorem Follows.gap (h : reader.Follows seen) (hgap : sign.isGap = true)
    (hends : sign.ends = false) (hrecords : next.records = reader.records)
    (hpending : next.pending = reader.pending)
    (hline : next.line = reader.line + sign.written.count '\n')
    (hrecordLine : next.recordLine = reader.recordLine) : next.Follows (seen ++ [sign]) := by
  refine h.idle (Or.inl hgap) ?_ hline hrecordLine ?_
  · rw [finish_eq, finish_eq, hrecords, hpending, hrecordLine]
  · rw [hpending, h.fresh_iff, isFresh_snoc, hgap, hends, Bool.false_or, Bool.true_and]

theorem forall₂_snoc_imp {α β : Type*} {R : α → β → Prop} {items : List α} {others : List β}
    {last last' : β} (h : List.Forall₂ R items (others ++ [last]))
    (himp : ∀ item, R item last → R item last') :
    List.Forall₂ R items (others ++ [last']) := by
  induction others generalizing items with
  | nil =>
    obtain ⟨item, rest, hitem, hrest, rfl⟩ := List.forall₂_cons_right_iff.mp h
    exact .cons (himp item hitem) hrest
  | cons other others ih =>
    obtain ⟨item, rest, hitem, hrest, rfl⟩ := List.forall₂_cons_right_iff.mp h
    exact .cons hitem (ih hrest)

theorem isFresh_snoc_of_grows (seen : List Sign) (hgap : sign.isGap = false)
    (hends : sign.ends = false) : isFresh (seen ++ [sign]) = false := by
  rw [isFresh_snoc, hgap, hends, Bool.false_and, Bool.false_or]

/-- A sign that begins a record. -/
theorem Follows.first (h : reader.Follows seen) (hgap : sign.isGap = false)
    (hends : sign.ends = false) (hrecords : next.records = reader.records) {token : Token}
    (hold : reader.pending = []) (hnew : next.pending = [token]) (htoken : sign.Heads token)
    (hline : next.line = reader.line + sign.written.count '\n')
    (hrecordLine : next.recordLine = if sign.isNoted then reader.line else reader.recordLine) :
    next.Follows (seen ++ [sign]) := by
  let opening : Opening := { before := seen.flatMap Sign.written, sign }
  have hopenings : openingsFrom [] (seen ++ [sign]) = openingsFrom [] seen ++ [opening] := by
    rw [openingsFrom_snoc, h.fresh_iff.mp hold, hgap, hends]
    rfl
  have hnoted : next.recordLine =
      if sign.isNoted then opening.line
      else (notedLines 1 (openingsFrom [] seen)).getLastD 1 := by
    rw [hrecordLine, h.recordLine_eq, h.line_eq]
    rfl
  have hfinish : next.finish = reader.finish ++ [⟨next.recordLine, [token]⟩] := by
    rw [next.finish_eq, reader.finish_eq, hrecords, hold, hnew, if_pos rfl, List.append_nil]
    rfl
  constructor
  · rw [count_snoc, hline, h.line_eq, Nat.add_assoc]
  · rw [hopenings, notedLines_snoc, List.getLastD_concat, hnoted]
  · rw [hopenings, notedLines_snoc, hfinish, List.map_append, h.lines_eq, List.map_singleton,
      hnoted]
  · rw [hopenings, hfinish]
    exact List.rel_append h.heads (.cons ⟨token, [], rfl, htoken⟩ .nil)
  · simp [hnew, isFresh_snoc_of_grows seen hgap hends]

/-- A sign that goes on with a record. -/
theorem Follows.further (h : reader.Follows seen) (hgap : sign.isGap = false)
    (hends : sign.ends = false) (hrecords : next.records = reader.records)
    {first first' : Token} {rest rest' : List Token} (hold : reader.pending = first :: rest)
    (hnew : next.pending = first' :: rest')
    (hheads : ∀ other : Sign, other.Heads first → other.Heads first')
    (hline : next.line = reader.line + sign.written.count '\n')
    (hrecordLine : next.recordLine = reader.recordLine) : next.Follows (seen ++ [sign]) := by
  have hbegun : isFresh seen = false := by
    rw [← Bool.not_eq_true, ← h.fresh_iff, hold]
    exact List.cons_ne_nil _ _
  have hopenings : openingsFrom [] (seen ++ [sign]) = openingsFrom [] seen := by
    rw [openingsFrom_snoc, hbegun]
    exact List.append_nil _
  have hfinish : reader.finish =
      reader.records.reverse ++ [⟨reader.recordLine, first :: rest⟩] := by
    rw [finish_eq, hold]
    rfl
  have hfinish' : next.finish =
      reader.records.reverse ++ [⟨reader.recordLine, first' :: rest'⟩] := by
    rw [finish_eq, hnew, hrecords, hrecordLine]
    rfl
  constructor
  · rw [count_snoc, hline, h.line_eq, Nat.add_assoc]
  · rw [hopenings, hrecordLine, h.recordLine_eq]
  · rw [hopenings, ← h.lines_eq, hfinish', hfinish, List.map_append, List.map_append]
    rfl
  · have hheld := h.heads
    rw [hfinish] at hheld
    rw [hopenings, hfinish']
    refine forall₂_snoc_imp hheld ?_
    rintro opening ⟨token, tokens, htokens, htoken⟩
    cases htokens
    exact ⟨first', rest', rfl, hheads _ htoken⟩
  · simp [hnew, isFresh_snoc_of_grows seen hgap hends]

/-- A sign of a record begins the record or goes on with it. -/
theorem Follows.grow (h : reader.Follows seen) (hgap : sign.isGap = false)
    (hends : sign.ends = false) (hrecords : next.records = reader.records)
    (hpending : Grows sign reader.pending next.pending)
    (hline : next.line = reader.line + sign.written.count '\n')
    (hrecordLine : next.recordLine =
      if reader.pending = [] ∧ sign.isNoted = true then reader.line else reader.recordLine) :
    next.Follows (seen ++ [sign]) := by
  generalize hold : reader.pending = old at hpending hrecordLine
  generalize hnew : next.pending = new at hpending
  cases hpending with
  | first htoken =>
    simp only [true_and] at hrecordLine
    exact h.first hgap hends hrecords hold hnew htoken hline hrecordLine
  | further hheads =>
    rw [if_neg fun hnil => List.cons_ne_nil _ _ hnil.1] at hrecordLine
    exact h.further hgap hends hrecords hold hnew hheads hline hrecordLine

/-! ### What the steps do to a record -/

theorem endRecord_keeps (reader : RecordReader) :
    reader.endRecord.pending = [] ∧ reader.endRecord.line = reader.line ∧
      reader.endRecord.recordLine = reader.recordLine := by
  obtain ⟨-, hline, hrecordLine, -, hword⟩ := reader.endWord_keeps
  unfold endRecord
  simp only
  split
  · rename_i hempty
    exact ⟨pending_eq_nil_iff.mpr ⟨hempty, by rw [hword]; rfl⟩, hline, hrecordLine⟩
  · exact ⟨pending_eq_nil_iff.mpr ⟨rfl, by rw [hword]; rfl⟩, hline, hrecordLine⟩

theorem finish_endRecord (reader : RecordReader) : reader.endRecord.finish = reader.finish := by
  rw [finish_eq, reader.endRecord_keeps.1, if_pos rfl, List.append_nil]
  rfl

theorem escaped_endWord (reader : RecordReader) : reader.endWord.escaped = reader.escaped := by
  unfold endWord
  split <;> rfl

/-- Only an unpaired backslash is remembered. -/
theorem escaped_stepPlain {c : Char} (h : reader.escaped = false) (hc : c ≠ '\\') :
    (reader.stepPlain c).escaped = false := by
  unfold stepPlain
  rw [if_neg hc]
  split
  · unfold endRecord
    simp only
    split <;> exact (escaped_endWord reader).trans h
  · split
    · exact (escaped_endWord reader).trans h
    · split
      · exact (escaped_endWord _).trans h
      · exact h

theorem escaped_stepEscaped (reader : RecordReader) (c : Char) :
    (reader.stepEscaped c).escaped = false := by
  unfold stepEscaped
  simp only
  split
  · exact escaped_endWord _
  · split
    · exact escaped_endWord _
    · split
      · exact escaped_endWord _
      · rfl

theorem pending_separate (reader : RecordReader) (token : Token) :
    (reader.separate token).pending = reader.pending ++ [token] := by
  obtain ⟨-, -, -, htokens, hword⟩ := reader.endWord_keeps
  simp only [separate, pending, hword, withWord_nil, htokens, List.reverse_cons]

theorem Grows.snoc (sign : Sign) {token : Token} (h : sign.Heads token) (old : List Token) :
    Grows sign old (old ++ [token]) := by
  cases old with
  | nil => exact .first h
  | cons first rest => exact .further fun _ => id

/-- A word keeps its beginning when it grows. -/
theorem heads_word_snoc {word : List Char} {c : Char} (hword : word ≠ [])
    (h : sign.Heads (.word (String.ofList word))) :
    sign.Heads (.word (String.ofList (word ++ [c]))) := by
  have hhead {first : Char} (hfirst : (String.ofList word).toList.head? = some first) :
      (String.ofList (word ++ [c])).toList.head? = some first := by
    rw [String.toList_ofList] at hfirst ⊢
    rw [List.head?_append_of_ne_nil word hword]
    exact hfirst
  cases h with
  | plain hc hfirst => exact .plain hc (hhead hfirst)
  | escaped hcomma hsemicolon hfirst => exact .escaped hcomma hsemicolon (hhead hfirst)

/-- A character that goes into a word begins the record or goes on with it. -/
theorem grows_extend {c : Char} (h : sign.Heads (.word (String.ofList [c])))
    (htokens : next.tokens = reader.tokens) (hword : next.word = c :: reader.word) :
    Grows sign reader.pending next.pending := by
  have hnext : next.pending =
      reader.tokens.reverse ++ [Token.word (String.ofList (reader.word.reverse ++ [c]))] := by
    simp [pending, withWord, htokens, hword]
  rw [hnext]
  by_cases hempty : reader.word = []
  · have hold : reader.pending = reader.tokens.reverse := by
      simp [pending, withWord, hempty]
    rw [hold, hempty]
    exact .snoc sign h _
  · have hold : reader.pending =
        reader.tokens.reverse ++ [Token.word (String.ofList reader.word.reverse)] := by
      simp [pending, withWord, hempty]
    rw [hold]
    cases reader.tokens.reverse with
    | nil =>
      have hsome : reader.word.reverse ≠ [] := List.reverse_ne_nil_iff.mpr hempty
      exact .further fun _ => heads_word_snoc hsome
    | cons first rest => exact .further fun _ => id

variable {c : Char}

theorem Follows.separate (h : reader.Follows seen) {token : Token} (hgap : sign.isGap = false)
    (hends : sign.ends = false) (hnoted : sign.isNoted = false) (htoken : sign.Heads token)
    (hline : sign.written.count '\n' = 0) :
    (reader.separate token).Follows (seen ++ [sign]) := by
  obtain ⟨hrecords, hkeptLine, hkept, -, -⟩ := reader.endWord_keeps
  refine h.grow hgap hends hrecords ?_ ?_ ?_
  · rw [pending_separate]
    exact .snoc sign htoken _
  · rw [hline]
    exact hkeptLine
  · rw [hnoted, if_neg fun hnot => Bool.false_ne_true hnot.2]
    exact hkept

/-- Reading a character that no backslash precedes. -/
theorem Follows.stepPlain (h : reader.Follows seen) (hc : c ≠ '\\') :
    (reader.stepPlain c).Follows (seen ++ [Sign.plain c]) := by
  obtain ⟨hrecords, hline, hrecordLine, -, -⟩ := reader.endWord_keeps
  unfold RecordReader.stepPlain
  rw [if_neg hc]
  by_cases hsemicolon : c = ';'
  · rw [if_pos hsemicolon, hsemicolon]
    obtain ⟨hpending, hline, hrecordLine⟩ := reader.endRecord_keeps
    refine h.idle (Or.inr rfl) reader.finish_endRecord hline hrecordLine ?_
    simp [hpending, isFresh_snoc, Sign.ends]
  rw [if_neg hsemicolon]
  by_cases hcomma : c = ','
  · rw [if_pos hcomma, hcomma]
    exact h.separate rfl rfl rfl .comma rfl
  rw [if_neg hcomma]
  have hends : (Sign.plain c).ends = false := by simp [Sign.ends, hsemicolon]
  by_cases hblank : isBlank c = true
  · rw [if_pos hblank]
    refine h.gap hblank hends ?_ ?_ ?_ ?_
    · exact (endWord_keeps _).1
    · exact pending_endWord _
    · rw [(endWord_keeps _).2.1]
      by_cases hbreak : c = '\n' <;> simp [Sign.written, hbreak]
    · exact (endWord_keeps _).2.2.1
  · rw [if_neg hblank]
    have hplain : c ≠ '\n' := by
      rintro rfl
      exact hblank rfl
    refine h.grow (Bool.not_eq_true _ ▸ hblank) hends rfl ?_ ?_ ?_
    · exact grows_extend (.plain hcomma (by simp)) rfl rfl
    · simp [Sign.written, hplain]
    · simp [pending_eq_nil_iff, Sign.isNoted, hcomma]

/-- Reading the character behind a backslash. -/
theorem Follows.stepEscaped (h : reader.Follows seen) (c : Char) :
    (reader.stepEscaped c).Follows (seen ++ [Sign.escaped c]) := by
  have hfinish : finish { reader with escaped := false } = reader.finish := by
    rw [finish_eq, finish_eq]
    rfl
  have hplain : Follows { reader with escaped := false } seen :=
    ⟨h.line_eq, h.recordLine_eq, hfinish ▸ h.lines_eq, hfinish ▸ h.heads, h.fresh_iff⟩
  unfold RecordReader.stepEscaped
  simp only
  by_cases hsemicolon : c = ';'
  · rw [if_pos hsemicolon, hsemicolon]
    exact hplain.separate rfl rfl rfl .semicolon rfl
  rw [if_neg hsemicolon]
  by_cases hcomma : c = ','
  · rw [if_pos hcomma, hcomma]
    exact hplain.separate rfl rfl rfl .escapedComma rfl
  rw [if_neg hcomma]
  by_cases hbreak : c = '\n'
  · rw [if_pos hbreak, hbreak]
    refine h.gap rfl rfl ?_ ?_ ?_ ?_
    · exact (endWord_keeps _).1
    · exact pending_endWord _
    · exact (endWord_keeps _).2.1
    · exact (endWord_keeps _).2.2.1
  · rw [if_neg hbreak]
    refine h.grow ?_ rfl rfl ?_ ?_ ?_
    · simp [Sign.isGap, hbreak]
    · exact grows_extend (.escaped hcomma hsemicolon (by simp)) rfl rfl
    · simp [Sign.written, hbreak]
    · simp [Sign.isNoted]

/-- However far a text has been read, the reader has read its signs. -/
theorem Follows.foldl (h : reader.Follows seen) (hplain : reader.escaped = false)
    (text : List Char) : (text.foldl step reader).Follows (seen ++ signs text) := by
  induction text using signs.induct generalizing reader seen with
  | case1 => simpa [signs] using h
  | case2 =>
    have hstep : reader.step '\\' = { reader with escaped := true } := by
      simp [step, RecordReader.stepPlain, hplain]
    rw [signs, if_pos rfl, List.foldl_cons, List.foldl_nil, hstep]
    exact h.gap rfl rfl rfl rfl rfl rfl
  | case3 c hc =>
    have hstep : reader.step c = reader.stepPlain c := by simp [step, hplain]
    rw [signs, if_neg hc, List.foldl_cons, List.foldl_nil, hstep]
    exact h.stepPlain hc
  | case4 d rest ih =>
    have hstep : (reader.step '\\').step d = reader.stepEscaped d := by
      simp [step, RecordReader.stepPlain, RecordReader.stepEscaped, hplain]
    have hescaped : (reader.stepEscaped d).escaped = false := escaped_stepEscaped reader d
    rw [signs, if_pos rfl, List.foldl_cons, List.foldl_cons, hstep, List.append_cons]
    exact ih (h.stepEscaped d) hescaped
  | case5 c d rest hc ih =>
    have hstep : reader.step c = reader.stepPlain c := by simp [step, hplain]
    have hescaped : (reader.stepPlain c).escaped = false := escaped_stepPlain hplain hc
    rw [signs, if_neg hc, List.foldl_cons, hstep, List.append_cons]
    exact ih (h.stepPlain hc) hescaped

theorem follows_start : Follows {} [] :=
  ⟨rfl, rfl, rfl, .nil, by simp [pending, withWord, isFresh]⟩

end RecordReader

/-! ## The lines of a text -/

/-- A text has one record for each place where one begins, on the line that is noted there. -/
theorem follows_readRecords (text : String) :
    (readRecords text).map Record.line = notedLines 1 (openings text) ∧
      List.Forall₂ Opening.Heads (openings text) (readRecords text) := by
  have hread := RecordReader.follows_start.foldl rfl text.toList
  rw [List.nil_append] at hread
  exact ⟨hread.lines_eq, hread.heads⟩

/-- A text that is no patch fails on the line that is noted for its first record. -/
theorem failure_of_readPatch {name path text : String} {dollarZero : Int32} {failure : Failure}
    (h : readPatch name path text dollarZero = .error failure) :
    failure = .invalidPatch path ((notedLines 1 (openings text)).headD 1)
      (if openings text = [] then "empty file" else "missing canvas header") := by
  obtain ⟨hlines, hheads⟩ := follows_readRecords text
  rw [← hlines]
  unfold readPatch at h
  split at h
  · rename_i hrecords
    rw [hrecords] at hheads ⊢
    cases h
    rw [if_pos (List.forall₂_nil_right_iff.mp hheads)]
    rfl
  · rename_i header records hrecords
    rw [hrecords] at hheads ⊢
    split at h
    · cases h
      obtain ⟨opening, rest, -, -, hopenings⟩ := List.forall₂_cons_right_iff.mp hheads
      rw [if_neg (hopenings ▸ List.cons_ne_nil opening rest)]
      rfl
    · cases h

theorem outerRecords_sublist (records : List Record) (depth : Nat) :
    (outerRecords depth records).Sublist records := by
  induction records generalizing depth with
  | nil => exact List.Sublist.refl _
  | cons record rest ih =>
    unfold outerRecords
    split
    · exact (ih _).cons record
    · split
      · exact (ih 0).cons_cons record
      · split
        · exact (ih _).cons record
        · exact (ih _).cons record

theorem mem_readRecords_of_mem_connectRecords {text : String} {record : Record}
    (h : record ∈ connectRecords text) : record ∈ readRecords text := by
  have houter : record ∈ outerRecordsOf text := List.mem_of_mem_filter h
  exact List.mem_of_mem_tail ((outerRecords_sublist _ 0).subset houter)

/-- The lines on which the records of a text are reported. -/
structure ReportsLines (text : String) : Prop where
  /-- The signs of the text are the whole text. -/
  written_eq : (signs text.toList).flatMap Sign.written = text.toList
  /-- There is one record for each place where one begins, and the sign there heads it. -/
  heads : List.Forall₂ Opening.Heads (openings text) (readRecords text)
  /-- The lines of the records are those that are noted for them. -/
  lines_eq : (readRecords text).map Record.line = notedLines 1 (openings text)
  /-- A record that begins with a plain character of a word is on the line where it begins. -/
  line_eq : ∀ (index : Nat) (opening : Opening) (record : Record),
    (openings text)[index]? = some opening → (readRecords text)[index]? = some record →
      opening.sign.isNoted = true → record.line = opening.line
  /-- A text that is no patch fails on the line of its first record, or on the first line. -/
  failure_eq : ∀ name path dollarZero failure,
    readPatch name path text dollarZero = .error failure →
      failure = .invalidPatch path ((notedLines 1 (openings text)).headD 1)
        (if openings text = [] then "empty file" else "missing canvas header")
  /-- A connection that is refused is reported on the line of its record. -/
  refusal : ∀ name path dollarZero patch diagnostics,
    readPatch name path text dollarZero = .ok (patch, diagnostics) →
      ∀ record ∈ connectRecords text, record.joins patch.objects.length = false →
        record.refusal patch.name ∈ diagnostics ∧
          ∃ (index line : Nat) (before after : String), (readRecords text)[index]? = some record ∧
            (notedLines 1 (openings text))[index]? = some line ∧
            record.refusal patch.name = before ++ ("line " ++ toString line) ++ after

/-- Every record is reported on the line noted for it: the line it begins on if a plain
character of a word is its first sign, and otherwise the line of the record before it. -/
theorem reportsLines (text : String) : ReportsLines text := by
  obtain ⟨hlines, hheads⟩ := follows_readRecords text
  have hline {index : Nat} {record : Record} (hrecord : (readRecords text)[index]? = some record) :
      (notedLines 1 (openings text))[index]? = some record.line := by
    rw [← hlines, List.getElem?_map, hrecord]
    rfl
  constructor
  · exact flatMap_written_signs text.toList
  · exact hheads
  · exact hlines
  · intro index opening record hopening hrecord hnoted
    have hnotedLine : (notedLines 1 (openings text))[index]? = some opening.line :=
      getElem?_notedLines hopening hnoted
    rw [hline hrecord] at hnotedLine
    exact Option.some.inj hnotedLine
  · exact fun _ _ _ _ => failure_of_readPatch
  · intro name path dollarZero patch diagnostics hread record hrecord hrefused
    obtain ⟨index, hindex⟩ :=
      List.mem_iff_getElem?.mp (mem_readRecords_of_mem_connectRecords hrecord)
    obtain ⟨before, after, htext⟩ := (connects_of_readPatch hread).lines record hrecord hrefused
    refine ⟨?_, index, record.line, before, after, hindex, hline hindex, htext⟩
    rw [(connects_of_readPatch hread).diagnostics_perm.mem_iff]
    apply List.mem_append_right
    apply List.mem_map_of_mem
    rw [List.mem_filter]
    exact ⟨hrecord, by rw [hrefused]; rfl⟩

/-- A patch text whose last record begins with an escape, on the third line. -/
def escapedOpening : String :=
  "#N canvas 0 0 9 9 10;\n#X obj 0 0 r a;\n\\#X connect 0 0 9 0;\n"

/-- The last record is reported on the second line. -/
theorem lines_differ_escapedOpening :
    (openings escapedOpening).map Opening.line = [1, 2, 3] ∧
      (readRecords escapedOpening).map Record.line = [1, 2, 2] ∧
      (readPatch "a.pd" "/a.pd" escapedOpening 1000).toOption.map Prod.snd =
        some ["a.pd: connection 0 0 9 0 (line 2) refers to a missing object"] := by
  have htext : escapedOpening = String.ofList _ := rfl
  rw [htext, openings, String.toList_ofList, readPatch, readRecords_ofList]
  decide +kernel

end Patchbay
