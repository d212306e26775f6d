import Mathlib.Data.List.Basic
import Patchbay.Patch.Record

/-!
# Records are read back

Writing escapes whatever would end a word, so a text that has been written reads as the
records it was written for. The records that can be written are the well formed ones, and
reading gives no others, whatever the text.

## Implementation notes

Line numbers play no part here. What matters of a reader is what it has read: the finished
records, the finished tokens of the next record and the word that is not finished.
-/

namespace Patchbay

/-- Whether a character can stand in a word. -/
def isWordChar (c : Char) : Bool := c != ';' && c != ',' && c != '\n'

/-- A word is not empty, and all its characters can stand in a word. -/
def Token.WellFormed : Token → Prop
  | .word text => text ≠ "" ∧ ∀ c ∈ text.toList, isWordChar c = true
  | .comma | .semicolon => True

/-- No record is empty, and all tokens are well formed. -/
def WellFormedRecords (records : List (List Token)) : Prop :=
  ∀ tokens ∈ records, tokens ≠ [] ∧ ∀ token ∈ tokens, token.WellFormed

namespace RecordReader
variable {reader : RecordReader} {records : List (List Token)} {tokens : List Token}
  {word : List Char} {c : Char}

/-! ## What has been read -/

/-- The reader is not inside an escape and has read these records, these tokens of the next
record and this part of a word; all lists are newest first. -/
structure Has (reader : RecordReader) (records : List (List Token)) (tokens : List Token)
    (word : List Char) : Prop where
  records_eq : reader.records.map Record.tokens = records
  tokens_eq : reader.tokens = tokens
  word_eq : reader.word = word
  plain : reader.escaped = false

/-- The tokens of a record once its last word has ended. -/
def withWord (tokens : List Token) (word : List Char) : List Token :=
  if word.isEmpty then tokens else .word (String.ofList word.reverse) :: tokens

@[simp] theorem withWord_nil (tokens : List Token) : withWord tokens [] = tokens := rfl

theorem Has.endWord (h : reader.Has records tokens word) :
    reader.endWord.Has records (withWord tokens word) [] := by
  obtain ⟨hrecords, htokens, hword, hplain⟩ := h
  unfold RecordReader.endWord withWord
  rw [hword]
  split
  · rename_i hempty
    exact ⟨hrecords, htokens, hword.trans (List.isEmpty_iff.mp hempty), hplain⟩
  · exact ⟨hrecords, by rw [htokens], rfl, hplain⟩

theorem Has.separate (h : reader.Has records tokens word) (token : Token) :
    (reader.separate token).Has records (token :: withWord tokens word) [] := by
  obtain ⟨hrecords, htokens, hword, hplain⟩ := h.endWord
  exact ⟨hrecords, congrArg (token :: ·) htokens, hword, hplain⟩

theorem Has.endRecord (h : reader.Has records tokens word) (hsome : withWord tokens word ≠ []) :
    reader.endRecord.Has ((withWord tokens word).reverse :: records) [] [] := by
  obtain ⟨hrecords, htokens, hword, hplain⟩ := h.endWord
  have hnonempty : ¬ (withWord tokens word).isEmpty = true := by
    simpa using hsome
  unfold RecordReader.endRecord
  simp only [htokens, if_neg hnonempty]
  exact ⟨by simp [hrecords], rfl, hword, hplain⟩

/-! ## Reading what has been written -/

theorem Has.step_comma (h : reader.Has records tokens word) :
    (reader.step ',').Has records (.comma :: withWord tokens word) [] := by
  have hstep : reader.step ',' = reader.separate .comma := by
    simp [step, stepPlain, h.plain]
  exact hstep ▸ h.separate .comma

theorem Has.step_semicolon (h : reader.Has records tokens word)
    (hsome : withWord tokens word ≠ []) :
    (reader.step ';').Has ((withWord tokens word).reverse :: records) [] [] := by
  have hstep : reader.step ';' = reader.endRecord := by
    simp [step, stepPlain, h.plain]
  exact hstep ▸ h.endRecord hsome

theorem Has.step_blank (h : reader.Has records tokens word) (hblank : isBlank c = true) :
    (reader.step c).Has records (withWord tokens word) [] := by
  have hne (other : Char) (hother : isBlank other = false) : c ≠ other := by
    rintro rfl
    exact absurd hblank (by simp [hother])
  have hstep : reader.step c =
      { reader with line := if c = '\n' then reader.line + 1 else reader.line }.endWord := by
    simp [step, stepPlain, h.plain, hblank, hne '\\' rfl, hne ';' rfl, hne ',' rfl]
  rw [hstep]
  exact Has.endWord ⟨h.records_eq, h.tokens_eq, h.word_eq, h.plain⟩

theorem Has.step_wordChar (h : reader.Has records tokens word) (hc : isWordChar c = true)
    (hplain : c ≠ '\\') (hblank : isBlank c = false) :
    (reader.step c).Has records tokens (c :: word) := by
  simp only [isWordChar, Bool.and_eq_true, bne_iff_ne] at hc
  have hstep : reader.step c =
      { reader with
        recordLine :=
          if reader.tokens.isEmpty && reader.word.isEmpty then reader.line else reader.recordLine
        word := c :: reader.word } := by
    simp [step, stepPlain, h.plain, hplain, hblank, hc]
  rw [hstep]
  exact ⟨h.records_eq, h.tokens_eq, congrArg (c :: ·) h.word_eq, h.plain⟩

/-- A backslash takes the next character into the word. -/
theorem Has.step_escaped (h : reader.Has records tokens word) (hc : isWordChar c = true) :
    ((reader.step '\\').step c).Has records tokens (c :: word) := by
  simp only [isWordChar, Bool.and_eq_true, bne_iff_ne] at hc
  have hstep : (reader.step '\\').step c =
      { reader with escaped := false, word := c :: reader.word } := by
    simp [step, stepPlain, stepEscaped, h.plain, hc]
  rw [hstep]
  exact ⟨h.records_eq, h.tokens_eq, congrArg (c :: ·) h.word_eq, rfl⟩

theorem Has.step_escaped_semicolon (h : reader.Has records tokens word) :
    ((reader.step '\\').step ';').Has records (.semicolon :: withWord tokens word) [] := by
  have hstep : (reader.step '\\').step ';' =
      { reader with escaped := false }.separate .semicolon := by
    simp [step, stepPlain, stepEscaped, h.plain]
  have hplain : Has { reader with escaped := false } records tokens word :=
    ⟨h.records_eq, h.tokens_eq, h.word_eq, rfl⟩
  exact hstep ▸ hplain.separate .semicolon

theorem Has.writeWordChar (h : reader.Has records tokens word) (hc : isWordChar c = true) :
    ((Patchbay.writeWordChar c).foldl step reader).Has records tokens (c :: word) := by
  unfold Patchbay.writeWordChar
  split
  · exact h.step_escaped hc
  · rename_i hnot
    rw [not_or, Bool.not_eq_true] at hnot
    exact h.step_wordChar hc hnot.1 hnot.2

theorem Has.writeWord (h : reader.Has records tokens word) {chars : List Char}
    (hchars : ∀ c ∈ chars, isWordChar c = true) :
    ((chars.flatMap Patchbay.writeWordChar).foldl step reader).Has records tokens
      (chars.reverse ++ word) := by
  induction chars generalizing reader word with
  | nil => exact h
  | cons c rest ih =>
    rw [List.flatMap_cons, List.foldl_append, List.reverse_cons, List.append_assoc]
    exact ih (h.writeWordChar (hchars c List.mem_cons_self)) fun other hother =>
      hchars other (List.mem_cons_of_mem c hother)

/-- Between two tokens a written token is read as the next one. -/
theorem Has.writeToken (h : reader.Has records tokens []) {token : Token}
    (htoken : token.WellFormed) :
    ∃ finished word, (token.write.foldl step reader).Has records finished word ∧
      withWord finished word = token :: tokens := by
  cases token with
  | word text =>
    refine ⟨tokens, text.toList.reverse, ?_, ?_⟩
    · have hread := h.writeWord htoken.2
      rwa [List.append_nil] at hread
    · simp [withWord, htoken.1]
  | comma => exact ⟨_, [], h.step_comma, rfl⟩
  | semicolon => exact ⟨_, [], h.step_escaped_semicolon, rfl⟩

/-- The tokens of a record are read one after the other, and the record ends behind them. -/
theorem Has.writeTokens (h : reader.Has records tokens []) {first : Token} {rest : List Token}
    (hfirst : first.WellFormed) (hrest : ∀ token ∈ rest, token.WellFormed) :
    ((Patchbay.writeTokens (first :: rest)).foldl step reader).Has
      ((tokens.reverse ++ first :: rest) :: records) [] [] := by
  induction rest generalizing reader tokens first with
  | nil =>
    obtain ⟨finished, word, hread, hwith⟩ := h.writeToken hfirst
    have hsome : withWord finished word ≠ [] := by simp [hwith]
    have hended := (hread.step_semicolon hsome).step_blank (c := '\n') rfl
    rw [hwith, List.reverse_cons] at hended
    simpa [Patchbay.writeTokens] using hended
  | cons second rest ih =>
    obtain ⟨finished, word, hread, hwith⟩ := h.writeToken hfirst
    have hspaced := hread.step_blank (c := ' ') rfl
    rw [hwith] at hspaced
    have hnext := ih hspaced (hrest second List.mem_cons_self) fun token htoken =>
      hrest token (List.mem_cons_of_mem second htoken)
    have hsplit : Patchbay.writeTokens (first :: second :: rest) =
        first.write ++ ' ' :: Patchbay.writeTokens (second :: rest) := by
      simp [Patchbay.writeTokens, List.intercalate]
    rw [hsplit, List.foldl_append, List.foldl_cons]
    simpa using hnext

theorem Has.writeRecords (h : reader.Has records [] []) {written : List (List Token)}
    (hwritten : WellFormedRecords written) :
    ((written.flatMap Patchbay.writeTokens).foldl step reader).Has (written.reverse ++ records)
      [] [] := by
  induction written generalizing reader records with
  | nil => exact h
  | cons tokens rest ih =>
    obtain ⟨hsome, htokens⟩ := hwritten tokens List.mem_cons_self
    obtain ⟨first, others, rfl⟩ := List.exists_cons_of_ne_nil hsome
    have hfirst := h.writeTokens (htokens first List.mem_cons_self) fun token htoken =>
      htokens token (List.mem_cons_of_mem first htoken)
    rw [List.flatMap_cons, List.foldl_append, List.reverse_cons, List.append_assoc]
    exact ih hfirst fun other hother => hwritten other (List.mem_cons_of_mem _ hother)

/-! ## Whatever is read is well formed -/

/-- What has been read so far is well formed. -/
structure Sound (reader : RecordReader) : Prop where
  records : WellFormedRecords (reader.records.map Record.tokens)
  tokens : ∀ token ∈ reader.tokens, token.WellFormed
  word : ∀ c ∈ reader.word, isWordChar c = true

theorem Sound.endWord (h : reader.Sound) : reader.endWord.Sound := by
  unfold RecordReader.endWord
  split
  · exact h
  · rename_i hsome
    refine ⟨h.records, ?_, fun c hc => absurd hc List.not_mem_nil⟩
    intro token htoken
    rcases List.mem_cons.mp htoken with rfl | hold
    · refine ⟨?_, fun c hc => h.word c (by simpa using hc)⟩
      simpa [String.ofList_eq_empty_iff] using hsome
    · exact h.tokens token hold

theorem Sound.separate (h : reader.Sound) {token : Token} (htoken : token.WellFormed) :
    (reader.separate token).Sound := by
  refine ⟨h.endWord.records, ?_, h.endWord.word⟩
  intro other hother
  rcases List.mem_cons.mp hother with rfl | hold
  · exact htoken
  · exact h.endWord.tokens other hold

theorem Sound.endRecord (h : reader.Sound) : reader.endRecord.Sound := by
  unfold RecordReader.endRecord
  simp only
  split
  · exact h.endWord
  · rename_i hsome
    refine ⟨?_, fun token htoken => absurd htoken List.not_mem_nil, h.endWord.word⟩
    intro tokens htokens
    rcases List.mem_cons.mp htokens with rfl | hold
    · refine ⟨by simpa using hsome, ?_⟩
      intro token htoken
      exact h.endWord.tokens token (List.mem_reverse.mp htoken)
    · exact h.endWord.records tokens hold

theorem Sound.extend (h : reader.Sound) (hc : isWordChar c = true) :
    ∀ other ∈ c :: reader.word, isWordChar other = true := by
  intro other hother
  rcases List.mem_cons.mp hother with rfl | hold
  · exact hc
  · exact h.word other hold

/-- One more character keeps what has been read well formed. -/
theorem Sound.step (h : reader.Sound) (c : Char) : (reader.step c).Sound := by
  unfold RecordReader.step
  split
  · unfold stepEscaped
    have hplain : Sound { reader with escaped := false } := ⟨h.records, h.tokens, h.word⟩
    simp only
    split
    · exact hplain.separate trivial
    · split
      · exact hplain.separate trivial
      · split
        · exact Sound.endWord ⟨h.records, h.tokens, h.word⟩
        · exact ⟨h.records, h.tokens, h.extend (by simp_all [isWordChar])⟩
  · unfold stepPlain
    split
    · exact ⟨h.records, h.tokens, h.word⟩
    · split
      · exact h.endRecord
      · split
        · exact h.separate trivial
        · split
          · exact Sound.endWord ⟨h.records, h.tokens, h.word⟩
          · rename_i hsemicolon hcomma hblank
            have hnewline : c ≠ '\n' := by
              rintro rfl
              exact hblank rfl
            exact ⟨h.records, h.tokens,
              h.extend (by simp [isWordChar, hsemicolon, hcomma, hnewline])⟩

theorem Sound.foldl (h : reader.Sound) (text : List Char) :
    (text.foldl RecordReader.step reader).Sound := by
  induction text generalizing reader with
  | nil => exact h
  | cons c rest ih => exact ih (h.step c)

end RecordReader

open RecordReader

theorem readRecords_writeRecords {records : List (List Token)} (h : WellFormedRecords records) :
    (readRecords (writeRecords records)).map Record.tokens = records := by
  have hstart : Has {} [] [] [] := ⟨rfl, rfl, rfl, rfl⟩
  have hread := hstart.writeRecords h
  have hfinal : (finish ((records.flatMap writeTokens).foldl step {})).map Record.tokens =
      (((records.flatMap writeTokens).foldl step {}).records.map Record.tokens).reverse := by
    simp [finish, endRecord, endWord, hread.word_eq, hread.tokens_eq]
  rw [readRecords, writeRecords, String.toList_ofList, hfinal, hread.records_eq,
    List.append_nil, List.reverse_reverse]

theorem wellFormedRecords_readRecords (text : String) :
    WellFormedRecords ((readRecords text).map Record.tokens) := by
  have hstart : Sound {} :=
    ⟨fun _ h => absurd h List.not_mem_nil, fun _ h => absurd h List.not_mem_nil,
      fun _ h => absurd h List.not_mem_nil⟩
  have hread := (hstart.foldl text.toList).endRecord.records
  intro tokens htokens
  apply hread
  simpa [readRecords, finish] using htokens

/-- Reading and writing fit together: well formed records are what is read back from the text
that is written for them, every text reads as well formed records, and these are read again
from what is written for them. -/
theorem readRecords_writeRecords_exact :
    (∀ records, WellFormedRecords records →
        (readRecords (writeRecords records)).map Record.tokens = records) ∧
      ∀ text, WellFormedRecords ((readRecords text).map Record.tokens) ∧
        (readRecords (writeRecords ((readRecords text).map Record.tokens))).map Record.tokens =
          (readRecords text).map Record.tokens :=
  ⟨fun _ h => readRecords_writeRecords h, fun text =>
    ⟨wellFormedRecords_readRecords text,
      readRecords_writeRecords (wellFormedRecords_readRecords text)⟩⟩

/-- A record whose words hold a blank, a tab and backslashes, with both separators, and one
with a comma only. -/
theorem readRecords_writeRecords_exact_escapes :
    let records : List (List Token) :=
      [[.word "a b", .comma, .semicolon, .word "\\\t$0"], [.comma]]
    WellFormedRecords records ∧
      writeRecords records = "a\\ b , \\; \\\\\\\t$0;\n,;\n" ∧
      (readRecords (writeRecords records)).map Record.tokens = records ∧
      (readRecords "x\\\ny\\,\\ ;;\\").map Record.tokens =
        [[.word "x", .word "y", .comma, .word " "]] ∧
      WellFormedRecords ((readRecords "x\\\ny\\,\\ ;;\\").map Record.tokens) := by
  have hformed : WellFormedRecords
      [[.word "a b", .comma, .semicolon, .word "\\\t$0"], [.comma]] := by
    simp [WellFormedRecords, Token.WellFormed, isWordChar]
  exact ⟨hformed, by decide, readRecords_writeRecords_exact.1 _ hformed, by decide,
    (readRecords_writeRecords_exact.2 _).1⟩

end Patchbay
