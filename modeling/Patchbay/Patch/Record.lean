import Patchbay.Number.Literal
import Patchbay.Text.Blank

/-!
# Records of a patch text

A patch text is a row of records, each ended by a semicolon. Inside a record,
blanks separate words and a comma stands for itself; a backslash takes the next
character into the word, or makes a separator out of a comma or semicolon. A
backslash before a line break only ends the word.

## Implementation notes

The reader goes through the text one character at a time and keeps what it has
so far in reverse. The line of a record is noted when a plain character begins
its first word.
-/

namespace Patchbay

/-- One part of a record. -/
inductive Token where
  | word (text : String)
  | comma
  | semicolon
  deriving DecidableEq, Repr, Inhabited

/-- The text of a word token. -/
def Token.word? : Token → Option String
  | .word text => some text
  | _ => none

/-- A record with the line it was found on. -/
structure Record where
  line : Nat
  tokens : List Token
  deriving DecidableEq, Repr, Inhabited

namespace Record

/-- The word at a position, if there is one. -/
def word? (record : Record) (index : Nat) : Option String :=
  record.tokens[index]?.bind Token.word?

/-- The integer part of the number at a position, zero if there is none. -/
def int (record : Record) (index : Nat) : Int32 :=
  match (record.word? index).bind fun word => Number.readNumber word.toList with
  | some value => Number.truncate value
  | none => 0

/-- What follows the keywords and the position of a record. -/
def body (record : Record) : List Token := record.tokens.drop 4

end Record

/-- What has been read of a patch text. Lists are newest first. -/
structure RecordReader where
  records : List Record := []
  tokens : List Token := []
  word : List Char := []
  /-- Whether the last character was an unpaired backslash. -/
  escaped : Bool := false
  line : Nat := 1
  recordLine : Nat := 1
  deriving DecidableEq, Repr

namespace RecordReader

/-- End the word being read, if there is one. -/
def endWord (reader : RecordReader) : RecordReader :=
  if reader.word.isEmpty then reader
  else
    { reader with
      tokens := .word (String.ofList reader.word.reverse) :: reader.tokens
      word := [] }

/-- End the word being read and add a separator. -/
def separate (reader : RecordReader) (token : Token) : RecordReader :=
  let reader := reader.endWord
  { reader with tokens := token :: reader.tokens }

/-- End the record being read, if there is anything in it. -/
def endRecord (reader : RecordReader) : RecordReader :=
  let reader := reader.endWord
  if reader.tokens.isEmpty then reader
  else
    { reader with
      records := ⟨reader.recordLine, reader.tokens.reverse⟩ :: reader.records
      tokens := [] }

/-- Read the character after a backslash. -/
def stepEscaped (reader : RecordReader) (c : Char) : RecordReader :=
  let reader := { reader with escaped := false }
  if c = ';' then reader.separate .semicolon
  else if c = ',' then reader.separate .comma
  else if c = '\n' then { reader with line := reader.line + 1 }.endWord
  else { reader with word := c :: reader.word }

/-- Read a character that no backslash precedes. -/
def stepPlain (reader : RecordReader) (c : Char) : RecordReader :=
  if c = '\\' then { reader with escaped := true }
  else if c = ';' then reader.endRecord
  else if c = ',' then reader.separate .comma
  else if isBlank c then
    { reader with line := if c = '\n' then reader.line + 1 else reader.line }.endWord
  else
    { reader with
      recordLine :=
        if reader.tokens.isEmpty && reader.word.isEmpty then reader.line else reader.recordLine
      word := c :: reader.word }

/-- Read one character. -/
def step (reader : RecordReader) (c : Char) : RecordReader :=
  if reader.escaped then reader.stepEscaped c else reader.stepPlain c

/-- The records read, in order, with an unfinished one at the end. -/
def finish (reader : RecordReader) : List Record := reader.endRecord.records.reverse

end RecordReader

/-- The records of a patch text. -/
def readRecords (text : String) : List Record :=
  (text.toList.foldl RecordReader.step {}).finish

theorem readRecords_ofList (chars : List Char) :
    readRecords (String.ofList chars) = (chars.foldl RecordReader.step {}).finish := by
  rw [readRecords, String.toList_ofList]

/-- The characters of a text in two parts. -/
theorem append_eq_ofList {first second : String} {front back : List Char}
    (hfirst : first = String.ofList front) (hsecond : second = String.ofList back) :
    first ++ second = String.ofList (front ++ back) := by
  rw [hfirst, hsecond, String.ofList_append]

/-! ## Writing -/

/-- A character of a word as a patch text writes it. -/
def writeWordChar (c : Char) : List Char :=
  if c = '\\' ∨ isBlank c then ['\\', c] else [c]

/-- A token as a patch text writes it. -/
def Token.write : Token → List Char
  | .word text => text.toList.flatMap writeWordChar
  | .comma => [',']
  | .semicolon => ['\\', ';']

/-- The tokens of one record, separated by spaces and ended by a semicolon. -/
def writeTokens (tokens : List Token) : List Char :=
  ([' '].intercalate (tokens.map Token.write)) ++ [';', '\n']

/-- A patch text with the given records. -/
def writeRecords (records : List (List Token)) : String :=
  String.ofList (records.flatMap writeTokens)

/-! ## Showing -/

/-- The text a box shows for its tokens: separated by spaces, except before a
comma. -/
def showTokens (tokens : List Token) : String :=
  tokens.foldl (fun text token =>
    match token with
    | .word word => (if text.isEmpty then text else text ++ " ") ++ word
    | .comma => text ++ ","
    | .semicolon => (if text.isEmpty then text else text ++ " ") ++ ";") ""

end Patchbay
