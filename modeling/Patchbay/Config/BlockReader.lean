import Patchbay.Config.FlowReader

/-!
# Reading documents

Block collections are told by indentation: the entries of one collection begin in
the same column, and what belongs to an entry is indented further. A sequence may
stand in the column of the key it belongs to. Tabs never count as indentation.

## Implementation notes

The text is cut into lines, each with its indentation. An item that begins behind
a dash is read as a line of its own, indented by what stands before it. A scalar
or flow collection that runs over several lines is read from the lines joined
again, and the rest is cut into lines anew. Every call that goes into a part of
the document uses up some fuel; the length of the text is always enough.
-/

namespace Patchbay.Yaml

/-- A line, with its leading spaces counted. -/
structure Line where
  indent : Nat
  content : List Char
  deriving DecidableEq, Repr, Inhabited

/-- A row of characters as a line. -/
def Line.ofChars (chars : List Char) : Line :=
  { indent := (chars.takeWhile (· == ' ')).length, content := chars.dropWhile (· == ' ') }

/-- Cut a text into lines. -/
def splitLines (text : List Char) : List Line := (text.splitOn '\n').map Line.ofChars

/-- Join lines, each after a line break. -/
def joinLines (lines : List Line) : List Char :=
  lines.flatMap fun line => '\n' :: (List.replicate line.indent ' ' ++ line.content)

/-- Whether a line holds nothing, or only a comment. -/
def Line.isBlank (line : Line) : Bool :=
  match line.content with
  | [] => true
  | c :: _ => c == '#'

/-- The lines from the first that holds something. -/
def skipBlank (lines : List Line) : List Line := lines.dropWhile Line.isBlank

/-- Whether nothing but blanks and a comment is left of a line. -/
def onlyComment (text : List Char) : Bool :=
  match text.dropWhile isSpacing with
  | [] => true
  | c :: _ => c == '#'

/-- Whether a sequence entry begins here. -/
def startsEntry : List Char → Bool
  | '-' :: rest => blankNext rest
  | _ => false

/-- The rest of a line after a key and its colon. -/
def afterColon? (text : List Char) : Option (List Char) :=
  match text.dropWhile isSpacing with
  | ':' :: rest => if blankNext rest then some rest else none
  | _ => none

/-- Split a line into a key and what follows its colon. -/
def splitKey? (content : List Char) : Option (Value × List Char) :=
  if startsQuoted content then
    match readQuoted? content with
    | some (text, after) =>
      (afterColon? after).map fun rest => (.scalar false (String.ofList text), rest)
    | none => none
  else if startsPlain content then
    let (text, after) := scanPlain false [] 0 content
    (afterColon? after).map fun rest => (.scalar true (String.ofList text), rest)
  else none

/-! ## Scalars over several lines -/

/-- The lines that go on with a plain scalar, as text, and the lines after it. -/
def continuePlain (least breaks : Nat) : List Line → Option (List Char × List Line)
  | [] => some ([], [])
  | line :: rest =>
    if line.content.isEmpty then
      match continuePlain least (breaks + 1) rest with
      | some ([], _) => some ([], line :: rest)
      | other => other
    else if line.indent < least || line.isBlank then some ([], line :: rest)
    else
      let (text, after) := scanPlain false [] 0 line.content
      if text.isEmpty then none
      else if after.isEmpty || (after.dropWhile isSpacing).isEmpty then
        (continuePlain least 1 rest).map fun (more, rest) =>
          (foldGap [] breaks ++ text ++ more, rest)
      else if onlyComment after then some (foldGap [] breaks ++ text, rest)
      else none

/-- Split what is left after a value into the rest of its line, which has to be
blank, and the lines after it. -/
def endLine? (after : List Char) : Option (List Line) :=
  let rest := after.dropWhile (· != '\n')
  if onlyComment (after.takeWhile (· != '\n')) then
    match rest with
    | [] => some []
    | _ :: rest => some (splitLines rest)
  else none

/-- What a literal block does with the line breaks at its end. -/
inductive Chomping where
  | clip
  | strip
  | keep
  deriving DecidableEq

/-- Read the marks behind the bar of a literal block: what to do at its end, and
its indentation if that is given. -/
def readBlockMarks : List Char → Option (Chomping × Option Nat)
  | '-' :: rest => (readBlockIndent rest).map fun indent => (.strip, indent)
  | '+' :: rest => (readBlockIndent rest).map fun indent => (.keep, indent)
  | c :: rest =>
    if c.isDigit && c != '0' then
      let indent := some (c.toNat - 0x30)
      match rest with
      | '-' :: rest => if onlyComment rest then some (.strip, indent) else none
      | '+' :: rest => if onlyComment rest then some (.keep, indent) else none
      | rest => if onlyComment rest then some (.clip, indent) else none
    else if onlyComment (c :: rest) then some (.clip, none)
    else none
  | [] => some (.clip, none)
where
  /-- Read an optional indentation digit at the end of the marks. -/
  readBlockIndent : List Char → Option (Option Nat)
    | c :: rest =>
      if c.isDigit && c != '0' then
        if onlyComment rest then some (some (c.toNat - 0x30)) else none
      else if onlyComment (c :: rest) then some none
      else none
    | [] => some none

/-- The text lines of a literal block and the lines after it. -/
def literalLines (indent : Nat) : List Line → List (List Char) × List Line
  | [] => ([], [])
  | line :: rest =>
    if line.content.isEmpty || indent ≤ line.indent then
      let (texts, after) := literalLines indent rest
      ((List.replicate (line.indent - indent) ' ' ++ line.content) :: texts, after)
    else ([], line :: rest)

/-- Read a literal block that belongs to an entry indented less than `least`. -/
def readLiteralBlock (least : Nat) (marks : List Char) (rest : List Line) :
    Option (Value × List Line) :=
  (readBlockMarks marks).map fun (chomping, given) =>
    let first := (rest.dropWhile fun line => line.content.isEmpty).head?
    let found := match first with
      | some line => max line.indent least
      | none => least
    let (texts, after) := literalLines ((given.map fun n => least - 1 + n).getD found) rest
    let body := (texts.reverse.dropWhile List.isEmpty).reverse
    let blank := texts.length - body.length
    let text := ['\n'].intercalate body
    let ending := match chomping with
      | .strip => []
      | .clip => if body.isEmpty then [] else ['\n']
      | .keep => List.replicate (if body.isEmpty then blank else blank + 1) '\n'
    (.scalar false (String.ofList (text ++ ending)), after)

/-! ## Values -/

/-- Read a scalar or flow collection that begins on a line and belongs to an entry
indented less than `least`. -/
def readInline (fuel least : Nat) (content : List Char) (rest : List Line) :
    Option (Value × List Line) :=
  match content with
  | [] => none
  | c :: marks =>
    if c = '[' || c = openBrace then
      match readFlow fuel (content ++ joinLines rest) with
      | some (value, after) => (endLine? after).map fun lines => (value, lines)
      | none => none
    else if startsQuoted content then
      match readQuoted? (content ++ joinLines rest) with
      | some (text, after) =>
        (endLine? after).map fun lines => (.scalar false (String.ofList text), lines)
      | none => none
    else if c = '|' then readLiteralBlock least marks rest
    else if startsPlain content then
      let (text, after) := scanPlain false [] 0 content
      if (after.dropWhile isSpacing).isEmpty then
        (continuePlain least 1 rest).map fun (more, lines) =>
          (.scalar true (String.ofList (text ++ more)), lines)
      else if onlyComment after then some (.scalar true (String.ofList text), rest)
      else none
    else none

mutual

/-- Read the value on the next lines that is indented by at least `least`; there is
none if the lines go back further. -/
def readBlock (fuel least : Nat) (lines : List Line) : Option (Value × List Line) :=
  match fuel with
  | 0 => none
  | fuel + 1 =>
    match skipBlank lines with
    | [] => some (.absent, [])
    | line :: rest =>
      if line.indent < least then some (.absent, line :: rest)
      else readAt fuel least line rest

/-- Read the value that begins with a line. -/
def readAt (fuel least : Nat) (line : Line) (rest : List Line) :
    Option (Value × List Line) :=
  match fuel with
  | 0 => none
  | fuel + 1 =>
    if startsEntry line.content then
      (readEntries fuel line.indent (line :: rest)).map fun (items, after) =>
        (.sequence items, after)
    else if (splitKey? line.content).isSome then
      (readPairs fuel line.indent (line :: rest)).map fun (entries, after) =>
        (.mapping entries, after)
    else readInline fuel least line.content rest

/-- Read the entries of a block sequence in a column. -/
def readEntries (fuel column : Nat) (lines : List Line) : Option (List Value × List Line) :=
  match fuel with
  | 0 => none
  | fuel + 1 =>
    match skipBlank lines with
    | [] => some ([], [])
    | line :: rest =>
      if line.indent < column then some ([], line :: rest)
      else if column < line.indent then none
      else if !startsEntry line.content then some ([], line :: rest)
      else
        let item := Line.ofChars (line.content.drop 1)
        let value :=
          if item.isBlank then readBlock fuel (column + 1) rest
          else
            readAt fuel (column + 1) { item with indent := column + 1 + item.indent } rest
        match value with
        | none => none
        | some (value, after) =>
          (readEntries fuel column after).map fun (items, after) => (value :: items, after)

/-- Read the entries of a block mapping in a column. -/
def readPairs (fuel column : Nat) (lines : List Line) :
    Option (List (Value × Value) × List Line) :=
  match fuel with
  | 0 => none
  | fuel + 1 =>
    match skipBlank lines with
    | [] => some ([], [])
    | line :: rest =>
      if line.indent < column then some ([], line :: rest)
      else if column < line.indent then none
      else
        match splitKey? line.content with
        | none => none
        | some (key, after) =>
          let content := after.dropWhile isSpacing
          let value :=
            if onlyComment after then
              match skipBlank rest with
              | next :: others =>
                if next.indent = column && startsEntry next.content then
                  (readEntries fuel column (next :: others)).map fun (items, after) =>
                    (.sequence items, after)
                else readBlock fuel (column + 1) (next :: others)
              | [] => some (.absent, [])
            else readInline fuel (column + 1) content rest
          match value with
          | none => none
          | some (value, after) =>
            (readPairs fuel column after).map fun (entries, after) =>
              ((key, value) :: entries, after)

end

/-! ## Documents -/

/-- Whether a line is a document mark made of three of the given character. -/
def Line.isMark (c : Char) (line : Line) : Bool :=
  line.indent == 0 && line.content.take 3 == [c, c, c] && blankNext (line.content.drop 3)

/-- The lines of the only document of a text, `none` if there are several. -/
def documentLines (lines : List Line) : Option (List Line) :=
  let body :=
    match skipBlank lines with
    | line :: rest =>
      if line.isMark '-' then
        { line with indent := 3, content := line.content.drop 3 } :: rest
      else line :: rest
    | [] => []
  let inside := body.takeWhile fun line => !line.isMark '-' && !line.isMark '.'
  let after := body.drop inside.length
  if (skipBlank (after.dropWhile fun line => line.isMark '.' || line.isBlank)).isEmpty then
    some inside
  else none

/-- Whether a character may stand in a document. -/
def isAllowed (c : Char) : Bool :=
  c = '\t' || c = '\n' || c = '\r' || (' ' ≤ c && c.toNat ≤ 0x7E) || c.toNat = 0x85 ||
    (0xA0 ≤ c.toNat && c.toNat != 0xFFFE && c.toNat != 0xFFFF)

/-- Write every line break as a single line feed. -/
def unifyBreaks : List Char → List Char
  | '\r' :: '\n' :: rest => '\n' :: unifyBreaks rest
  | '\r' :: rest => '\n' :: unifyBreaks rest
  | c :: rest => c :: unifyBreaks rest
  | [] => []

/-- Leave out the byte order mark that a text may begin with. -/
def dropOrderMark : List Char → List Char
  | c :: rest => if c.toNat = 0xFEFF then rest else c :: rest
  | [] => []

/-- Read the value of a document. -/
def readDocument (text : String) : Option Value :=
  let chars := dropOrderMark text.toList
  if !chars.all isAllowed then none
  else
    match documentLines (splitLines (unifyBreaks chars)) with
    | none => none
    | some lines =>
      match skipBlank lines with
      | [] => some .absent
      | first :: rest =>
        let content := first.content.dropWhile isSpacing
        let fuel := 4 * chars.length + 8
        let value :=
          if first.indent = 3 && isSpacing (first.content.headD 'x') then
            if onlyComment content then readBlock fuel 0 rest
            else readInline fuel 0 content rest
          else readBlock fuel 0 (first :: rest)
        match value with
        | some (value, after) => if (skipBlank after).isEmpty then some value else none
        | none => none

end Patchbay.Yaml
