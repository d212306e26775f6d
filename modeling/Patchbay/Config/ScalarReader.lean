import Patchbay.Config.Document

/-!
# Reading scalars

Plain scalars end at a colon or a comment that blanks set off; inside flow
collections they also end at brackets and commas. Line breaks inside a scalar
fold: a single one reads as a space, and of several the first is dropped.
-/

namespace Patchbay.Yaml

/-- The text that blanks and line breaks inside a scalar read as. -/
def foldGap (blanks : List Char) (breaks : Nat) : List Char :=
  match breaks with
  | 0 => blanks
  | 1 => [' ']
  | n + 2 => List.replicate (n + 1) '\n'

/-- Whether a plain scalar ends before `c`. -/
def endsPlain (flow gap : Bool) (c : Char) (rest : List Char) : Bool :=
  (c == ':' && blankNext rest) || (c == '#' && gap) || (flow && flowIndicators.contains c)

/-- Read on in a plain scalar after a gap. The result is the text of the scalar
and what follows it; a gap at the end belongs to neither. -/
def scanPlain (flow : Bool) (blanks : List Char) (breaks : Nat) :
    List Char → List Char × List Char
  | [] => ([], [])
  | c :: rest =>
    if c = '\n' then
      if flow then scanPlain flow [] (breaks + 1) rest else ([], c :: rest)
    else if isSpacing c then
      scanPlain flow (if breaks = 0 then blanks ++ [c] else blanks) breaks rest
    else if endsPlain flow (!blanks.isEmpty || breaks != 0) c rest then ([], c :: rest)
    else
      let (text, after) := scanPlain flow [] 0 rest
      (foldGap blanks breaks ++ c :: text, after)

/-- Read on in a single-quoted scalar, where two quotes stand for one. -/
def scanSingle (blanks : List Char) (breaks : Nat) : List Char → Option (List Char × List Char)
  | [] => none
  | c :: rest =>
    if c = '\n' then scanSingle [] (breaks + 1) rest
    else if isSpacing c then
      scanSingle (if breaks = 0 then blanks ++ [c] else blanks) breaks rest
    else if c = singleQuote then
      match rest with
      | d :: rest' =>
        if d = singleQuote then
          (scanSingle [] 0 rest').map fun (text, after) =>
            (foldGap blanks breaks ++ c :: text, after)
        else some (foldGap blanks breaks, rest)
      | [] => some (foldGap blanks breaks, [])
    else
      (scanSingle [] 0 rest).map fun (text, after) => (foldGap blanks breaks ++ c :: text, after)

theorem scanSingle_cons {c : Char} (hbreak : c ≠ '\n') (hquote : c ≠ singleQuote)
    (blanks rest : List Char) :
    scanSingle blanks 0 (c :: rest) =
      if isSpacing c then scanSingle (blanks ++ [c]) 0 rest
      else (scanSingle [] 0 rest).map fun (text, after) => (blanks ++ c :: text, after) := by
  rw [scanSingle.eq_def]
  simp only [hbreak, hquote, ↓reduceIte, foldGap]

/-- The value of a hexadecimal digit. -/
def hexValue? (c : Char) : Option Nat :=
  if c.isDigit then some (c.toNat - 0x30)
  else if 'a' ≤ c ∧ c ≤ 'f' then some (c.toNat - 0x61 + 10)
  else if 'A' ≤ c ∧ c ≤ 'F' then some (c.toNat - 0x41 + 10)
  else none

/-- The character with a given number, if there is one. -/
def char? (n : Nat) : Option Char := if n.isValidChar then some (Char.ofNat n) else none

/-- The characters that a single letter escapes in a double-quoted scalar. -/
def namedEscapes : List (Char × Nat) :=
  [('0', 0x00), ('a', 0x07), ('b', 0x08), ('t', 0x09), ('\t', 0x09), ('n', 0x0A), ('v', 0x0B),
    ('f', 0x0C), ('r', 0x0D), ('e', 0x1B), (' ', 0x20), (doubleQuote, 0x22), ('/', 0x2F),
    ('\\', 0x5C), ('N', 0x85), ('_', 0xA0), ('L', 0x2028), ('P', 0x2029)]

/-- How many hexadecimal digits follow the letter of a numbered escape. -/
def numberedEscape? (c : Char) : Option Nat :=
  if c = 'x' then some 2 else if c = 'u' then some 4 else if c = 'U' then some 8 else none

/-- What is being read of a double-quoted scalar. -/
inductive DoubleMode where
  | text
  /-- After a backslash. -/
  | escape
  /-- Inside a numbered escape, with the digits still to come. -/
  | number (digits value : Nat)
  /-- After an escaped line break, where blanks are passed over. -/
  | joined

/-- Read on in a double-quoted scalar. -/
def scanDouble (mode : DoubleMode) (blanks : List Char) (breaks : Nat) :
    List Char → Option (List Char × List Char)
  | [] => none
  | c :: rest =>
    match mode with
    | .escape =>
      if c = '\n' then
        (scanDouble .joined [] 0 rest).map fun (text, after) => (blanks ++ text, after)
      else
        match numberedEscape? c with
        | some digits => scanDouble (.number digits 0) blanks breaks rest
        | none =>
          match namedEscapes.lookup c with
          | some n =>
            (scanDouble .text [] 0 rest).map fun (text, after) =>
              (foldGap blanks breaks ++ Char.ofNat n :: text, after)
          | none => none
    | .number digits value =>
      match hexValue? c with
      | some digit =>
        if digits = 1 then
          match char? (16 * value + digit) with
          | some named =>
            (scanDouble .text [] 0 rest).map fun (text, after) =>
              (foldGap blanks breaks ++ named :: text, after)
          | none => none
        else scanDouble (.number (digits - 1) (16 * value + digit)) blanks breaks rest
      | none => none
    | .joined =>
      if isSpacing c then scanDouble .joined [] 0 rest
      else if c = '\n' then scanDouble .text [] (breaks + 1) rest
      else if c = doubleQuote then some ([], rest)
      else if c = '\\' then scanDouble .escape [] 0 rest
      else (scanDouble .text [] 0 rest).map fun (text, after) => (c :: text, after)
    | .text =>
      if c = '\n' then scanDouble .text [] (breaks + 1) rest
      else if isSpacing c then
        scanDouble .text (if breaks = 0 then blanks ++ [c] else blanks) breaks rest
      else if c = doubleQuote then some (foldGap blanks breaks, rest)
      else if c = '\\' then scanDouble .escape blanks breaks rest
      else
        (scanDouble .text [] 0 rest).map fun (text, after) =>
          (foldGap blanks breaks ++ c :: text, after)

theorem scanDouble_backslash (blanks rest : List Char) :
    scanDouble .text blanks 0 ('\\' :: rest) = scanDouble .escape blanks 0 rest := by
  rw [scanDouble]
  rfl

/-- Read a quoted scalar that begins here. -/
def readQuoted? : List Char → Option (List Char × List Char)
  | c :: rest =>
    if c = singleQuote then scanSingle [] 0 rest
    else if c = doubleQuote then scanDouble .text [] 0 rest
    else none
  | [] => none

/-- Whether a quoted scalar begins here. -/
def startsQuoted : List Char → Bool
  | c :: _ => c = singleQuote || c = doubleQuote
  | [] => false

end Patchbay.Yaml
