import Patchbay.Config.Document
import Patchbay.Text.Integer
import Patchbay.Number.Literal

/-!
# Writing scalars

A text is written plain where it reads back as the same text. Texts that would
read as nothing, a truth value or a number are put between single quotes, and so
are texts that plain scalars cannot hold; characters that need an escape call for
double quotes.
-/

namespace Patchbay.Yaml

/-! ## What a plain scalar would read as -/

/-- Plain texts that stand for nothing. -/
def nullWords : List String := ["", "~", "null", "Null", "NULL"]

/-- Plain texts that stand, or used to stand, for a truth value. -/
def truthWords : List String :=
  ["y", "Y", "yes", "Yes", "YES", "n", "N", "no", "No", "NO", "true", "True", "TRUE", "false",
    "False", "FALSE", "on", "On", "ON", "off", "Off", "OFF"]

/-- Plain texts that stand for an infinity or for no number. -/
def specialNumbers : List String :=
  [".inf", ".Inf", ".INF", "+.inf", "+.Inf", "+.INF", "-.inf", "-.Inf", "-.INF", ".nan", ".NaN",
    ".NAN"]

/-- The value of a digit in some base up to sixteen. -/
def digitIn? (base : Nat) (c : Char) : Option Nat :=
  let value :=
    if c.isDigit then c.toNat - 0x30
    else if 'a' ≤ c ∧ c ≤ 'f' then c.toNat - 0x61 + 10
    else if 'A' ≤ c ∧ c ≤ 'F' then c.toNat - 0x41 + 10
    else base
  if value < base then some value else none

/-- The number a word of digits denotes in some base. -/
def readBase? (base : Nat) (digits : List Char) : Option Nat :=
  if digits.isEmpty then none
  else digits.foldl (fun value c =>
    match value, digitIn? base c with
    | some value, some digit => some (base * value + digit)
    | _, _ => none) (some 0)

/-- Whether a text is a number only because of its digits: with a leading zero it
counts as text. -/
def hasLeadingZero (text : List Char) : Bool :=
  let digits := match text with
    | '-' :: rest => rest
    | '+' :: rest => rest
    | text => text
  match digits with
  | '0' :: c :: rest => (c :: rest).all Char.isDigit
  | _ => false

/-- The base that the beginning of a number names, and the digits after it. -/
def splitBase? : List Char → Option (Nat × List Char)
  | '0' :: 'x' :: rest => some (16, rest)
  | '0' :: 'o' :: rest => some (8, rest)
  | '0' :: 'b' :: rest => some (2, rest)
  | _ => none

/-- Read digits with an optional base, keeping below a bound. -/
def readMagnitude? (bound : Nat) (text : List Char) (zeros : Bool) : Option Nat :=
  let value :=
    match splitBase? text with
    | some (base, digits) => readBase? base digits
    | none => if zeros then none else readBase? 10 text
  match value with
  | some n => if n < bound then some n else none
  | none => none

/-- Read an unsigned number as a plain scalar writes it: with an optional plus
sign, and in base two, eight or sixteen if it says so. -/
def readUnsigned? (bound : Nat) (text : List Char) : Option Nat :=
  let digits := match text with
    | '+' :: rest => rest
    | text => text
  readMagnitude? bound digits (hasLeadingZero text)

/-- Whether a text reads as an integer of up to 128 bits. -/
def readsAsInteger (text : List Char) : Bool :=
  (readUnsigned? (Nat.pow 2 128) text).isSome ||
    match text with
    | '-' :: rest => (readMagnitude? (Nat.pow 2 127 + 1) rest (hasLeadingZero text)).isSome
    | _ => false

/-- The decimals that round to infinity in double precision start here. -/
def doubleBound : Nat := Nat.pow 2 1024 - Nat.pow 2 970

/-- Whether a decimal literal is finite in double precision. -/
def isFiniteDouble (literal : Number.Literal) : Bool :=
  if literal.digits = 0 then true
  else if 400 < literal.span then false
  else match literal.exponent with
    | .ofNat e => literal.digits * Nat.pow 10 e < doubleBound
    | .negSucc e =>
      if literal.span < -400 then true
      else literal.digits < doubleBound * Nat.pow 10 (e + 1)

/-- Whether a text reads as a finite decimal. -/
def readsAsDecimal (text : List Char) : Bool :=
  let unsigned := match text with
    | '+' :: '+' :: _ => []
    | '+' :: '-' :: _ => []
    | text => text
  match Number.readLiteral unsigned with
  | some literal => isFiniteDouble literal
  | none => false

/-- Whether a plain scalar with this text would not read as text. -/
def readsAsOther (text : String) : Bool :=
  nullWords.contains text || truthWords.contains text || specialNumbers.contains text ||
    readsAsInteger text.toList || readsAsDecimal text.toList || hasLeadingZero text.toList

/-! ## What plain and quoted scalars can hold -/

/-- Whether a character can be written as itself. -/
def isPrintable (c : Char) : Bool :=
  (0x20 ≤ c.toNat && c.toNat ≤ 0x7E) || (0xA0 ≤ c.toNat && c.toNat ≤ 0xFFFD && c.toNat != 0xFEFF)

/-- Whether a character breaks lines. -/
def isLineBreak (c : Char) : Bool :=
  c = '\n' || c = '\r' || c.toNat = 0x85 || c.toNat = 0x2028 || c.toNat = 0x2029

/-- Whether a blank, a line break or the end comes next. -/
def gapNext : List Char → Bool
  | [] => true
  | c :: _ => isSpacing c || isLineBreak c || c.toNat = 0

/-- Whether a text, from some place on, has a character that means something
there; `gap` tells whether a gap is before that place. -/
def hasInnerIndicator (gap : Bool) : List Char → Bool
  | [] => false
  | c :: rest =>
    (c = ':' && gapNext rest) || (c = '#' && gap) ||
      hasInnerIndicator (isSpacing c || isLineBreak c || c.toNat = 0) rest

/-- Whether the first character of a text means something there. -/
def hasFirstIndicator : List Char → Bool
  | [] => false
  | c :: rest => startIndicators.contains c || (['-', '?', ':'].contains c && gapNext rest)

/-- Whether a text begins like a document mark. -/
def hasMark (text : List Char) : Bool :=
  ['-', '-', '-'].isPrefixOf text || ['.', '.', '.'].isPrefixOf text

/-- Whether a plain scalar can hold a text. -/
def fitsPlain (text : List Char) : Bool :=
  !hasFirstIndicator text && !hasInnerIndicator false text && !hasMark text &&
    text.head? != some ' ' && text.getLast? != some ' ' &&
    text.all fun c => isPrintable c && !isLineBreak c

/-- Whether a space comes right before a line break. -/
def hasSpaceBeforeBreak : List Char → Bool
  | c :: d :: rest => (c = ' ' && isLineBreak d) || hasSpaceBeforeBreak (d :: rest)
  | _ => false

/-- Whether a space comes right after a line break. -/
def hasSpaceAfterBreak : List Char → Bool
  | c :: d :: rest => (isLineBreak c && d = ' ') || hasSpaceAfterBreak (d :: rest)
  | _ => false

/-- Whether single quotes can hold a text. -/
def fitsSingle (text : List Char) : Bool :=
  (text.all fun c => isPrintable c || c = '\n') && !hasSpaceBeforeBreak text &&
    !hasSpaceAfterBreak text

/-- Whether a literal block can hold a text. -/
def fitsLiteral (text : List Char) : Bool :=
  (text.all fun c => isPrintable c || c = '\n' || c = '\t') && !hasSpaceBeforeBreak text &&
    text.getLast? != some ' '

/-! ## Writing -/

/-- A text between single quotes. -/
def writeSingle (text : List Char) : List Char :=
  [singleQuote] ++ (text.flatMap fun c => if c = singleQuote then [c, c] else [c]) ++
    [singleQuote]

/-- A hexadecimal number in capital letters, with leading zeros. -/
def writeHex (width n : Nat) : List Char :=
  let digits := (Nat.toDigits 16 n).map Char.toUpper
  List.replicate (width - digits.length) '0' ++ digits

/-- The escapes that double-quoted scalars are written with. -/
def writtenEscapes : List (Nat × Char) :=
  [(0x00, '0'), (0x07, 'a'), (0x08, 'b'), (0x09, 't'), (0x0A, 'n'), (0x0B, 'v'), (0x0C, 'f'),
    (0x0D, 'r'), (0x1B, 'e'), (0x22, doubleQuote), (0x5C, '\\'), (0x85, 'N'), (0xA0, '_'),
    (0x2028, 'L'), (0x2029, 'P')]

/-- A character between double quotes. -/
def writeDoubleChar (c : Char) : List Char :=
  if isPrintable c && !isLineBreak c && c != doubleQuote && c != '\\' then [c]
  else
    match writtenEscapes.lookup c.toNat with
    | some letter => ['\\', letter]
    | none =>
      if c.toNat ≤ 0xFF then ['\\', 'x'] ++ writeHex 2 c.toNat
      else if c.toNat ≤ 0xFFFF then ['\\', 'u'] ++ writeHex 4 c.toNat
      else ['\\', 'U'] ++ writeHex 8 c.toNat

/-- A text between double quotes. -/
def writeDouble (text : List Char) : List Char :=
  [doubleQuote] ++ text.flatMap writeDoubleChar ++ [doubleQuote]

/-- A text as a literal block, indented by two. -/
def writeLiteralBlock (text : List Char) : List Char :=
  let hint := match text with
    | c :: _ => if c = ' ' || isLineBreak c then ['2'] else []
    | [] => []
  let chomping := match text.reverse with
    | '\n' :: '\n' :: _ => ['+']
    | ['\n'] => ['+']
    | '\n' :: _ => []
    | _ => ['-']
  let lines := (text.splitOn '\n').map fun line =>
    if line.isEmpty then [] else ' ' :: ' ' :: line
  let body := ['\n'].intercalate lines
  let body := if text.getLast? = some '\n' then body.dropLast else body
  '|' :: (hint ++ chomping ++ '\n' :: body)

/-- A text as a scalar of a block collection. -/
def writeScalar (text : String) : List Char :=
  let chars := text.toList
  if chars.contains '\n' && !truthWords.contains text then
    if fitsLiteral chars then writeLiteralBlock chars else writeDouble chars
  else if !readsAsOther text && fitsPlain chars then chars
  else if fitsSingle chars then writeSingle chars
  else writeDouble chars

end Patchbay.Yaml
