/-!
# Configuration documents

The part of YAML that configuration files are written in: mappings and sequences,
in block or flow form, of scalars that are plain or quoted. A plain scalar may be
read as a number; quoted text is always text.
-/

namespace Patchbay.Yaml

/-- A part of a document. -/
inductive Value where
  | scalar (plain : Bool) (text : String)
  | sequence (items : List Value)
  | mapping (entries : List (Value × Value))
  deriving Inhabited

/-- A value that is left out. -/
def Value.absent : Value := .scalar true ""

/-- A space or a tab. -/
def isSpacing (c : Char) : Bool := c = ' ' || c = '\t'

/-- Whether a blank or the end of the line comes next. -/
def blankNext : List Char → Bool
  | [] => true
  | c :: _ => isSpacing c || c = '\n'

/-- The single quote. -/
def singleQuote : Char := Char.ofNat 0x27

/-- The double quote. -/
def doubleQuote : Char := Char.ofNat 0x22

/-- Characters that end a plain scalar inside a flow collection. -/
def flowIndicators : List Char := [',', '[', ']', Char.ofNat 0x7B, Char.ofNat 0x7D]

/-- Characters that no plain scalar begins with. -/
def startIndicators : List Char :=
  flowIndicators ++
    ['#', '&', '*', '!', '|', '>', '%', '@', Char.ofNat 0x60, singleQuote, doubleQuote]

/-- Whether a plain scalar can begin here. -/
def startsPlain : List Char → Bool
  | [] => false
  | c :: rest =>
    !startIndicators.contains c && !isSpacing c && c != '\n' &&
      !(['-', '?', ':'].contains c && blankNext rest)

end Patchbay.Yaml
