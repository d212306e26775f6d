import Patchbay.Config.ScalarReader

/-!
# Reading flow collections

Sequences between square brackets and mappings between braces, which may run over
several lines. A sequence item may be a single pair; an item or value may be left
out only where the brackets allow it. A plain scalar keeps a colon inside it, but
must not end in one.
-/

namespace Patchbay.Yaml

/-- The brace that opens a mapping. -/
def openBrace : Char := Char.ofNat 0x7B

/-- The brace that closes a mapping. -/
def closeBrace : Char := Char.ofNat 0x7D

/-- Pass over blanks, line breaks and comments. -/
def skipSpace (comment : Bool) : List Char → List Char
  | [] => []
  | c :: rest =>
    if comment then skipSpace (c != '\n') rest
    else if isSpacing c || c = '\n' then skipSpace false rest
    else if c = '#' then skipSpace true rest
    else c :: rest

mutual

/-- Read a value inside a flow collection. -/
def readFlow (fuel : Nat) (text : List Char) : Option (Value × List Char) :=
  match fuel with
  | 0 => none
  | fuel + 1 =>
    match text with
    | [] => none
    | c :: rest =>
      if c = '[' then
        (readFlowItems fuel rest).map fun (items, after) => (.sequence items, after)
      else if c = openBrace then
        (readFlowEntries fuel rest).map fun (entries, after) => (.mapping entries, after)
      else if startsQuoted text then
        (readQuoted? text).map fun (content, after) =>
          (.scalar false (String.ofList content), after)
      else if startsPlain text && c != ':' && c != '?' then
        let (content, after) := scanPlain true [] 0 text
        if content.getLast? = some ':' then none
        else some (.scalar true (String.ofList content), after)
      else none

/-- Read the rest of a flow sequence. -/
def readFlowItems (fuel : Nat) (text : List Char) : Option (List Value × List Char) :=
  match fuel with
  | 0 => none
  | fuel + 1 =>
    match skipSpace false text with
    | ']' :: rest => some ([], rest)
    | text =>
      match readFlow fuel text with
      | none => none
      | some (value, after) =>
        match readPairValue fuel after with
        | none => none
        | some (paired, after) =>
          let item := match paired with
            | some second => .mapping [(value, second)]
            | none => value
          match after with
          | ']' :: rest => some ([item], rest)
          | ',' :: rest =>
            (readFlowItems fuel rest).map fun (items, after) => (item :: items, after)
          | _ => none

/-- Read the rest of a flow mapping. -/
def readFlowEntries (fuel : Nat) (text : List Char) :
    Option (List (Value × Value) × List Char) :=
  match fuel with
  | 0 => none
  | fuel + 1 =>
    match skipSpace false text with
    | [] => none
    | c :: rest =>
      if c = closeBrace then some ([], rest)
      else
        match readFlow fuel (c :: rest) with
        | none => none
        | some (key, after) =>
          match readPairValue fuel after with
          | none => none
          | some (paired, after) =>
            let entry := (key, paired.getD .absent)
            match after with
            | [] => none
            | d :: rest =>
              if d = closeBrace then some ([entry], rest)
              else if d = ',' then
                (readFlowEntries fuel rest).map fun (entries, after) => (entry :: entries, after)
              else none

/-- Read a colon and the value after it, if a colon comes next. It has to stand on
the line on which the key ends. -/
def readPairValue (fuel : Nat) (text : List Char) : Option (Option Value × List Char) :=
  match fuel with
  | 0 => none
  | fuel + 1 =>
    match text.dropWhile isSpacing with
    | ':' :: rest =>
      match skipSpace false rest with
      | [] => none
      | c :: after =>
        if c = ',' || c = ']' || c = closeBrace then some (some .absent, c :: after)
        else
          (readFlow fuel (c :: after)).map fun (value, after) =>
            (some value, skipSpace false after)
    | text =>
      match skipSpace false text with
      | ':' :: _ => none
      | text => some (none, text)

end

end Patchbay.Yaml
