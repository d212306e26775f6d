import Patchbay.Host.Environment
import Patchbay.Intern

/-!
# The names in a patch

Reading a patch uses names: each word that is a symbol, each tie and label of an object,
and the class of every box. A name is numbered when it is used for the first time, so
the uses are listed in the order of the text.

## Implementation notes

The empty name has its number from the start, so a use of it makes no difference. It
stands where an object could have a name and has none.
-/

namespace Patchbay

/-- A use of a name. -/
inductive NameUse where
  | symbol (name : Symbol)
  | tie (name : Tie)
  deriving DecidableEq, Repr

namespace NameTables

/-- Number a name that is used. -/
def note (tables : NameTables) : NameUse → NameTables
  | .symbol name => (tables.internSymbol name).1
  | .tie name => (tables.internTie name).1

/-- Number names in the order of their uses. -/
def noteAll (tables : NameTables) (uses : List NameUse) : NameTables := uses.foldl note tables

end NameTables

/-- The use that an atom made from a word makes of it. -/
def Atom.nameUses : Atom → List NameUse
  | .symbol name => [.symbol name]
  | _ => []

/-- The names that an object takes from its creation arguments. -/
def Node.nameUses : Node → List NameUse
  | .receive tie | .send tie => [.tie tie]
  | .gui state => [.tie state.send, .tie state.receive, .symbol state.label]
  | _ => []

/-- The names in the text of a message box, where a word may be the tie of its piece. -/
def messageBoxUses (dollarZero : Int32) : (awaitsTarget : Bool) → List Token → List NameUse
  | _, [] => []
  | true, .word word :: rest =>
    .tie ⟨expandName word dollarZero⟩ :: messageBoxUses dollarZero false rest
  | false, .word word :: rest =>
    (expandWord word dollarZero).nameUses ++ messageBoxUses dollarZero false rest
  | awaitsTarget, .comma :: rest => messageBoxUses dollarZero awaitsTarget rest
  | _, .semicolon :: rest => messageBoxUses dollarZero true rest

namespace Canvas

/-- The names in an `obj` record: those of its arguments, of its node and its class. -/
def objectUses (canvas : Canvas) (record : Record) : List NameUse :=
  let arguments := ((splitColumns record.body).1.drop 1).filterMap fun token =>
    token.word?.map fun word => expandWord word canvas.dollarZero
  let object := (canvas.object record).1
  arguments.flatMap Atom.nameUses ++ object.node.nameUses ++ [.symbol object.name]

/-- The names in a record outside every nested canvas. -/
def outerUses (canvas : Canvas) (record : Record) : List NameUse :=
  if record.word? 0 = some "#X" then
    match record.word? 1 with
    | some "obj" => canvas.objectUses record
    | some "msg" =>
      messageBoxUses canvas.dollarZero false record.body ++
        [.symbol (canvas.messageBox record).name]
    | some "text" => [.symbol (canvas.comment record).name]
    | some "floatatom" => [.symbol (canvas.entryBox "floatatom" record).name]
    | some "symbolatom" => [.symbol (canvas.entryBox "symbolatom" record).name]
    | some "listbox" => [.symbol (canvas.entryBox "listbox" record).name]
    | _ => []
  else []

/-- The names in the next record. A nested canvas uses the name of its box only. -/
def recordUses (canvas : Canvas) (reader : PatchReader) (record : Record) : List NameUse :=
  if PatchReader.opensCanvas record then []
  else match reader.depth with
    | 0 => canvas.outerUses record
    | depth + 1 =>
      if PatchReader.closesCanvas record && depth == 0 then
        [.symbol (canvas.nested record).name]
      else []

/-- The names in the records that are left to read. -/
def usesFrom (canvas : Canvas) : PatchReader → List Record → List NameUse
  | _, [] => []
  | reader, record :: rest =>
    canvas.recordUses reader record ++ canvas.usesFrom (reader.step canvas record) rest

end Canvas

/-- The names that reading a patch text uses, none before its canvas header is found. -/
def readingUses (name text : String) (dollarZero : Int32) : List NameUse :=
  match readRecords text with
  | [] => []
  | header :: records =>
    if !PatchReader.opensCanvas header then []
    else
      let fontSize := if header.int 6 = 0 then 10 else header.int 6
      Canvas.usesFrom { name, dollarZero, fontSize } {} records

/-- The names that reading a patch file uses. -/
def Environment.readingUses (environment : Environment) (path : String) : List NameUse :=
  match environment.files.readText? path with
  | some text =>
    Patchbay.readingUses ((Path.fileName? path).getD "") text environment.nextDollarZero
  | none => []

end Patchbay
