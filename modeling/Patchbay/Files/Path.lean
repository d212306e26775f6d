/-!
# File paths

Paths are texts with components between slashes. Joining and splitting work on
the text alone and leave it otherwise as it was written; only trailing slashes
and trailing `.` components are passed over.
-/

namespace Patchbay.Path

/-- Whether a path starts at the root. -/
def isAbsolute (path : String) : Bool := path.toList.head? == some '/'

/-- `path` taken relative to `base`. -/
def join (base path : String) : String :=
  if isAbsolute path || base.isEmpty then path
  else if base.toList.getLast? == some '/' then base ++ path
  else base ++ "/" ++ path

/-- The texts between the slashes of a path. -/
def segments (path : List Char) : List (List Char) := path.splitOn '/'

/-- Whether a segment stands for the directory it is found in. -/
def isTrivial (segment : List Char) : Bool := segment == [] || segment == ['.']

/-- Leave out trivial segments at the end. -/
def trimEnd (segments : List (List Char)) : List (List Char) :=
  (segments.reverse.dropWhile isTrivial).reverse

/-- Split off the root or a leading `.`, which no trimming removes. -/
def splitStart : List Char → List Char × List Char
  | '/' :: rest => (['/'], rest)
  | ['.'] => (['.'], [])
  | '.' :: '/' :: rest => (['.'], '/' :: rest)
  | path => ([], path)

/-- The last component of a path, if it names something. -/
def fileName? (path : String) : Option String :=
  match (trimEnd (segments (splitStart path.toList).2)).getLast? with
  | some name => if name = ['.', '.'] then none else some (String.ofList name)
  | none => none

/-- The path without its last component, `none` for the root and for the empty
path. -/
def parent? (path : String) : Option String :=
  let (start, rest) := splitStart path.toList
  match (trimEnd (segments rest)).reverse with
  | _ :: before =>
    some (String.ofList (start ++ ['/'].intercalate (trimEnd before.reverse)))
  | [] => if start = ['.'] then some "" else none

end Patchbay.Path
