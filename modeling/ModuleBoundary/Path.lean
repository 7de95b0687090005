/-! File paths, as texts of names with slashes between them.

Empty names and the name `.` say nothing and are read over, except for a `.` that
a path begins with. A path is never normalised: what is left of it keeps its text.
-/

set_option autoImplicit false

namespace ModuleBoundary.Path

/-- What a path begins with before its names: the root, the working directory, or nothing. -/
inductive Anchor where
  | root
  | here
  | none
  deriving DecidableEq

def Anchor.text : Anchor → List Char
  | .root => ['/']
  | .here => ['.']
  | .none => []

/-- The anchor of a path and the pieces between the slashes after it. -/
def pieces (path : String) : Anchor × List (List Char) :=
  match path.toList with
  | '/' :: rest => (.root, rest.splitOn '/')
  | ['.'] => (.here, [])
  | '.' :: '/' :: rest => (.here, [] :: rest.splitOn '/')
  | rest => (.none, rest.splitOn '/')

def isSilent (piece : List Char) : Bool := piece == [] || piece == ['.']

/-- Without the silent pieces at the end. -/
def trimEnd (names : List (List Char)) : List (List Char) :=
  (names.reverse.dropWhile isSilent).reverse

/-- The path without its last name. The root and the empty path have none to drop;
from the path `.` it is the dot that is dropped. -/
def parent? (path : String) : Option String :=
  let (anchor, names) := pieces path
  match trimEnd names, anchor with
  | [], .here => some ""
  | [], _ => none
  | kept, anchor =>
    some (String.ofList (anchor.text ++ ['/'].intercalate (trimEnd kept.dropLast)))

/-- The last name of a path, unless that leads up. -/
def name? (path : String) : Option (List Char) :=
  (trimEnd (pieces path).2).getLast?.filter (· != ['.', '.'])

/-- The last name without its extension. A dot that the name begins with starts none. -/
def stem? (path : String) : Option String :=
  (name? path).map fun name =>
    match (name.splitOn '.').dropLast with
    | [] => String.ofList name
    | [[]] => String.ofList name
    | kept => String.ofList (['.'].intercalate kept)

/-- A file in a directory. The empty path is the working directory. -/
def child (directory name : String) : String :=
  match directory.toList.getLast? with
  | none => name
  | some '/' => directory ++ name
  | some _ => directory ++ "/" ++ name

end ModuleBoundary.Path
