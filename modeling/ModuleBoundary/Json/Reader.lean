import ModuleBoundary.Json.Token

/-! Reading JSON documents.

The reader is a machine that takes one token at a time. What is open around the
place reached is a stack of frames, so nesting has no limit and each token costs
the same.
-/

set_option autoImplicit false

namespace ModuleBoundary.Json

open Text (Letter)

/-- A member whose key may be unreadable. -/
abbrev Member := Option String × Json

/-- A container that is still open; its complete parts are in reverse order. -/
inductive Frame where
  | list (items : List Json)
  | object (members : List Member) (key : Option String)

/-- The place reached. `first` says that an open container may be closed at once. -/
inductive Reading where
  | awaitValue (frames : List Frame) (first : Bool)
  | awaitKey (frames : List Frame) (members : List Member) (first : Bool)
  | awaitColon (frames : List Frame) (members : List Member) (key : Option String)
  | afterValue (frames : List Frame) (value : Json)

/-- An object one of whose keys is unreadable has no members that could be asked for. -/
def ofMembers (members : List Member) : Json :=
  match members.mapM fun (key?, value) => key?.map (·, value) with
  | some members => .object members
  | none => .leaf .unreadable

def Reading.step : Reading → Token → Option Reading
  | .awaitValue frames _, .leaf value => some (.afterValue frames (.leaf value))
  | .awaitValue frames _, .openList => some (.awaitValue (.list [] :: frames) true)
  | .awaitValue frames _, .openObject => some (.awaitKey frames [] true)
  | .awaitValue (.list _ :: frames) true, .closeList => some (.afterValue frames (.list []))
  | .awaitKey frames members _, .leaf (.text key) => some (.awaitColon frames members (some key))
  | .awaitKey frames members _, .leaf .unreadable => some (.awaitColon frames members none)
  | .awaitKey frames _ true, .closeObject => some (.afterValue frames (.object []))
  | .awaitColon frames members key, .colon => some (.awaitValue (.object members key :: frames) false)
  | .afterValue (.list items :: frames) value, .comma =>
    some (.awaitValue (.list (value :: items) :: frames) false)
  | .afterValue (.list items :: frames) value, .closeList =>
    some (.afterValue frames (.list (value :: items).reverse))
  | .afterValue (.object members key :: frames) value, .comma =>
    some (.awaitKey frames ((key, value) :: members) false)
  | .afterValue (.object members key :: frames) value, .closeObject =>
    some (.afterValue frames (ofMembers ((key, value) :: members).reverse))
  | _, _ => none

def Reading.start : Reading := .awaitValue [] false

def ofTokens? (tokens : List Token) : Option Json :=
  match tokens.foldlM Reading.step .start with
  | some (.afterValue [] value) => some value
  | _ => none

def ofLetters? (text : List Letter) : Option Json := (tokens? text).bind ofTokens?

def ofString? (text : String) : Option Json := ofLetters? (text.toList.map some)

end ModuleBoundary.Json
