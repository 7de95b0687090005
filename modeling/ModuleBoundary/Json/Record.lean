import ModuleBoundary.Json.Value

/-! Reading typed values out of documents.

A record is written as an object, whose unknown members are skipped, or as a list
of its fields in order. The two forms differ in what may be left out: the list
form ends early only before fields that have a default.
-/

set_option autoImplicit false

namespace ModuleBoundary.Json

/-- The fields given for a record, under their names. -/
structure Fields where
  named : Bool
  given : List (String × Json)

/-- The fields of a record with the field names in order. No known name may occur twice
in an object, and no item may follow the last field of a list. -/
def fields? (names : List String) : Json → Option Fields
  | .object members =>
    let known := members.filter fun (name, _) => names.contains name
    if (known.map (·.1)).eraseDups.length = known.length then some ⟨true, known⟩ else none
  | .list items =>
    if items.length ≤ names.length then some ⟨false, names.zip items⟩ else none
  | .leaf _ => none

namespace Fields

variable {α : Type}

def required (fields : Fields) (name : String) (read : Json → Option α) : Option α :=
  (fields.given.lookup name).bind read

/-- A field with a default for when it is not given. -/
def withDefault (fields : Fields) (name : String) (default : α) (read : Json → Option α) :
    Option α :=
  match fields.given.lookup name with
  | some value => read value
  | none => some default

/-- A field that may be `null`, and in an object may be left out. -/
def nullable (fields : Fields) (name : String) (read : Json → Option α) : Option (Option α) :=
  match fields.given.lookup name with
  | some (.leaf .null) => some none
  | some value => (read value).map some
  | none => if fields.named then some none else none

/-- A field that may be `null` or left out in either form. -/
def optional (fields : Fields) (name : String) (read : Json → Option α) : Option (Option α) :=
  match fields.given.lookup name with
  | some (.leaf .null) => some none
  | some value => (read value).map some
  | none => some none

end Fields

def asText? : Json → Option String
  | .leaf (.text value) => some value
  | _ => none

def asBool? : Json → Option Bool
  | .leaf (.bool value) => some value
  | _ => none

def asNat? : Json → Option Nat
  | .leaf (.nat value) => some value
  | _ => none

/-- A list each of whose items can be read. -/
def asListOf? {α : Type} (read : Json → Option α) : Json → Option (List α)
  | .list items => items.mapM read
  | _ => none

def asTexts? : Json → Option (List String) := asListOf? asText?

/-- The word of an alternative without contents, alone or as the only key over `null`. -/
def asWord? : Json → Option String
  | .leaf (.text word) => some word
  | .object [(word, .leaf .null)] => some word
  | _ => none

end ModuleBoundary.Json
