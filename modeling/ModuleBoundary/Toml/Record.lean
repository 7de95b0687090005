import ModuleBoundary.Toml.Node

/-! Reading typed values out of TOML nodes.

A record is written as a table, whose unknown keys are skipped, or as an array of its
fields in order, in which all fields without a default are there. What follows the last
field of an array is skipped too. A date or time counts as a table of keys that are
unknown.
-/

set_option autoImplicit false

namespace ModuleBoundary.Toml

/-- The fields given for a record, under their names. -/
structure Fields where
  named : Bool
  given : Entries

def Node.fields? (names : List String) : Node → Option Fields
  | .table _ entries => some ⟨true, entries⟩
  | .moment => some ⟨true, []⟩
  | .array items => some ⟨false, names.zip items⟩
  | .tables latest earlier =>
    some ⟨false, names.zip ((latest :: earlier).reverse.map (.table .header))⟩
  | _ => none

namespace Fields

variable {α : Type}

/-- A field that a table may leave out. -/
def optional (fields : Fields) (name : String) (read : Node → Option α) : Option (Option α) :=
  match fields.given.lookup name with
  | some node => (read node).map some
  | none => if fields.named then some none else none

/-- A field with a default. -/
def withDefault (fields : Fields) (name : String) (default : α) (read : Node → Option α) :
    Option α :=
  match fields.given.lookup name with
  | some node => read node
  | none => some default

end Fields

namespace Node

def asText? : Node → Option String
  | .text value => some value
  | _ => none

def asBool? : Node → Option Bool
  | .bool value => some value
  | _ => none

def asTexts? : Node → Option (List String)
  | .array items => items.mapM asText?
  | _ => none

/-- A table each of whose values can be read, under its keys. -/
def asTableOf? {α : Type} (read : Node → Option α) : Node → Option (List (String × α))
  | .table _ entries => entries.mapM fun (key, node) => (read node).map (key, ·)
  | _ => none

end Node

end ModuleBoundary.Toml
