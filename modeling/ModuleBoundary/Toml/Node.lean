/-! TOML documents as trees of named nodes, and how their lines grow them.

A table remembers how it came to be, for that decides what may be added to it later:
a header defines a table once, dotted keys extend only tables that dotted keys made,
and an inline table is complete where it is written.
-/

set_option autoImplicit false

namespace ModuleBoundary.Toml

/-- How a table came to be: by a header or an element of a table array, as the
parent of such a one, by dotted keys, or written inline. -/
inductive Origin where
  | header
  | implied
  | dotted
  | inline
  deriving DecidableEq

/-- Numbers and moments are kept without their values: nothing that is read here has
them. -/
inductive Node where
  | text (value : String)
  | bool (value : Bool)
  | number
  /-- A date, a time or both. -/
  | moment
  | array (items : List Node)
  | table (origin : Origin) (entries : List (String × Node))
  /-- The tables of an array that headers fill, the latest first. -/
  | tables (latest : List (String × Node)) (earlier : List (List (String × Node)))

abbrev Entries := List (String × Node)

namespace Entries

def put (entries : Entries) (key : String) (node : Node) : Entries :=
  if (entries.lookup key).isSome then
    entries.map fun (name, old) => if name = key then (name, node) else (name, old)
  else entries ++ [(key, node)]

def add? (entries : Entries) (key : String) (node : Node) : Option Entries :=
  if (entries.lookup key).isSome then none else some (entries ++ [(key, node)])

/-- Change the table at a path of headers. Tables on the way that are not there yet
are implied; of a table array the latest counts. -/
def changeAt (change : Entries → Option Entries) : List String → Entries → Option Entries
  | [], entries => change entries
  | key :: path, entries => do
    let node ← match entries.lookup key with
      | none => (changeAt change path []).map (.table .implied)
      | some (.table .inline _) => none
      | some (.table origin inner) => (changeAt change path inner).map (.table origin)
      | some (.tables latest earlier) =>
        (changeAt change path latest).map (.tables · earlier)
      | some _ => none
    return entries.put key node

/-- Define a table by its header. -/
def defineTable (key : String) (entries : Entries) : Option Entries :=
  match entries.lookup key with
  | none => some (entries.put key (.table .header []))
  | some (.table .implied inner) => some (entries.put key (.table .header inner))
  | some _ => none

/-- Add an element to a table array by its header. -/
def extendTables (key : String) (entries : Entries) : Option Entries :=
  match entries.lookup key with
  | none => some (entries.put key (.tables [] []))
  | some (.tables latest earlier) => some (entries.put key (.tables [] (latest :: earlier)))
  | some _ => none

/-- Add a value under a dotted key. The table that takes the value has to come from
dotted keys itself; tables further out may also be implied or in a table array. -/
def addDotted (value : Node) : List String → Entries → Option Entries
  | [], _ => none
  | [key], entries => entries.add? key value
  | [outer, key], entries => do
    let node ← match entries.lookup outer with
      | none => some (.table .dotted [(key, value)])
      | some (.table .dotted inner) => (add? inner key value).map (.table .dotted)
      | some _ => none
    return entries.put outer node
  | outer :: path, entries => do
    let node ← match entries.lookup outer with
      | none => (addDotted value path []).map (.table .dotted)
      | some (.table .dotted inner) => (addDotted value path inner).map (.table .dotted)
      | some (.table .implied inner) => (addDotted value path inner).map (.table .implied)
      | some (.tables latest earlier) => (addDotted value path latest).map (.tables · earlier)
      | some _ => none
    return entries.put outer node

end Entries

end ModuleBoundary.Toml
