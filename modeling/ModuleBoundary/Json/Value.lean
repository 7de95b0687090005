/-! JSON documents as trees.

Only naturals are kept as numbers and only character sequences as text: nothing
here is written or read that needs another number. The remaining leaves stand for
what a document may hold and no reading uses.
-/

set_option autoImplicit false

namespace ModuleBoundary

/-- A leaf. `otherNumber` has a sign, a fraction or an exponent. `unreadable` holds a
lone surrogate or octets that form no character where characters must stand. -/
inductive Json.Leaf where
  | null
  | bool (value : Bool)
  | nat (value : Nat)
  | otherNumber
  | text (value : String)
  | unreadable
  deriving DecidableEq, Repr

inductive Json where
  | leaf (value : Json.Leaf)
  | list (items : List Json)
  | object (members : List (String × Json))
  deriving Repr

namespace Json

instance : Inhabited Json := ⟨.leaf .null⟩

abbrev null : Json := .leaf .null

abbrev bool (value : Bool) : Json := .leaf (.bool value)

abbrev nat (value : Nat) : Json := .leaf (.nat value)

abbrev text (value : String) : Json := .leaf (.text value)

def texts (values : List String) : Json := .list (values.map text)

/-- `null` for an absent value. -/
def optional {α : Type} (write : α → Json) (value? : Option α) : Json :=
  (value?.map write).getD null

end Json

end ModuleBoundary
