import ModuleBoundary.Publication.Entry

/-! Keeping publication entries. -/

set_option autoImplicit false

namespace ModuleBoundary

inductive StoreError where
  | duplicateIdentifier (id : Identifier)
  | notFound (id : Identifier)
  | unavailable (reason : String)
  deriving DecidableEq

def StoreError.message : StoreError → String
  | .duplicateIdentifier id => s!"Publication {id.text} already exists"
  | .notFound id => s!"Publication {id.text} not found"
  | .unavailable reason => s!"Publication store unavailable: {reason}"

/-- A store of entries, used in a monad. -/
structure PublicationStore (m : Type → Type) where
  /-- Refuses an identifier that is there already. -/
  insert : PublicationEntry → m (Except StoreError Unit)
  /-- An entry that is completed already keeps its date. -/
  complete : Identifier → Instant → m (Except StoreError Unit)
  find : Identifier → m (Except StoreError (Option PublicationEntry))
  /-- Identifiers of incomplete entries by publication date, then in the order in which
  they came. -/
  incomplete : m (Except StoreError (List Identifier))
  /-- Removes what was completed strictly before an instant, and counts it. -/
  deleteCompleted : Instant → m (Except StoreError Nat)

inductive StoreOperation where
  | insert
  | complete
  | find
  | incomplete
  | deleteCompleted
  deriving DecidableEq

namespace PublicationStore

variable {m n : Type → Type}

/-- The same store in another monad. -/
def lift (store : PublicationStore m) (run : {α : Type} → m α → n α) : PublicationStore n where
  insert entry := run (store.insert entry)
  complete id date := run (store.complete id date)
  find id := run (store.find id)
  incomplete := run store.incomplete
  deleteCompleted before := run (store.deleteCompleted before)

variable [Monad m]

/-- A store behind a guard, which is asked before every operation with the identifier it
is about. The operation is not carried out when the guard answers with an error. -/
def guarded (store : PublicationStore m)
    (guard : StoreOperation → Option Identifier → m (Option StoreError)) :
    PublicationStore m :=
  let asking {α : Type} (operation : StoreOperation) (id? : Option Identifier)
      (action : m (Except StoreError α)) : m (Except StoreError α) := do
    match ← guard operation id? with
    | some e => return .error e
    | none => action
  { insert := fun entry => asking .insert (some entry.id) (store.insert entry)
    complete := fun id date => asking .complete (some id) (store.complete id date)
    find := fun id => asking .find (some id) (store.find id)
    incomplete := asking .incomplete none store.incomplete
    deleteCompleted := fun before => asking .deleteCompleted none (store.deleteCompleted before) }

end PublicationStore

end ModuleBoundary
