import ModuleBoundary.Publication
import ModuleBoundary.Publication.Codec
import ModuleBoundary.Publication.Store

/-! Recording which events were handed to which targets, and finding what is left to do.

Incomplete publications are found lazily: their identifiers are taken down at once, and
each entry is looked up again when its turn comes.
-/

set_option autoImplicit false

namespace ModuleBoundary

inductive RegistryError where
  | notFound (id : Identifier)
  | duplicateIdentifier (id : Identifier)
  | undecodable (id : Identifier) (cause : CodecError)
  | unencodable (cause : CodecError)
  | storage (cause : StoreError)
  deriving DecidableEq

namespace RegistryError

def message : RegistryError → String
  | .notFound id => s!"Publication {id.text} not found"
  | .duplicateIdentifier id => s!"Publication {id.text} already exists"
  | .undecodable id cause => s!"Publication {id.text} cannot be decoded: {cause.message}"
  | .unencodable cause => s!"Failed to encode event: {cause.message}"
  | .storage cause => s!"Storage error: {cause.message}"

def ofStore : StoreError → RegistryError
  | .notFound id => .notFound id
  | .duplicateIdentifier id => .duplicateIdentifier id
  | .unavailable reason => .storage (.unavailable reason)

end RegistryError

/-- What names a stored publication to its user. -/
structure PublicationHandle where
  id : Identifier
  target : String
  published : Instant
  deriving DecidableEq

structure IncompletePublication (Event : Type) where
  id : Identifier
  publication : Publication Event
  deriving DecidableEq

def IncompletePublication.handle {Event : Type} (found : IncompletePublication Event) :
    PublicationHandle :=
  ⟨found.id, found.publication.target, found.publication.published⟩

/-- What became of the publications in one recovery. -/
structure RecoveryReport where
  resubmitted : Nat := 0
  completed : Nat := 0
  failed : Nat := 0
  /-- Entries that could not be decoded. -/
  poisoned : Nat := 0
  deriving DecidableEq

def RecoveryReport.toJson (report : RecoveryReport) : Json :=
  .object [
    ("resubmitted", .nat report.resubmitted),
    ("completed", .nat report.completed),
    ("failed", .nat report.failed),
    ("poisoned", .nat report.poisoned)]

structure PublicationRegistry (m : Type → Type) (Event : Type) where
  store : PublicationStore m
  codec : EventCodec m Event

namespace PublicationRegistry

variable {m : Type → Type} [Monad m] {Event : Type}

/-- A registry shows nothing of what it holds. -/
def description : String := "EventPublicationRegistry \x7b .. \x7d"

/-- Keep a publication under a new identifier, published at an instant. -/
def publish (registry : PublicationRegistry m Event) (event : Event) (target : String)
    (id : Identifier) (published : Instant) : m (Except RegistryError PublicationHandle) := do
  match ← registry.codec.encode event with
  | .error e => return .error (.unencodable e)
  | .ok payload =>
    let entry : PublicationEntry :=
      { id, eventType := registry.codec.eventType event, payload, target, published,
        completed := none }
    match ← registry.store.insert entry with
    | .error e => return .error (.ofStore e)
    | .ok () => return .ok ⟨id, target, published⟩

def complete (registry : PublicationRegistry m Event) (id : Identifier) (date : Instant) :
    m (Except RegistryError Unit) :=
  return (← registry.store.complete id date).mapError .ofStore

def deleteCompleted (registry : PublicationRegistry m Event) (before : Instant) :
    m (Except RegistryError Nat) :=
  return (← registry.store.deleteCompleted before).mapError .ofStore

/-- The identifiers to look up, oldest publication first. -/
def pending (registry : PublicationRegistry m Event) :
    m (Except RegistryError (List Identifier)) :=
  return (← registry.store.incomplete).mapError .ofStore

abbrev Item (Event : Type) := Except RegistryError (IncompletePublication Event)

def decodeEntry (registry : PublicationRegistry m Event) (entry : PublicationEntry) :
    m (Item Event) := do
  match ← registry.codec.decode entry.payload entry.eventType with
  | .error e => return .error (.undecodable entry.id e)
  | .ok event => return .ok ⟨entry.id, { event, target := entry.target, published := entry.published }⟩

/-- What is found under an identifier now, unless it is gone or completed meanwhile. -/
def lookUp (registry : PublicationRegistry m Event) (id : Identifier) :
    m (Option (Item Event)) := do
  match ← registry.store.find id with
  | .error e => return some (.error (.ofStore e))
  | .ok none => return none
  | .ok (some entry) =>
    if entry.isCompleted then return none
    else return some (← registry.decodeEntry entry)

/-- The first item of a list of identifiers, and the identifiers after it. -/
def next (registry : PublicationRegistry m Event) :
    List Identifier → m (Option (Item Event) × List Identifier)
  | [] => return (none, [])
  | id :: rest => do
    match ← registry.lookUp id with
    | some item => return (some item, rest)
    | none => registry.next rest

/-- All items of a list of identifiers. -/
def items (registry : PublicationRegistry m Event) : List Identifier → m (List (Item Event))
  | [] => return []
  | id :: rest => do
    let item? ← registry.lookUp id
    return item?.toList ++ (← registry.items rest)

/-- The publications that are incomplete now, and what cannot be read. -/
def findIncomplete (registry : PublicationRegistry m Event) :
    m (Except RegistryError (List (Item Event))) := do
  match ← registry.pending with
  | .error e => return .error e
  | .ok ids => return .ok (← registry.items ids)

/-- Hand a publication to its target again, and complete it when the target has dealt with
it. It may be gone by then, for the target may change the store. -/
def resubmit (registry : PublicationRegistry m Event) (clock : m Instant)
    (dispatch : Publication Event → m Bool) (found : IncompletePublication Event)
    (report : RecoveryReport) : m (Except RegistryError RecoveryReport) := do
  let report := { report with resubmitted := report.resubmitted + 1 }
  if ← dispatch found.publication then
    match ← registry.complete found.id (← clock) with
    | .ok () => return .ok { report with completed := report.completed + 1 }
    | .error (.notFound _) => return .ok report
    | .error e => return .error e
  else return .ok { report with failed := report.failed + 1 }

/-- Resubmit what is found under each identifier. What cannot be decoded is counted and
passed over; any other error ends the recovery. -/
def sweep (registry : PublicationRegistry m Event) (clock : m Instant)
    (dispatch : Publication Event → m Bool) :
    RecoveryReport → List Identifier → m (Except RegistryError RecoveryReport)
  | report, [] => return .ok report
  | report, id :: rest => do
    match ← registry.lookUp id with
    | none => registry.sweep clock dispatch report rest
    | some (.error (.undecodable ..)) =>
      registry.sweep clock dispatch { report with poisoned := report.poisoned + 1 } rest
    | some (.error e) => return .error e
    | some (.ok found) =>
      match ← registry.resubmit clock dispatch found report with
      | .error e => return .error e
      | .ok report => registry.sweep clock dispatch report rest

/-- Resubmit every incomplete publication. -/
def recover (registry : PublicationRegistry m Event) (clock : m Instant)
    (dispatch : Publication Event → m Bool) : m (Except RegistryError RecoveryReport) := do
  match ← registry.pending with
  | .error e => return .error e
  | .ok ids => registry.sweep clock dispatch {} ids

end PublicationRegistry

end ModuleBoundary
