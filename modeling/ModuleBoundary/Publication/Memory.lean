import ModuleBoundary.Publication.Store

/-! Publication entries in memory, found by their identifiers.

Entries are kept in no particular order. Each has the number of its arrival, which
numbers are never used again, so the order in which they came is not lost.
-/

set_option autoImplicit false

namespace ModuleBoundary

structure StoredEntry where
  arrival : Nat
  entry : PublicationEntry
  deriving DecidableEq

/-- By publication date, then by arrival. -/
def StoredEntry.order : StoredEntry → StoredEntry → Ordering :=
  compareLex (fun first second => first.entry.published.order second.entry.published)
    (compareOn (·.arrival))

structure MemoryPublications where
  stored : List StoredEntry := []
  nextArrival : Nat := 0

namespace MemoryPublications

/-- The entries in the order in which they came. -/
def toList (memory : MemoryPublications) : List PublicationEntry :=
  (memory.stored.mergeSort fun first second => first.arrival ≤ second.arrival).map (·.entry)

def size (memory : MemoryPublications) : Nat := memory.stored.length

def find? (memory : MemoryPublications) (id : Identifier) : Option PublicationEntry :=
  (memory.stored.find? (·.entry.id = id)).map (·.entry)

def insert (memory : MemoryPublications) (entry : PublicationEntry) :
    Except StoreError MemoryPublications :=
  if (memory.find? entry.id).isSome then .error (.duplicateIdentifier entry.id)
  else .ok ⟨⟨memory.nextArrival, entry⟩ :: memory.stored, memory.nextArrival + 1⟩

def complete (memory : MemoryPublications) (id : Identifier) (date : Instant) :
    Except StoreError MemoryPublications :=
  if (memory.find? id).isNone then .error (.notFound id)
  else .ok { memory with stored := memory.stored.map fun kept =>
    if kept.entry.id = id then { kept with entry := kept.entry.complete date } else kept }

def incomplete (memory : MemoryPublications) : List Identifier :=
  ((memory.stored.filter (!·.entry.isCompleted)).mergeSort fun first second =>
    (StoredEntry.order first second).isLE).map (·.entry.id)

/-- Whether an entry was completed strictly before an instant. -/
def isDoneBefore (before : Instant) (entry : PublicationEntry) : Bool :=
  entry.completed.any (·.isBefore before)

def deleteCompleted (memory : MemoryPublications) (before : Instant) : MemoryPublications :=
  { memory with stored := memory.stored.filter fun kept => !isDoneBefore before kept.entry }

def update (change : MemoryPublications → Except StoreError MemoryPublications) :
    StateM MemoryPublications (Except StoreError Unit) := do
  match change (← get) with
  | .ok memory => set memory; return .ok ()
  | .error e => return .error e

/-- A failed operation changes nothing. -/
def store : PublicationStore (StateM MemoryPublications) where
  insert entry := update (·.insert entry)
  complete id date := update (·.complete id date)
  find id := return .ok ((← get).find? id)
  incomplete := return .ok (← get).incomplete
  deleteCompleted before := modifyGet fun memory =>
    let kept := memory.deleteCompleted before
    (.ok (memory.size - kept.size), kept)

end MemoryPublications

end ModuleBoundary
