import ModuleBoundary.Proofs.Publication.History
import ModuleBoundary.Proofs.Publication.Iteration

/-! Publishing an event and finding it again.

A publication is stored as octets under a new identifier, and is found by reading them back.
What is refused leaves the store as it is. What is taken in is found once more than before, at
the place that its date gives it, and nothing else changes.
-/

set_option autoImplicit false

namespace ModuleBoundary

variable {Event World : Type}

/-- What is written of an event is read back as the event, if it can be written at all. -/
def EventCodec.Restores (codec : EventCodec Id Event) (event : Event) : Prop :=
  ∀ payload, codec.encode event = .ok payload →
    codec.decode payload (codec.eventType event) = .ok event

namespace Session

open MemoryPublications (announcedOrder)

variable {codec : EventCodec Id Event} {session : Session Event World} {event : Event}
  {target : String} {id : Identifier} {published : Instant} {payload : List UInt8}

theorem encode_run (event : Event) :
    (registry codec).codec.encode event session = (codec.encode event, session) := rfl

theorem insert_run (entry : PublicationEntry) :
    (registry codec).store.insert entry session =
      match session.memory.insert entry with
      | .ok memory => (.ok (), { session with memory })
      | .error cause => (.error cause, session) := by
  change onMemory (MemoryPublications.update (·.insert entry)) session = _
  rw [onMemory, MemoryPublications.update_run]
  cases session.memory.insert entry <;> rfl

/-! Publishing. -/

/-- The entry under which an event is kept. -/
def entryFor (codec : EventCodec Id Event) (event : Event) (target : String) (id : Identifier)
    (published : Instant) (payload : List UInt8) : PublicationEntry where
  id := id
  eventType := codec.eventType event
  payload := payload
  target := target
  published := published
  completed := none

theorem publish_unencodable {cause : CodecError} (refused : codec.encode event = .error cause) :
    (registry codec).publish event target id published session =
      (.error (.unencodable cause), session) := by
  unfold PublicationRegistry.publish
  rw [runs_bind (encode_run event), refused]
  rfl

theorem publish_known (encoded : codec.encode event = .ok payload)
    (known : session.memory.find? id ≠ none) :
    (registry codec).publish event target id published session =
      (.error (.duplicateIdentifier id), session) := by
  have refused : (registry codec).store.insert
      (entryFor codec event target id published payload) session = _ := insert_run _
  rw [MemoryPublications.insert_eq_error known] at refused
  unfold PublicationRegistry.publish
  rw [runs_bind (encode_run event), encoded]
  exact runs_bind refused

theorem publish_new {memory : MemoryPublications} (encoded : codec.encode event = .ok payload)
    (inserted : session.memory.insert (entryFor codec event target id published payload) =
      .ok memory) :
    (registry codec).publish event target id published session =
      (.ok ⟨id, target, published⟩, { session with memory }) := by
  have accepted : (registry codec).store.insert
      (entryFor codec event target id published payload) session = _ := insert_run _
  rw [inserted] at accepted
  unfold PublicationRegistry.publish
  rw [runs_bind (encode_run event), encoded]
  exact runs_bind accepted

/-! Finding. -/

theorem items_run (ids : List Identifier) :
    (registry codec).items ids session =
      (ids.filterMap (offer? codec session.memory), session) := by
  induction ids with
  | nil => rfl
  | cons id rest ih =>
    unfold PublicationRegistry.items
    rw [runs_bind (lookUp_run id), runs_bind ih]
    cases offered : offer? codec session.memory id with
    | none =>
      rw [List.filterMap_cons_none offered]
      rfl
    | some given =>
      rw [List.filterMap_cons_some offered]
      rfl

theorem offer?_of_mem_due (wellKept : session.memory.WellKept) {entry : PublicationEntry}
    (due : entry ∈ session.memory.due) :
    offer? codec session.memory entry.id = some (item codec entry) := by
  obtain ⟨listed, incomplete⟩ := MemoryPublications.mem_due.mp due
  have found := (MemoryPublications.find?_eq_some wellKept).mpr ⟨listed, rfl⟩
  exact offer?_eq_some.mpr ⟨entry, found, incomplete, rfl⟩

/-- What is found is read from the due entries, in their order. -/
theorem findIncomplete_run (wellKept : session.memory.WellKept) :
    (registry codec).findIncomplete session =
      (.ok (session.memory.due.map (item codec)), session) := by
  have read : (session.memory.due.map (·.id)).filterMap (offer? codec session.memory) =
      session.memory.due.map (item codec) := by
    rw [List.filterMap_map, ← List.filterMap_eq_map]
    exact List.filterMap_congr fun entry due => offer?_of_mem_due wellKept due
  unfold PublicationRegistry.findIncomplete
  rw [runs_bind (pending_run session wellKept), ← read]
  exact runs_bind (items_run _)

theorem item_entryFor (restores : codec.Restores event) (encoded : codec.encode event = .ok payload) :
    item codec (entryFor codec event target id published payload) =
      .ok ⟨id, { event, target, published }⟩ := by
  have decoded := restores payload encoded
  simp only [item, PublicationEntry.read, entryFor, decoded]

theorem item_of_other_type {form : JsonForm Event} {entry : PublicationEntry}
    (foreign : entry.eventType ≠ form.eventType) :
    item form.codec entry =
      .error (.undecodable entry.id (.typeMismatch form.eventType entry.eventType)) := by
  have refused : form.decode entry.payload entry.eventType =
      .error (.typeMismatch form.eventType entry.eventType) := if_pos foreign
  have read : entry.read form.codec = .error (.typeMismatch form.eventType entry.eventType) := by
    unfold PublicationEntry.read
    change (match form.decode entry.payload entry.eventType with
      | .ok event => _
      | .error cause => _) = _
    rw [refused]
  simp only [item, read]

/-- Where a publication is found that was taken in, told by the entries that the items before it
and behind it are read from. -/
structure FoundBetween (codec : EventCodec Id Event) (event : Event) (handle : PublicationHandle)
    (found : IncompletePublication Event) (early late : List PublicationEntry)
    (session later : Session Event World) : Prop where
  stored : ∀ entry ∈ early ++ late, session.memory.find? entry.id = some entry
  /-- These are all items there were. -/
  before : (registry codec).findIncomplete session =
    (.ok ((early ++ late).map (item codec)), session)
  /-- One more is found now. -/
  after : (registry codec).findIncomplete later =
    (.ok (early.map (item codec) ++ .ok found :: late.map (item codec)), later)
  named : found.handle = handle
  carried : found.publication.event = event
  incomplete : found.publication.isCompleted = false
  notLater : ∀ entry ∈ early, handle.published.isBefore entry.published = false
  later : ∀ entry ∈ late, handle.published.isBefore entry.published = true

theorem publish_foundBetween (wellKept : session.memory.WellKept)
    (restores : codec.Restores event) (encoded : codec.encode event = .ok payload)
    (new : session.memory.find? id = none) :
    ∃ later found early late,
      (registry codec).publish event target id published session =
        (.ok ⟨id, target, published⟩, later) ∧
      FoundBetween codec event ⟨id, target, published⟩ found early late session later := by
  let entry := entryFor codec event target id published payload
  obtain ⟨memory, inserted⟩ : ∃ memory, session.memory.insert entry = .ok memory :=
    ⟨_, MemoryPublications.insert_eq_ok.mpr ⟨new, rfl⟩⟩
  obtain ⟨early, late, due, dueLater, notLater, isLater⟩ :=
    MemoryPublications.due_insert wellKept inserted rfl
  refine ⟨{ session with memory }, ⟨id, { event, target, published }⟩, early, late,
    publish_new encoded inserted, ?_⟩
  exact {
    stored := by
      intro other member
      have listed := (MemoryPublications.mem_due.mp (due ▸ member)).1
      exact (MemoryPublications.find?_eq_some wellKept).mpr ⟨listed, rfl⟩
    before := by rw [findIncomplete_run wellKept, due]
    after := by
      rw [findIncomplete_run (wellKept.insert inserted), dueLater, List.map_append, List.map_cons,
        item_entryFor restores encoded]
    named := rfl
    carried := rfl
    incomplete := rfl
    notLater := notLater
    later := isLater }

/-- Under the identifier of a due entry there is one item, and it is read from that entry. -/
theorem filter_items (wellKept : session.memory.WellKept) {entry : PublicationEntry}
    (due : entry ∈ session.memory.due) :
    (session.memory.due.map (item codec)).filter
        (PublicationRegistry.identifier? · = some entry.id) = [item codec entry] := by
  have distinct := MemoryPublications.due_identifiers wellKept
  obtain ⟨early, late, split⟩ := List.append_of_mem due
  rw [split, List.map_append, List.map_cons, List.nodup_middle, List.nodup_cons, List.mem_append,
    not_or] at distinct
  obtain ⟨⟨notEarly, notLate⟩, -⟩ := distinct
  have others {entries : List PublicationEntry} (missing : entry.id ∉ entries.map (·.id)) :
      entries.filter (·.id = entry.id) = [] := by
    simpa using missing
  have named : (fun other => decide (PublicationRegistry.identifier? (item codec other) =
      some entry.id)) = fun other : PublicationEntry => decide (other.id = entry.id) := by
    funext other
    simp [identifier?_item]
  rw [List.filter_map, Function.comp_def, named, split, List.filter_append, others notEarly,
    List.filter_cons_of_pos (by simp), others notLate]
  rfl

/-- Publishing fails, and leaves no trace, where the event cannot be encoded or the identifier is
taken. Otherwise the publication is found among what was found before, behind all that is dated no
later and before all that is dated later. An entry of another type than the JSON form reads is
found as one that cannot be decoded. -/
theorem publish_then_find (earlier : List StoreRequest) (event : Event) (target : String)
    (id : Identifier) (published : Instant) (world : World) :
    let session : Session Event World := ⟨MemoryPublications.reached earlier, [], world⟩
    (∀ codec : EventCodec Id Event, codec.Restores event →
      (∀ cause, codec.encode event = .error cause →
        (registry codec).publish event target id published session =
          (.error (.unencodable cause), session)) ∧
      (∀ payload, codec.encode event = .ok payload → session.memory.find? id ≠ none →
        (registry codec).publish event target id published session =
          (.error (.duplicateIdentifier id), session)) ∧
      (∀ payload, codec.encode event = .ok payload → session.memory.find? id = none →
        ∃ later found early late,
          (registry codec).publish event target id published session =
            (.ok ⟨id, target, published⟩, later) ∧
          FoundBetween codec event ⟨id, target, published⟩ found early late session later)) ∧
    ∀ form : JsonForm Event, ∃ items,
      (registry form.codec).findIncomplete session = (.ok items, session) ∧
      ∀ entry, session.memory.find? entry.id = some entry → entry.isCompleted = false →
        entry.eventType ≠ form.eventType →
          items.filter (PublicationRegistry.identifier? · = some entry.id) =
            [.error (.undecodable entry.id (.typeMismatch form.eventType entry.eventType))] := by
  intro session
  have wellKept : session.memory.WellKept := MemoryPublications.wellKept_reached earlier
  constructor
  · intro codec restores
    refine ⟨fun _ => publish_unencodable, fun _ => publish_known, ?_⟩
    intro payload encoded new
    exact publish_foundBetween wellKept restores encoded new
  · intro form
    refine ⟨_, findIncomplete_run wellKept, ?_⟩
    intro entry found incomplete foreign
    have listed := ((MemoryPublications.find?_eq_some wellKept).mp found).1
    rw [filter_items wellKept (MemoryPublications.mem_due.mpr ⟨listed, incomplete⟩),
      item_of_other_type foreign]

/-- Order numbers as events. -/
def orderNumbers : JsonForm Nat where
  eventType := "OrderNumber"
  toJson := Json.nat
  ofJson? := Json.asNat?

theorem order_number_found_beside_announced_order :
    let session : Session Nat Unit := ⟨.reached [.insert announcedOrder], [], ()⟩
    orderNumbers.codec.Restores 7 ∧ session.memory.find? .zero = none ∧
    session.memory.find? announcedOrder.id = some announcedOrder ∧
    announcedOrder.eventType ≠ orderNumbers.eventType ∧
    (∃ later found early late,
      (registry orderNumbers.codec).publish 7 "billing" .zero ⟨5, 0⟩ session =
        (.ok ⟨.zero, "billing", ⟨5, 0⟩⟩, later) ∧
      FoundBetween orderNumbers.codec 7 ⟨.zero, "billing", ⟨5, 0⟩⟩ found early late session later) ∧
    ∃ items, (registry orderNumbers.codec).findIncomplete session = (.ok items, session) ∧
      items.filter (PublicationRegistry.identifier? · = some announcedOrder.id) =
        [.error (.undecodable .ones (.typeMismatch "OrderNumber" "OrderPlaced"))] := by
  intro session
  have restores : orderNumbers.codec.Restores 7 := by
    intro payload encoded
    cases encoded
    change orderNumbers.decode (orderNumbers.encode 7) "OrderNumber" = .ok 7
    decide +kernel
  have new : session.memory.find? .zero = none := by rfl
  have found : session.memory.find? announcedOrder.id = some announcedOrder := by rfl
  have foreign : announcedOrder.eventType ≠ orderNumbers.eventType := by decide
  obtain ⟨publishes, reads⟩ :=
    publish_then_find [.insert announcedOrder] (7 : Nat) "billing" .zero ⟨5, 0⟩ ()
  obtain ⟨items, listed, single⟩ := reads orderNumbers
  exact ⟨restores, new, found, foreign, (publishes _ restores).2.2 _ rfl new, items, listed,
    single announcedOrder found rfl foreign⟩

end Session

end ModuleBoundary
