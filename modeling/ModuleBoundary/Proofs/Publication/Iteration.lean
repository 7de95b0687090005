import ModuleBoundary.Proofs.Publication.Recovery

/-! Looking through the incomplete publications while the store changes.

The identifiers to look up are taken down once. Whatever is asked of the store between two
calls, a call gives the first of the identifiers left under which an incomplete entry is found
just then. What it passes over on the way is not looked up again.
-/

set_option autoImplicit false

namespace ModuleBoundary

/-- The identifier under which an item was found. -/
def PublicationRegistry.identifier? {Event : Type} : Item Event → Option Identifier
  | .ok found => some found.id
  | .error (.undecodable id _) => some id
  | .error _ => none

/-- Whether an entry is there, incomplete. -/
def MemoryPublications.Awaits (memory : MemoryPublications) (id : Identifier) : Prop :=
  ∃ entry, memory.find? id = some entry ∧ entry.isCompleted = false

/-- One call for the next item: the store just then, and what came of the call. -/
structure Draw (Event : Type) where
  memory : MemoryPublications
  item? : Option (PublicationRegistry.Item Event)

/-- The identifiers of the items that some calls gave. -/
def drawn {Event : Type} (calls : List (Draw Event)) : List (Option Identifier) :=
  (calls.filterMap (·.item?)).map PublicationRegistry.identifier?

namespace Session

variable {Event World : Type}

/-- Calls for the next item, before each of which some requests are served. -/
def draws (codec : EventCodec Id Event) :
    List (List StoreRequest) → List Identifier → Session Event World → List (Draw Event)
  | [], _, _ => []
  | requests :: rounds, pending, session =>
    let changed := { session with memory := session.memory.served requests }
    let ((item?, left), later) := (registry codec).next pending changed
    ⟨changed.memory, item?⟩ :: draws codec rounds left later

variable {codec : EventCodec Id Event} {memory : MemoryPublications} {id : Identifier}
  {given : PublicationRegistry.Item Event} {pending : List Identifier} {calls : List (Draw Event)}

theorem offer?_eq_some :
    offer? codec memory id = some given ↔ ∃ entry, memory.find? id = some entry ∧
      entry.isCompleted = false ∧ given = item codec entry := by
  simp only [offer?, Option.map_eq_some_iff, Option.filter_eq_some_iff, Bool.not_eq_true']
  constructor
  · rintro ⟨entry, ⟨found, incomplete⟩, rfl⟩
    exact ⟨entry, found, incomplete, rfl⟩
  · rintro ⟨entry, found, incomplete, rfl⟩
    exact ⟨entry, ⟨found, incomplete⟩, rfl⟩

theorem offer?_ne_none (awaits : memory.Awaits id) : offer? codec memory id ≠ none := by
  obtain ⟨entry, found, incomplete⟩ := awaits
  apply Option.ne_none_iff_exists'.mpr
  exact ⟨item codec entry, offer?_eq_some.mpr ⟨entry, found, incomplete, rfl⟩⟩

theorem identifier?_item (codec : EventCodec Id Event) (entry : PublicationEntry) :
    PublicationRegistry.identifier? (item codec entry) = some entry.id := by
  unfold item
  cases entry.read codec <;> rfl

theorem identifier?_of_offer? (offered : offer? codec memory id = some given) :
    PublicationRegistry.identifier? given = some id := by
  obtain ⟨entry, found, -, rfl⟩ := offer?_eq_some.mp offered
  rw [identifier?_item, MemoryPublications.id_of_find? found]

/-- What a call for the next item does, which leaves the store as it is. -/
theorem next_run (codec : EventCodec Id Event) (pending : List Identifier)
    (session : Session Event World) :
    (∃ passed id left given, pending = passed ++ id :: left ∧
      (∀ other ∈ passed, offer? codec session.memory other = none) ∧
      offer? codec session.memory id = some given ∧
      (registry codec).next pending session = ((some given, left), session)) ∨
    (∀ id ∈ pending, offer? codec session.memory id = none) ∧
      (registry codec).next pending session = ((none, []), session) := by
  induction pending with
  | nil => exact .inr ⟨by simp, rfl⟩
  | cons id rest ih =>
    unfold PublicationRegistry.next
    rw [runs_bind (lookUp_run id)]
    cases offered : offer? codec session.memory id with
    | some given => exact .inl ⟨[], id, rest, given, rfl, by simp, offered, rfl⟩
    | none =>
      rcases ih with ⟨passed, other, left, given, rfl, unavailable, available, ran⟩ | ⟨nothing, ran⟩
      · refine .inl ⟨id :: passed, other, left, given, rfl, ?_, available, ran⟩
        exact List.forall_mem_cons.mpr ⟨offered, unavailable⟩
      · exact .inr ⟨List.forall_mem_cons.mpr ⟨offered, nothing⟩, ran⟩

/-- How the calls of an iteration share the identifiers among them: each call takes what it
passes over, and the one that it gives an item for, from the front. -/
inductive Iterates (codec : EventCodec Id Event) : List Identifier → List (Draw Event) → Prop where
  | idle (pending : List Identifier) : Iterates codec pending []
  | found {memory : MemoryPublications} {passed left : List Identifier} {id : Identifier}
      {given : PublicationRegistry.Item Event} {later : List (Draw Event)}
      (unavailable : ∀ other ∈ passed, offer? codec memory other = none)
      (offered : offer? codec memory id = some given) (rest : Iterates codec left later) :
      Iterates codec (passed ++ id :: left) (⟨memory, some given⟩ :: later)
  | exhausted {memory : MemoryPublications} {pending : List Identifier} {later : List (Draw Event)}
      (unavailable : ∀ id ∈ pending, offer? codec memory id = none)
      (rest : Iterates codec [] later) : Iterates codec pending (⟨memory, none⟩ :: later)

theorem iterates_draws (rounds : List (List StoreRequest)) (pending : List Identifier)
    (session : Session Event World) : Iterates codec pending (draws codec rounds pending session) := by
  induction rounds generalizing pending session with
  | nil => exact .idle pending
  | cons requests rounds ih =>
    unfold draws
    rcases next_run codec pending { session with memory := session.memory.served requests }
      with ⟨passed, id, left, given, rfl, unavailable, offered, ran⟩ | ⟨unavailable, ran⟩
    · simp only [ran]
      exact .found unavailable offered (ih left _)
    · simp only [ran]
      exact .exhausted unavailable (ih [] _)

theorem drawn_cons_of_offer? (offered : offer? codec memory id = some given) :
    drawn (⟨memory, some given⟩ :: calls) = some id :: drawn calls := by
  simp [drawn, identifier?_of_offer? offered]

-- An identifier that stands in the rest of a list without repetitions stands there only.
theorem pair_sublist_of_append (first : List Identifier) {second : List Identifier}
    {other : Identifier} (distinct : (first ++ second).Nodup) (member : id ∈ second)
    (pair : [id, other].Sublist (first ++ second)) : [id, other].Sublist second := by
  obtain ⟨early, late, both, inFirst, inSecond⟩ := List.sublist_append_iff.mp pair
  cases early with
  | nil => simpa [both] using inSecond
  | cons head early =>
    have same : id = head := by simpa using congrArg List.head? both
    have earlier : id ∈ first := same ▸ inFirst.subset List.mem_cons_self
    exact absurd member (List.disjoint_of_nodup_append distinct earlier)

namespace Iterates

theorem drawn_sublist (iterates : Iterates codec pending calls) :
    (drawn calls).Sublist (pending.map some) := by
  induction iterates with
  | idle pending => exact List.nil_sublist _
  | @found memory passed left id given later unavailable offered rest ih =>
    rw [drawn_cons_of_offer? offered, List.map_append, List.map_cons]
    exact (ih.cons_cons (some id)).trans (List.sublist_append_right ..)
  | exhausted unavailable rest ih => exact ih.trans (List.nil_sublist _)

theorem offer?_of_mem (iterates : Iterates codec pending calls) {call : Draw Event}
    (member : call ∈ calls) (gave : call.item? = some given) :
    ∃ id, offer? codec call.memory id = some given := by
  induction iterates with
  | idle pending => cases member
  | found unavailable offered rest ih =>
    rcases List.mem_cons.mp member with rfl | member
    · cases gave
      exact ⟨_, offered⟩
    · exact ih member
  | exhausted unavailable rest ih =>
    rcases List.mem_cons.mp member with rfl | member
    · cases gave
    · exact ih member

/-- When a call finds nothing, nothing was left for it to find. -/
theorem not_awaits_of_none {call : Draw Event} (iterates : Iterates codec pending (call :: calls))
    (nothing : call.item? = none) (member : id ∈ pending) : ¬call.memory.Awaits id := by
  cases iterates with
  | found unavailable offered rest => cases nothing
  | exhausted unavailable rest =>
    intro awaits
    exact offer?_ne_none awaits (unavailable id member)

/-- What is there and incomplete at every call until the iteration ends was given. -/
theorem mem_drawn (iterates : Iterates codec pending calls) {early late : List (Draw Event)}
    {last : Draw Event} (split : calls = early ++ last :: late) (nothing : last.item? = none)
    (member : id ∈ pending) (awaits : ∀ call ∈ early ++ [last], call.memory.Awaits id) :
    some id ∈ drawn early := by
  induction iterates generalizing early with
  | idle pending => simp at split
  | @found memory passed left other given later unavailable offered rest ih =>
    cases early with
    | nil =>
      cases split
      cases nothing
    | cons call early =>
      cases split
      rw [drawn_cons_of_offer? offered]
      obtain ⟨awaitsNow, awaitsLater⟩ := List.forall_mem_cons.mp awaits
      rcases List.mem_append.mp member with skipped | member
      · exact absurd (unavailable id skipped) (offer?_ne_none awaitsNow)
      · rcases List.mem_cons.mp member with rfl | member
        · exact List.mem_cons_self
        · exact List.mem_cons_of_mem _ (ih rfl member awaitsLater)
  | exhausted unavailable rest ih =>
    -- The first call found nothing, whether or not it is the last one that counts.
    cases early with
    | nil =>
      cases split
      exact absurd (unavailable id member) (offer?_ne_none (awaits _ List.mem_cons_self))
    | cons call early =>
      cases split
      exact absurd (unavailable id member) (offer?_ne_none (awaits _ List.mem_cons_self))

/-- After an item, readable or not, the next call goes on with the identifiers behind it. -/
theorem continues (iterates : Iterates codec pending calls) (distinct : pending.Nodup)
    {early late : List (Draw Event)} {call next : Draw Event} {other : Identifier}
    (split : calls = early ++ call :: next :: late) (gave : call.item? = some given)
    (named : PublicationRegistry.identifier? given = some id)
    (behind : [id, other].Sublist pending) (awaits : next.memory.Awaits other) :
    next.item? ≠ none := by
  induction iterates generalizing early with
  | idle pending => simp at split
  | @found memory passed left first given' later unavailable offered rest ih =>
    have distinctLeft := (List.nodup_append.mp distinct).2.1
    cases early with
    | nil =>
      cases split
      cases gave
      have same := (identifier?_of_offer? offered).symm.trans named
      cases same
      have pair := pair_sublist_of_append passed distinct List.mem_cons_self behind
      have member : other ∈ left := by simpa using pair
      intro nothing
      exact rest.not_awaits_of_none nothing member awaits
    | cons head early =>
      cases split
      have member : some id ∈ drawn (early ++ call :: next :: late) := by
        simp [drawn, gave, named]
      have inLeft : id ∈ left := by simpa using rest.drawn_sublist.subset member
      have pair := pair_sublist_of_append passed distinct (List.mem_cons_of_mem _ inLeft) behind
      refine ih (List.nodup_cons.mp distinctLeft).2 rfl ?_
      exact pair_sublist_of_append [first] distinctLeft inLeft pair
  | exhausted unavailable rest ih =>
    cases early with
    | nil =>
      cases split
      cases gave
    | cons head early =>
      cases split
      have member : some id ∈ drawn (early ++ call :: next :: late) := by
        simp [drawn, gave, named]
      have impossible := rest.drawn_sublist.subset member
      simp at impossible

end Iterates

/-- What the calls of an iteration give, told by the identifiers taken down for it. -/
structure FollowsSnapshot (codec : EventCodec Id Event) (snapshot : List Identifier)
    (calls : List (Draw Event)) : Prop where
  distinct : (drawn calls).Nodup
  /-- Every item is found under an identifier of the snapshot, and they keep their order. -/
  ordered : (drawn calls).Sublist (snapshot.map some)
  /-- An item is read from the entry as it is at the call, or says that it cannot be read. -/
  current : ∀ call ∈ calls, ∀ given, call.item? = some given →
    ∃ entry, call.memory.find? entry.id = some entry ∧ entry.isCompleted = false ∧
      given = item codec entry
  /-- What is there and incomplete until a call finds nothing any more was given before. -/
  complete : ∀ early last late, calls = early ++ last :: late → last.item? = none →
    ∀ id ∈ snapshot, (∀ call ∈ early ++ [last], call.memory.Awaits id) → some id ∈ drawn early
  /-- No item ends the iteration, least of all one that cannot be read. -/
  continues : ∀ early call next late given id, calls = early ++ call :: next :: late →
    call.item? = some given → PublicationRegistry.identifier? given = some id →
    ∀ other, [id, other].Sublist snapshot → next.memory.Awaits other → next.item? ≠ none

theorem Iterates.followsSnapshot {snapshot : List Identifier} (distinct : snapshot.Nodup)
    (iterates : Iterates codec snapshot calls) : FollowsSnapshot codec snapshot calls where
  distinct := by
    have apart : (snapshot.map some).Nodup := distinct.map fun _ _ => Option.some.inj
    exact apart.sublist iterates.drawn_sublist
  ordered := iterates.drawn_sublist
  current := by
    intro call member given gave
    obtain ⟨id, offered⟩ := iterates.offer?_of_mem member gave
    obtain ⟨entry, found, incomplete, rfl⟩ := offer?_eq_some.mp offered
    cases MemoryPublications.id_of_find? found
    exact ⟨entry, found, incomplete, rfl⟩
  complete := by
    intro early last late split nothing id member awaits
    exact iterates.mem_drawn split nothing member awaits
  continues := by
    intro early call next late given id split gave named other behind awaits
    exact iterates.continues distinct split gave named behind awaits

theorem pending_run (session : Session Event World) (wellKept : session.memory.WellKept) :
    (registry codec).pending session = (.ok (session.memory.due.map (·.id)), session) := by
  rw [← MemoryPublications.incomplete_eq_due wellKept]
  rfl

/-- Whatever was asked of the store before, and whatever is asked of it between the calls: an
iteration gives what is incomplete at the call, in the order taken down when it was begun. -/
theorem iteration_follows_snapshot (earlier : List StoreRequest) (codec : EventCodec Id Event)
    (rounds : List (List StoreRequest)) (world : World) :
    let session : Session Event World := ⟨MemoryPublications.reached earlier, [], world⟩
    let snapshot := session.memory.due.map (·.id)
    (registry codec).pending session = (.ok snapshot, session) ∧
      FollowsSnapshot codec snapshot (draws codec rounds snapshot session) := by
  intro session snapshot
  have wellKept : session.memory.WellKept := MemoryPublications.wellKept_reached earlier
  have iterates : Iterates codec snapshot (draws codec rounds snapshot session) :=
    iterates_draws rounds snapshot session
  refine ⟨pending_run session wellKept, ?_⟩
  apply iterates.followsSnapshot
  exact MemoryPublications.due_identifiers wellKept

end Session

end ModuleBoundary
