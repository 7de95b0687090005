import Mathlib.Data.List.Induction
import ModuleBoundary.Proofs.Publication.Memory

/-! What becomes of an entry after its insertion, whatever else is asked of the store.

An entry is completed once and for all by the first request to complete it. Only a request to
delete what was completed before some later instant takes it away.
-/

set_option autoImplicit false

namespace ModuleBoundary

/-- The completion date that a request brings to an identifier. -/
def StoreRequest.completion? (id : Identifier) : StoreRequest → Option Instant
  | .complete other date => date.onlyFor other id
  | .insert _ | .find _ | .incomplete | .deleteCompleted _ => none

def firstCompletion? (id : Identifier) (requests : List StoreRequest) : Option Instant :=
  requests.findSome? (·.completion? id)

theorem firstCompletion?_append (id : Identifier) (first second : List StoreRequest) :
    firstCompletion? id (first ++ second) =
      (firstCompletion? id first).or (firstCompletion? id second) := List.findSome?_append

theorem firstCompletion?_singleton (id : Identifier) (request : StoreRequest) :
    firstCompletion? id [request] = request.completion? id := by
  simp [firstCompletion?]

/-- An entry with the first completion date that some requests bring to it. -/
def PublicationEntry.completedIn (entry : PublicationEntry) (requests : List StoreRequest) :
    PublicationEntry :=
  { entry with completed := firstCompletion? entry.id requests }

namespace PublicationEntry

variable {entry : PublicationEntry}

theorem completedIn_of_none {requests : List StoreRequest} (incomplete : entry.completed = none)
    (nothing : firstCompletion? entry.id requests = none) : entry.completedIn requests = entry := by
  rw [completedIn, nothing, ← incomplete]

theorem gain_of_isCompleted (completed : entry.isCompleted = true) (date? : Option Instant) :
    entry.gain date? = entry := by
  obtain ⟨date, done⟩ := Option.isSome_iff_exists.mp completed
  rw [gain, done, Option.some_or, ← done]

theorem completedIn_append_singleton (requests : List StoreRequest) (request : StoreRequest) :
    entry.completedIn (requests ++ [request]) =
      (entry.completedIn requests).gain (request.completion? entry.id) := by
  rw [completedIn, firstCompletion?_append, firstCompletion?_singleton]
  rfl

end PublicationEntry

namespace MemoryPublications

variable {memory later : MemoryPublications} {entry : PublicationEntry} {id : Identifier}

theorem find?_insert (inserted : memory.insert entry = .ok later) (id : Identifier) :
    later.find? id = if entry.id = id then some entry else memory.find? id := by
  obtain ⟨-, rfl⟩ := insert_eq_ok.mp inserted
  by_cases named : entry.id = id <;> simp [find?, named]

theorem find?_deleteCompleted (wellKept : memory.WellKept) (before : Instant) (id : Identifier) :
    (memory.deleteCompleted before).find? id =
      (memory.find? id).filter (!isDoneBefore before ·) := by
  refine Option.ext fun entry => ?_
  rw [find?_eq_some (wellKept.deleteCompleted before), toList_deleteCompleted wellKept,
    Option.filter_eq_some_iff, find?_eq_some wellKept, List.mem_filter]
  exact and_right_comm

/-- A completion that is refused has nothing to complete. -/
theorem serve_complete (memory : MemoryPublications) (id : Identifier) (date : Instant) :
    memory.serve (.complete id date) = memory.gain (date.onlyFor id) := by
  change (update (·.complete id date) memory).2 = _
  rw [update_run]
  by_cases missing : memory.find? id = none
  · rw [complete_eq_error missing, gain_eq_self]
    intro kept member
    exact date.onlyFor_of_ne (find?_eq_none.mp missing kept member)
  · rw [complete_eq_ok.mpr ⟨missing, rfl⟩]

/-- No request but a deletion removes an entry, and only a completion of its own changes it. -/
theorem find?_serve (found : memory.find? id = some entry) {request : StoreRequest}
    (spares : ∀ before, request ≠ .deleteCompleted before) :
    (memory.serve request).find? id = some (entry.gain (request.completion? id)) := by
  cases request with
  | insert other =>
    change (update (·.insert other) memory).2.find? id = some (entry.gain none)
    rw [update_run, PublicationEntry.gain_none]
    cases inserted : memory.insert other with
    | error e => exact found
    | ok later =>
      -- An identifier that is found is refused, so what comes bears another.
      have apart : other.id ≠ id := by
        rintro rfl
        rw [(insert_eq_ok.mp inserted).1] at found
        cases found
      rw [find?_insert inserted, if_neg apart, found]
  | complete other date =>
    rw [serve_complete, find?_gain, found]
    rfl
  | find other => rwa [StoreRequest.completion?, PublicationEntry.gain_none]
  | incomplete => rwa [StoreRequest.completion?, PublicationEntry.gain_none]
  | deleteCompleted before => exact absurd rfl (spares before)

theorem served_append (memory : MemoryPublications) (first second : List StoreRequest) :
    memory.served (first ++ second) = (memory.served first).served second := List.foldl_append

/-- A completed entry is as it is for as long as it is there. -/
theorem find?_served_of_isCompleted (wellKept : memory.WellKept)
    (found : memory.find? id = some entry) (completed : entry.isCompleted = true)
    (requests : List StoreRequest)
    (present : ∀ early, early <+: requests → (memory.served early).find? id ≠ none) :
    (memory.served requests).find? id = some entry := by
  induction requests using List.reverseRecOn with
  | nil => exact found
  | append_singleton requests request ih =>
    have kept : (memory.served requests).find? id = some entry := by
      apply ih
      intro early begins
      exact present early (begins.trans (List.prefix_append ..))
    have still := present (requests ++ [request]) (List.prefix_refl _)
    rw [served_append] at still ⊢
    change ((memory.served requests).serve request).find? id ≠ none at still
    change ((memory.served requests).serve request).find? id = some entry
    by_cases deletes : ∃ before, request = .deleteCompleted before
    · obtain ⟨before, rfl⟩ := deletes
      have deleted := find?_deleteCompleted (wellKept.served requests) before id
      change ((memory.served requests).deleteCompleted before).find? id ≠ none at still
      change ((memory.served requests).deleteCompleted before).find? id = some entry
      rw [kept, Option.filter_some] at deleted
      split at deleted
      · exact deleted
      · exact absurd deleted still
    · rw [find?_serve kept fun before same => deletes ⟨before, same⟩]
      rw [PublicationEntry.gain_of_isCompleted completed]

/-! The whole history of an entry. -/

theorem reached_append_singleton (requests : List StoreRequest) (request : StoreRequest) :
    reached (requests ++ [request]) = (reached requests).serve request := by
  simp [reached]

/-- How a removal shows in the store: the entry was completed for the first time before the
instant of the deletion, it is found until then, and it is gone afterwards. -/
structure RemovedBy (history : List StoreRequest) (entry : PublicationEntry)
    (early : List StoreRequest) (before : Instant) : Prop where
  completed : ∃ date, firstCompletion? entry.id early = some date ∧ date.isBefore before
  found : (reached (history ++ early)).find? entry.id = some (entry.completedIn early)
  gone : (reached (history ++ early ++ [.deleteCompleted before])).find? entry.id = none

variable {history : List StoreRequest}

/-- A deletion leaves an entry as it is, or removes it. -/
theorem found_or_removed_now (early : List StoreRequest)
    (kept : (reached (history ++ early)).find? entry.id = some (entry.completedIn early))
    (before : Instant) :
    (reached (history ++ early ++ [.deleteCompleted before])).find? entry.id =
        some (entry.completedIn early) ∨ RemovedBy history entry early before := by
  have deleted := find?_deleteCompleted (wellKept_reached (history ++ early)) before entry.id
  rw [kept, Option.filter_some] at deleted
  have last := reached_append_singleton (history ++ early) (.deleteCompleted before)
  cases done : isDoneBefore before (entry.completedIn early) with
  | false =>
    simp only [done, Bool.not_false, if_true] at deleted
    exact .inl (last ▸ deleted)
  | true =>
    simp only [done, Bool.not_true, Bool.false_eq_true, if_false] at deleted
    exact .inr ⟨(Option.any_eq_true ..).mp done, kept, last ▸ deleted⟩

theorem found_or_removed (found : (reached history).find? entry.id = some entry)
    (incomplete : entry.completed = none) (after : List StoreRequest) :
    (reached (history ++ after)).find? entry.id = some (entry.completedIn after) ∨
      ∃ early before late, after = early ++ .deleteCompleted before :: late ∧
        RemovedBy history entry early before := by
  -- Requests come at the end: what was removed before the last of them stays so.
  induction after using List.reverseRecOn with
  | nil =>
    rw [List.append_nil, PublicationEntry.completedIn_of_none incomplete rfl]
    exact .inl found
  | append_singleton requests request ih =>
    rw [← List.append_assoc]
    rcases ih with kept | ⟨early, before, late, rfl, removed⟩
    · by_cases deletes : ∃ before, request = .deleteCompleted before
      · obtain ⟨before, rfl⟩ := deletes
        rcases found_or_removed_now requests kept before with kept | removed
        · rw [PublicationEntry.completedIn_append_singleton, StoreRequest.completion?,
            PublicationEntry.gain_none]
          exact .inl kept
        · exact .inr ⟨requests, before, [], rfl, removed⟩
      · rw [reached_append_singleton, PublicationEntry.completedIn_append_singleton]
        refine .inl (find?_serve kept ?_)
        rintro before rfl
        exact deletes ⟨before, rfl⟩
    · refine .inr ⟨early, before, late ++ [request], ?_, removed⟩
      rw [List.append_assoc, List.cons_append]

theorem find?_after_insertion (earlier : List StoreRequest)
    (inserted : (store.insert entry (reached earlier)).1 = .ok ()) :
    (reached (earlier ++ [.insert entry])).find? entry.id = some entry := by
  rw [reached_append_singleton]
  change (update (·.insert entry) (reached earlier)).1 = _ at inserted
  change (update (·.insert entry) (reached earlier)).2.find? entry.id = _
  rw [update_run] at inserted ⊢
  cases done : (reached earlier).insert entry with
  | error e => simp [done] at inserted
  | ok later => rw [find?_insert done, if_pos rfl]

theorem mem_incomplete (wellKept : memory.WellKept) (found : memory.find? id = some entry)
    (incomplete : entry.completed = none) : id ∈ memory.incomplete := by
  obtain ⟨member, rfl⟩ := (find?_eq_some wellKept).mp found
  rw [incomplete_eq_due wellKept]
  refine List.mem_map.mpr ⟨entry, mem_due.mpr ⟨member, ?_⟩, rfl⟩
  rw [PublicationEntry.isCompleted, incomplete, Option.isSome_none]

/-- An entry that was inserted incomplete is found, with the first completion date since then,
until a deletion removes it; and only after its completion can a deletion do so. -/
theorem entry_kept_until_removed {earlier : List StoreRequest} {entry : PublicationEntry}
    (inserted : (store.insert entry (reached earlier)).1 = .ok ())
    (incomplete : entry.completed = none) (after : List StoreRequest) :
    let state requests := reached (earlier ++ .insert entry :: requests)
    ((∀ early, early <+: after → (state early).find? entry.id ≠ none) →
      (state after).find? entry.id = some (entry.completedIn after)) ∧
    ((state after).find? entry.id = none → ∃ early before late date,
      after = early ++ .deleteCompleted before :: late ∧
        firstCompletion? entry.id early = some date ∧ date.isBefore before ∧
        (state early).find? entry.id = some (entry.completedIn early) ∧
        (state (early ++ [.deleteCompleted before])).find? entry.id = none) ∧
    (firstCompletion? entry.id after = none →
      (state after).find? entry.id = some entry ∧ entry.id ∈ (state after).incomplete) := by
  intro state
  have split (requests : List StoreRequest) :
      state requests = reached (earlier ++ [.insert entry] ++ requests) := by
    rw [List.append_assoc, List.singleton_append]
  have outcome := found_or_removed (find?_after_insertion earlier inserted) incomplete after
  rw [← split] at outcome
  refine ⟨fun present => ?_, fun missing => ?_, fun nothing => ?_⟩
  · rcases outcome with kept | ⟨early, before, late, rfl, removed⟩
    · exact kept
    · have gone := removed.gone
      rw [List.append_assoc, ← split] at gone
      exact absurd gone (present _ ⟨late, by rw [List.append_assoc, List.singleton_append]⟩)
  · rcases outcome with kept | ⟨early, before, late, rfl, removed⟩
    · rw [kept] at missing
      cases missing
    · obtain ⟨date, completed, passed⟩ := removed.completed
      refine ⟨early, before, late, date, rfl, completed, passed, ?_, ?_⟩
      · rw [split]
        exact removed.found
      · rw [split, ← List.append_assoc]
        exact removed.gone
  · rcases outcome with kept | ⟨early, before, late, rfl, removed⟩
    · rw [PublicationEntry.completedIn_of_none incomplete nothing] at kept
      exact ⟨kept, mem_incomplete (wellKept_reached _) kept incomplete⟩
    · obtain ⟨date, completed, -⟩ := removed.completed
      rw [firstCompletion?_append, completed, Option.some_or] at nothing
      cases nothing

/-- An order that is to be announced to the billing of a shop. -/
def announcedOrder : PublicationEntry where
  id := .ones
  eventType := "OrderPlaced"
  payload := [123, 125]
  target := "billing"
  published := ⟨10, 0⟩
  completed := none

theorem announcedOrder_removed_after_completion :
    (store.insert announcedOrder (reached [])).1 = .ok () ∧ announcedOrder.completed = none ∧
    ∃ early before late date,
      [.complete .ones ⟨20, 0⟩, .complete .ones ⟨40, 0⟩, .deleteCompleted ⟨30, 0⟩] =
        early ++ .deleteCompleted before :: late ∧
      firstCompletion? .ones early = some date ∧ date.isBefore before ∧
      (reached (.insert announcedOrder :: early)).find? .ones =
        some (announcedOrder.completedIn early) ∧
      (reached (.insert announcedOrder :: (early ++ [.deleteCompleted before]))).find? .ones =
        none := by
  have inserted : (store.insert announcedOrder (reached [])).1 = .ok () := by rfl
  have incomplete : announcedOrder.completed = none := rfl
  refine ⟨inserted, incomplete, ?_⟩
  exact (entry_kept_until_removed inserted incomplete
    [.complete .ones ⟨20, 0⟩, .complete .ones ⟨40, 0⟩, .deleteCompleted ⟨30, 0⟩]).2.1 (by rfl)

end MemoryPublications

end ModuleBoundary
