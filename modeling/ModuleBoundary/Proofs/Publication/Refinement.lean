import ModuleBoundary.Proofs.Publication.Memory

/-! The store in memory answers as a list of entries in the order in which they came.

How the entries lie in memory may change before every call, and no answer shows it.
-/

set_option autoImplicit false

namespace ModuleBoundary

/-- A call of the store in memory: a request to a store, or for the number of entries. -/
inductive StoreCall where
  | request (request : StoreRequest)
  | size

inductive StoreAnswer where
  | done (result : Except StoreError Unit)
  | found (result : Except StoreError (Option PublicationEntry))
  | identifiers (result : Except StoreError (List Identifier))
  | counted (result : Except StoreError Nat)

def StoreCall.isInsertion : StoreCall → Bool
  | .request (.insert _) => true
  | _ => false

/-! The list that stands for a store. An entry that comes is put at its end. -/

namespace EntryList

/-- The stable sort by publication date of the entries without a completion date. -/
def incomplete (entries : List PublicationEntry) : List Identifier :=
  ((entries.filter (·.completed.isNone)).mergeSort fun first second =>
    (first.published.order second.published).isLE).map (·.id)

def complete (entries : List PublicationEntry) (id : Identifier) (date : Instant) :
    List PublicationEntry :=
  entries.map fun entry =>
    if entry.id = id then { entry with completed := some (entry.completed.getD date) } else entry

def isDone (before : Instant) (entry : PublicationEntry) : Bool :=
  match entry.completed with
  | some date => date.isBefore before
  | none => false

/-- The answer to a call, and what the call makes of the list. -/
def answer (entries : List PublicationEntry) : StoreCall → StoreAnswer × List PublicationEntry
  | .request (.insert entry) =>
    if entry.id ∈ entries.map (·.id) then
      (.done (.error (.duplicateIdentifier entry.id)), entries)
    else (.done (.ok ()), entries ++ [entry])
  | .request (.complete id date) =>
    if id ∈ entries.map (·.id) then (.done (.ok ()), complete entries id date)
    else (.done (.error (.notFound id)), entries)
  | .request (.find id) => (.found (.ok (entries.find? (·.id = id))), entries)
  | .request .incomplete => (.identifiers (.ok (incomplete entries)), entries)
  | .request (.deleteCompleted before) =>
    (.counted (.ok (entries.countP (isDone before))), entries.filter (!isDone before ·))
  | .size => (.counted (.ok entries.length), entries)

def answers (entries : List PublicationEntry) :
    List StoreCall → List StoreAnswer × List PublicationEntry
  | [] => ([], entries)
  | call :: calls =>
    let (first, next) := answer entries call
    let (rest, last) := answers next calls
    (first :: rest, last)

end EntryList

/-- A way in which entries may come to lie in memory. -/
structure Arrangement where
  arrange : List StoredEntry → List StoredEntry
  perm : ∀ stored, (arrange stored).Perm stored

namespace MemoryPublications

def arranged (memory : MemoryPublications) (arrangement : Arrangement) : MemoryPublications :=
  { memory with stored := arrangement.arrange memory.stored }

def answer : StoreCall → StateM MemoryPublications StoreAnswer
  | .request (.insert entry) => .done <$> store.insert entry
  | .request (.complete id date) => .done <$> store.complete id date
  | .request (.find id) => .found <$> store.find id
  | .request .incomplete => .identifiers <$> store.incomplete
  | .request (.deleteCompleted before) => .counted <$> store.deleteCompleted before
  | .size => return .counted (.ok (← get).size)

/-- The answers to some calls, before each of which the entries are rearranged. -/
def answers (memory : MemoryPublications) :
    List (Arrangement × StoreCall) → List StoreAnswer × MemoryPublications
  | [] => ([], memory)
  | (arrangement, call) :: calls =>
    let (first, next) := answer call (memory.arranged arrangement)
    let (rest, last) := answers next calls
    (first :: rest, last)

variable {memory later : MemoryPublications} {entries : List PublicationEntry}

theorem done_run (change : MemoryPublications → Except StoreError MemoryPublications)
    (memory : MemoryPublications) :
    (StoreAnswer.done <$> update change : StateM MemoryPublications StoreAnswer) memory =
      match change memory with
      | .ok later => (.done (.ok ()), later)
      | .error e => (.done (.error e), memory) := by
  change (StoreAnswer.done (update change memory).1, (update change memory).2) = _
  rw [update_run]
  cases change memory <;> rfl

theorem answer_insert (entry : PublicationEntry) :
    answer (.request (.insert entry)) = .done <$> update (·.insert entry) := rfl

theorem answer_complete (id : Identifier) (date : Instant) :
    answer (.request (.complete id date)) = .done <$> update (·.complete id date) := rfl

/-- A memory that holds the entries of a list, and tells the order in which they came. -/
structure Holds (memory : MemoryPublications) (entries : List PublicationEntry) : Prop where
  wellKept : memory.WellKept
  listed : memory.toList = entries

namespace Holds

theorem distinct (holds : memory.Holds entries) : (entries.map (·.id)).Nodup := by
  rw [← holds.listed]
  exact toList_identifiers holds.wellKept

theorem find?_eq (holds : memory.Holds entries) (id : Identifier) :
    memory.find? id = entries.find? (·.id = id) := by
  refine Option.ext fun entry => ?_
  have named : entries.find? (·.id = id) = some entry ↔ _ := find?_name_eq_some holds.distinct
  rw [find?_eq_some holds.wellKept, holds.listed]
  exact named.symm

theorem find?_eq_none_iff (holds : memory.Holds entries) {id : Identifier} :
    memory.find? id = none ↔ id ∉ entries.map (·.id) := by
  simp [holds.find?_eq]

/-- How the entries lie in memory has no bearing on what is held. -/
theorem arranged (holds : memory.Holds entries) (arrangement : Arrangement) :
    (memory.arranged arrangement).Holds entries := by
  have rearranged : (arrangement.arrange memory.stored).Perm memory.stored := arrangement.perm _
  have wellKept : (memory.arranged arrangement).WellKept := by
    refine ⟨?_, ?_, ?_⟩
    · exact (rearranged.map _).nodup_iff.mpr holds.wellKept.identifiers
    · exact (rearranged.map _).nodup_iff.mpr holds.wellKept.arrivals
    · intro kept member
      exact holds.wellKept.arrived kept (rearranged.mem_iff.mp member)
  -- Numbers of arrival put the entries back in order, and there is one such order only.
  have unmoved : (memory.arranged arrangement).inOrder = memory.inOrder :=
    inOrder_eq wellKept memory.inOrder (inOrder_perm.trans rearranged.symm)
      (inOrder_pairwise holds.wellKept)
  refine ⟨wellKept, ?_⟩
  rw [toList_eq, unmoved]
  exact holds.listed

theorem size_eq (holds : memory.Holds entries) : memory.size = entries.length := by
  rw [← holds.listed, toList_eq, List.length_map, inOrder_perm.length_eq, size]

theorem incomplete_eq (holds : memory.Holds entries) :
    memory.incomplete = EntryList.incomplete entries := by
  rw [incomplete_eq_due holds.wellKept, due, holds.listed]
  have same : (fun entry : PublicationEntry => !entry.isCompleted) = (·.completed.isNone) := by
    funext entry
    simp [PublicationEntry.isCompleted]
  rw [same, EntryList.incomplete]

theorem gain (holds : memory.Holds entries) (id : Identifier) (date : Instant) :
    (memory.gain (date.onlyFor id)).Holds (EntryList.complete entries id date) := by
  refine ⟨holds.wellKept.gain _, ?_⟩
  rw [toList_gain, holds.listed, EntryList.complete]
  refine List.map_congr_left fun entry _ => ?_
  by_cases named : entry.id = id
  · cases done : entry.completed <;> simp [named, PublicationEntry.gain, done]
  · simp [named, Instant.onlyFor_of_ne]

theorem deleteCompleted (holds : memory.Holds entries) (before : Instant) :
    (memory.deleteCompleted before).Holds (entries.filter (!EntryList.isDone before ·)) := by
  refine ⟨holds.wellKept.deleteCompleted before, ?_⟩
  have same : isDoneBefore before = EntryList.isDone before := by
    funext entry
    cases done : entry.completed <;> simp [isDoneBefore, EntryList.isDone, done]
  rw [toList_deleteCompleted holds.wellKept, holds.listed, same]

end Holds

/-- An answer is the one of the list, and the memory goes on to hold what the list becomes. -/
structure AnswersAs (told : StoreAnswer × MemoryPublications)
    (expected : StoreAnswer × List PublicationEntry) : Prop where
  same : told.1 = expected.1
  holds : told.2.Holds expected.2

namespace Holds

theorem insert (holds : memory.Holds entries) (entry : PublicationEntry) :
    AnswersAs (answer (.request (.insert entry)) memory)
      (EntryList.answer entries (.request (.insert entry))) := by
  rw [answer_insert, done_run, EntryList.answer]
  by_cases known : entry.id ∈ entries.map (·.id)
  · have found : memory.find? entry.id ≠ none := by
      intro missing
      exact holds.find?_eq_none_iff.mp missing known
    rw [insert_eq_error found, if_pos known]
    exact ⟨rfl, holds⟩
  · have inserted := insert_eq_ok.mpr ⟨holds.find?_eq_none_iff.mpr known, rfl⟩
    rw [inserted, if_neg known]
    refine ⟨rfl, holds.wellKept.insert inserted, ?_⟩
    rw [toList_insert holds.wellKept inserted, holds.listed]

theorem complete (holds : memory.Holds entries) (id : Identifier) (date : Instant) :
    AnswersAs (answer (.request (.complete id date)) memory)
      (EntryList.answer entries (.request (.complete id date))) := by
  rw [answer_complete, done_run, EntryList.answer]
  by_cases known : id ∈ entries.map (·.id)
  · have found : memory.find? id ≠ none := by
      intro missing
      exact holds.find?_eq_none_iff.mp missing known
    rw [complete_eq_ok.mpr ⟨found, rfl⟩, if_pos known]
    exact ⟨rfl, holds.gain id date⟩
  · rw [complete_eq_error (holds.find?_eq_none_iff.mpr known), if_neg known]
    exact ⟨rfl, holds⟩

theorem answer (holds : memory.Holds entries) (call : StoreCall) :
    AnswersAs (answer call memory) (EntryList.answer entries call) := by
  cases call with
  | size => exact ⟨congrArg (StoreAnswer.counted ∘ .ok) holds.size_eq, holds⟩
  | request request =>
    cases request with
    | insert entry => exact holds.insert entry
    | complete id date => exact holds.complete id date
    | find id => exact ⟨congrArg (StoreAnswer.found ∘ .ok) (holds.find?_eq id), holds⟩
    | incomplete => exact ⟨congrArg (StoreAnswer.identifiers ∘ .ok) holds.incomplete_eq, holds⟩
    | deleteCompleted before =>
      refine ⟨congrArg (StoreAnswer.counted ∘ .ok) ?_, holds.deleteCompleted before⟩
      -- The store counts what is left, the list what goes.
      have parts := List.length_eq_length_filter_add (l := entries) (EntryList.isDone before)
      rw [holds.size_eq, (holds.deleteCompleted before).size_eq, List.countP_eq_length_filter]
      omega

end Holds

theorem Holds.answers (holds : memory.Holds entries) (calls : List (Arrangement × StoreCall)) :
    (memory.answers calls).1 = (EntryList.answers entries (calls.map (·.2))).1 ∧
      (memory.answers calls).2.Holds (EntryList.answers entries (calls.map (·.2))).2 := by
  induction calls generalizing memory entries with
  | nil => exact ⟨rfl, holds⟩
  | cons step calls ih =>
    obtain ⟨arrangement, call⟩ := step
    have first := (holds.arranged arrangement).answer call
    obtain ⟨same, later⟩ := ih first.holds
    exact ⟨congrArg₂ List.cons first.same same, later⟩

theorem nodup_of_answer (wellKept : memory.WellKept) {call : StoreCall} {ids : List Identifier}
    (told : (answer call memory).1 = .identifiers (.ok ids)) : ids.Nodup := by
  cases call with
  | size => cases told
  | request request =>
    cases request with
    | incomplete =>
      cases told
      rw [incomplete_eq_due wellKept]
      exact due_identifiers wellKept
    | _ => cases told

theorem Holds.nodup_of_answers (holds : memory.Holds entries)
    (calls : List (Arrangement × StoreCall)) {ids : List Identifier}
    (told : .identifiers (.ok ids) ∈ (memory.answers calls).1) : ids.Nodup := by
  induction calls generalizing memory entries with
  | nil => cases told
  | cons step calls ih =>
    obtain ⟨arrangement, call⟩ := step
    have arranged := holds.arranged arrangement
    rcases List.mem_cons.mp told with first | told
    · exact nodup_of_answer arranged.wellKept first.symm
    · exact ih (arranged.answer call).holds told

/-- Only an insertion takes a number. -/
theorem nextArrival_answer (memory : MemoryPublications) (call : StoreCall) :
    (answer call memory).2.nextArrival ≤
      memory.nextArrival + if call.isInsertion then 1 else 0 := by
  cases call with
  | size => exact Nat.le_refl _
  | request request =>
    cases request with
    | insert entry =>
      rw [answer_insert, done_run]
      cases inserted : memory.insert entry with
      | error e => exact Nat.le_succ _
      | ok later =>
        obtain ⟨-, rfl⟩ := insert_eq_ok.mp inserted
        exact Nat.le_refl _
    | complete id date =>
      rw [answer_complete, done_run]
      cases completed : memory.complete id date with
      | error e => exact Nat.le_refl _
      | ok later =>
        obtain ⟨-, rfl⟩ := complete_eq_ok.mp completed
        exact Nat.le_refl _
    | _ => exact Nat.le_refl _

theorem nextArrival_answers (memory : MemoryPublications) (calls : List (Arrangement × StoreCall)) :
    (memory.answers calls).2.nextArrival ≤
      memory.nextArrival + calls.countP (·.2.isInsertion) := by
  induction calls generalizing memory with
  | nil => exact Nat.le_refl _
  | cons step calls ih =>
    obtain ⟨arrangement, call⟩ := step
    let next := (answer call (memory.arranged arrangement)).2
    have first : next.nextArrival ≤ memory.nextArrival + if call.isInsertion then 1 else 0 :=
      nextArrival_answer (memory.arranged arrangement) call
    have last : (memory.answers ((arrangement, call) :: calls)).2 = (next.answers calls).2 := rfl
    have rest := ih next
    simp only [last, List.countP_cons]
    omega

theorem holds_empty : Holds {} [] := ⟨wellKept_reached [], by simp [toList]⟩

/-- A store that was empty answers every call as a list of entries does, however its entries
come to lie in memory. No listing has an identifier twice, and no more numbers of arrival
are given out than there were insertions. -/
theorem answers_as_entry_list (calls : List (Arrangement × StoreCall)) :
    let ran := answers {} calls
    let expected := EntryList.answers [] (calls.map (·.2))
    ran.1 = expected.1 ∧ ran.2.toList = expected.2 ∧ (expected.2.map (·.id)).Nodup ∧
      (∀ ids, .identifiers (.ok ids) ∈ ran.1 → ids.Nodup) ∧
      ran.2.nextArrival ≤ calls.countP (·.2.isInsertion) := by
  intro ran expected
  obtain ⟨same, holds⟩ := holds_empty.answers calls
  refine ⟨same, holds.listed, holds.distinct, fun ids => holds_empty.nodup_of_answers calls, ?_⟩
  have numbers := nextArrival_answers {} calls
  rwa [Nat.zero_add] at numbers

end MemoryPublications

end ModuleBoundary
