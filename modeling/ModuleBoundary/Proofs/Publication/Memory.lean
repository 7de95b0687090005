import Mathlib.Data.List.Nodup
import ModuleBoundary.Proofs.Names
import ModuleBoundary.Proofs.Sorting
import ModuleBoundary.Publication.Memory

/-! The store in memory as a list of entries in the order in which they came.

Nothing here depends on the order in which the entries lie in memory: every listing sorts
them by numbers that no two of them share.
-/

set_option autoImplicit false

namespace ModuleBoundary

instance : Std.TransCmp Instant.order := inferInstanceAs (Std.TransCmp (compareLex _ _))

namespace StoredEntry

def dateOrder (first second : StoredEntry) : Ordering :=
  first.entry.published.order second.entry.published

variable {first second : StoredEntry}

theorem order_eq :
    first.order second = (dateOrder first second).then (compare first.arrival second.arrival) := rfl

instance : Std.TransCmp dateOrder where
  eq_swap {first second} := by
    exact @Std.OrientedCmp.eq_swap _ Instant.order _ first.entry.published second.entry.published
  isLE_trans before after := by
    unfold dateOrder at before after ⊢
    exact Std.TransCmp.isLE_trans before after

instance : Std.TransCmp order :=
  inferInstanceAs (Std.TransCmp (compareLex dateOrder (compareOn (·.arrival))))

theorem arrival_eq_of_order_eq (level : first.order second = .eq) :
    first.arrival = second.arrival := by
  rw [order_eq, Ordering.then_eq_eq] at level
  exact Nat.compare_eq_eq.mp level.2

theorem order_isLE (dated : (dateOrder first second).isLE)
    (tied : dateOrder first second = .eq → first.arrival ≤ second.arrival) :
    (first.order second).isLE := by
  rw [order_eq]
  cases same : dateOrder first second with
  | lt => rfl
  | eq => simpa [Nat.isLE_compare] using tied same
  | gt => simp [same] at dated

theorem isBefore_eq_false (ordered : (first.order second).isLE) :
    second.entry.published.isBefore first.entry.published = false := by
  rw [order_eq, Ordering.isLE_then_iff_or] at ordered
  have swapped : second.dateOrder first = (dateOrder first second).swap := Std.OrientedCmp.eq_swap
  change (second.dateOrder first).isLT = false
  rw [swapped]
  rcases ordered with before | ⟨level, -⟩
  · rw [before]
    rfl
  · rw [level]
    rfl

/-- What arrived later stands before something only by its date. -/
theorem isBefore_eq_true (before : first.order second = .lt) (arrived : second.arrival < first.arrival) :
    first.entry.published.isBefore second.entry.published = true := by
  rw [order_eq, Ordering.then_eq_lt] at before
  change (dateOrder first second).isLT = true
  rcases before with dated | ⟨-, arrivedFirst⟩
  · rw [dated]
    rfl
  · have := Nat.compare_eq_lt.mp arrivedFirst
    omega

end StoredEntry

/-- What a store may be asked for. -/
inductive StoreRequest where
  | insert (entry : PublicationEntry)
  | complete (id : Identifier) (date : Instant)
  | find (id : Identifier)
  | incomplete
  | deleteCompleted (before : Instant)

def Instant.onlyFor (date : Instant) (id : Identifier) (other : Identifier) : Option Instant :=
  if other = id then some date else none

/-- The entry with a completion date, unless it has one already. -/
def PublicationEntry.gain (entry : PublicationEntry) (date? : Option Instant) :
    PublicationEntry :=
  { entry with completed := entry.completed.or date? }

@[simp] theorem PublicationEntry.gain_none (entry : PublicationEntry) :
    entry.gain none = entry := by
  simp [gain]

def StoredEntry.gain (gained : Identifier → Option Instant) (kept : StoredEntry) : StoredEntry :=
  { kept with entry := kept.entry.gain (gained kept.entry.id) }

@[simp] theorem Instant.onlyFor_self (date : Instant) (id : Identifier) :
    date.onlyFor id id = some date := if_pos rfl

theorem Instant.onlyFor_of_ne (date : Instant) {id other : Identifier} (apart : other ≠ id) :
    date.onlyFor id other = none := if_neg apart

namespace StoredEntry

variable (gained : Identifier → Option Instant) (kept : StoredEntry)

@[simp] theorem arrival_gain : (kept.gain gained).arrival = kept.arrival := rfl

@[simp] theorem id_gain : (kept.gain gained).entry.id = kept.entry.id := rfl

theorem filter_gain (entries : List StoredEntry) :
    (entries.filter (!·.entry.isCompleted)).filter (fun kept => (gained kept.entry.id).isNone) =
      (entries.map (gain gained)).filter (!·.entry.isCompleted) := by
  induction entries with
  | nil => rfl
  | cons kept rest ih =>
    cases completed : kept.entry.completed with
    | some date =>
      simpa [PublicationEntry.isCompleted, gain, PublicationEntry.gain, completed] using ih
    | none =>
      cases date? : gained kept.entry.id with
      | some date =>
        simpa [PublicationEntry.isCompleted, gain, PublicationEntry.gain, completed, date?] using ih
      | none =>
        have same : kept.gain gained = kept := by simp [gain, date?]
        simpa [same, PublicationEntry.isCompleted, completed, date?] using ih

end StoredEntry

namespace MemoryPublications

def serve (memory : MemoryPublications) : StoreRequest → MemoryPublications
  | .insert entry => (store.insert entry memory).2
  | .complete id date => (store.complete id date memory).2
  | .find id => (store.find id memory).2
  | .incomplete => (store.incomplete memory).2
  | .deleteCompleted before => (store.deleteCompleted before memory).2

/-- What some requests make of a memory, one after the other. -/
def served (memory : MemoryPublications) (requests : List StoreRequest) : MemoryPublications :=
  requests.foldl serve memory

/-- What some requests make of an empty memory. -/
def reached (requests : List StoreRequest) : MemoryPublications := requests.foldl serve {}

/-- No identifier and no number of arrival is there twice, and the next number is new. -/
structure WellKept (memory : MemoryPublications) : Prop where
  identifiers : (memory.stored.map (·.entry.id)).Nodup
  arrivals : (memory.stored.map (·.arrival)).Nodup
  arrived : ∀ kept ∈ memory.stored, kept.arrival < memory.nextArrival

def gain (memory : MemoryPublications) (gained : Identifier → Option Instant) :
    MemoryPublications :=
  { memory with stored := memory.stored.map (StoredEntry.gain gained) }

def inOrder (memory : MemoryPublications) : List StoredEntry :=
  memory.stored.mergeSort fun first second => first.arrival ≤ second.arrival

/-- The incomplete entries by publication date; of one date, in the order in which they
came. -/
def due (memory : MemoryPublications) : List PublicationEntry :=
  (memory.toList.filter (!·.isCompleted)).mergeSort fun first second =>
    (first.published.order second.published).isLE

/-- The incomplete entries as they are sorted in memory. -/
def waiting (memory : MemoryPublications) : List StoredEntry :=
  (memory.stored.filter (!·.entry.isCompleted)).mergeSort fun first second =>
    (StoredEntry.order first second).isLE

variable {memory later : MemoryPublications}

theorem find?_eq_none {id : Identifier} :
    memory.find? id = none ↔ ∀ kept ∈ memory.stored, kept.entry.id ≠ id := by
  simp [find?]

theorem id_of_find? {id : Identifier} {entry : PublicationEntry}
    (found : memory.find? id = some entry) : entry.id = id := by
  obtain ⟨kept, first, rfl⟩ := Option.map_eq_some_iff.mp found
  simpa using List.find?_some first

/-! What a request does to the entries. -/

theorem insert_eq_ok {entry : PublicationEntry} :
    memory.insert entry = .ok later ↔ memory.find? entry.id = none ∧
      later = ⟨⟨memory.nextArrival, entry⟩ :: memory.stored, memory.nextArrival + 1⟩ := by
  unfold insert
  cases memory.find? entry.id <;> simp [eq_comm]

theorem insert_eq_error {entry : PublicationEntry} (known : memory.find? entry.id ≠ none) :
    memory.insert entry = .error (.duplicateIdentifier entry.id) :=
  if_pos (Option.isSome_iff_ne_none.mpr known)

theorem complete_eq_ok {id : Identifier} {date : Instant} :
    memory.complete id date = .ok later ↔
      memory.find? id ≠ none ∧ later = memory.gain (date.onlyFor id) := by
  have same (kept : StoredEntry) :
      (if kept.entry.id = id then { kept with entry := kept.entry.complete date } else kept) =
        kept.gain (date.onlyFor id) := by
    by_cases named : kept.entry.id = id
    · simp [named, StoredEntry.gain, Instant.onlyFor, PublicationEntry.gain,
        PublicationEntry.complete]
    · simp [named, StoredEntry.gain, Instant.onlyFor]
  unfold complete gain
  simp only [same]
  cases memory.find? id <;> simp [eq_comm]

theorem complete_eq_error {id : Identifier} {date : Instant} (missing : memory.find? id = none) :
    memory.complete id date = .error (.notFound id) :=
  if_pos (Option.isNone_iff_eq_none.mpr missing)

theorem gain_eq_self {gained : Identifier → Option Instant}
    (nothing : ∀ kept ∈ memory.stored, gained kept.entry.id = none) :
    memory.gain gained = memory := by
  have same : memory.stored.map (StoredEntry.gain gained) = memory.stored.map id := by
    refine List.map_congr_left fun kept member => ?_
    simp [StoredEntry.gain, nothing kept member]
  rw [gain, same, List.map_id]

@[simp] theorem gain_none : memory.gain (fun _ => none) = memory :=
  gain_eq_self fun _ _ => rfl

theorem gain_gain (first second : Identifier → Option Instant) :
    (memory.gain first).gain second = memory.gain fun id => (first id).or (second id) := by
  simp [gain, Function.comp_def, StoredEntry.gain, PublicationEntry.gain, Option.or_assoc]

theorem find?_gain (gained : Identifier → Option Instant) (id : Identifier) :
    (memory.gain gained).find? id = (memory.find? id).map (·.gain (gained id)) := by
  have unchanged : (memory.gain gained).stored.find? (·.entry.id = id) =
      (memory.stored.find? (·.entry.id = id)).map (StoredEntry.gain gained) := List.find?_map ..
  unfold find?
  rw [unchanged]
  cases found : memory.stored.find? (·.entry.id = id) with
  | none => rfl
  | some kept =>
    have named : kept.entry.id = id := by simpa using List.find?_some found
    simp [StoredEntry.gain, named]

/-! What every request keeps. -/

theorem WellKept.insert {entry : PublicationEntry} (wellKept : memory.WellKept)
    (inserted : memory.insert entry = .ok later) : later.WellKept := by
  obtain ⟨missing, rfl⟩ := insert_eq_ok.mp inserted
  refine ⟨?_, ?_, ?_⟩
  · refine List.nodup_cons.mpr ⟨?_, wellKept.identifiers⟩
    simpa using find?_eq_none.mp missing
  · refine List.nodup_cons.mpr ⟨?_, wellKept.arrivals⟩
    intro taken
    obtain ⟨kept, member, same⟩ := List.mem_map.mp taken
    have earlier := wellKept.arrived kept member
    simp only at same
    omega
  · intro kept member
    rcases List.mem_cons.mp member with rfl | member
    · exact Nat.lt_succ_self _
    · exact Nat.lt_succ_of_lt (wellKept.arrived kept member)

theorem WellKept.gain (wellKept : memory.WellKept) (gained : Identifier → Option Instant) :
    (memory.gain gained).WellKept := by
  refine ⟨?_, ?_, ?_⟩
  · simpa [MemoryPublications.gain, Function.comp_def] using wellKept.identifiers
  · simpa [MemoryPublications.gain, Function.comp_def] using wellKept.arrivals
  · simpa [MemoryPublications.gain] using wellKept.arrived

theorem WellKept.complete {id : Identifier} {date : Instant} (wellKept : memory.WellKept)
    (completed : memory.complete id date = .ok later) : later.WellKept := by
  obtain ⟨_, rfl⟩ := complete_eq_ok.mp completed
  exact wellKept.gain _

theorem WellKept.deleteCompleted (wellKept : memory.WellKept) (before : Instant) :
    (memory.deleteCompleted before).WellKept := by
  have fewer : (memory.deleteCompleted before).stored.Sublist memory.stored :=
    List.filter_sublist
  exact ⟨wellKept.identifiers.sublist (fewer.map _), wellKept.arrivals.sublist (fewer.map _),
    fun kept member => wellKept.arrived kept (fewer.subset member)⟩

theorem update_run (change : MemoryPublications → Except StoreError MemoryPublications) :
    update change memory = match change memory with
      | .ok later => (.ok (), later)
      | .error e => (.error e, memory) := by
  simp only [update, bind, StateT.bind, get, getThe, MonadStateOf.get, StateT.get, pure]
  cases change memory <;> rfl

theorem WellKept.update {change : MemoryPublications → Except StoreError MemoryPublications}
    (wellKept : memory.WellKept) (keeps : ∀ later, change memory = .ok later → later.WellKept) :
    (update change memory).2.WellKept := by
  rw [update_run]
  cases changed : change memory with
  | ok later => exact keeps later changed
  | error e => exact wellKept

theorem WellKept.serve (wellKept : memory.WellKept) (request : StoreRequest) :
    (memory.serve request).WellKept := by
  cases request with
  | insert entry => exact wellKept.update fun _ => wellKept.insert
  | complete id date => exact wellKept.update fun _ => wellKept.complete
  | find id => exact wellKept
  | incomplete => exact wellKept
  | deleteCompleted before => exact wellKept.deleteCompleted before

theorem WellKept.served (wellKept : memory.WellKept) (requests : List StoreRequest) :
    (memory.served requests).WellKept := by
  induction requests generalizing memory with
  | nil => exact wellKept
  | cons request rest ih => exact ih (wellKept.serve request)

theorem wellKept_reached (requests : List StoreRequest) : (reached requests).WellKept := by
  have empty : WellKept {} := ⟨List.nodup_nil, List.nodup_nil, by simp⟩
  exact empty.served requests

/-! The entries in order. -/

theorem toList_eq : memory.toList = memory.inOrder.map (·.entry) := rfl

theorem inOrder_perm : memory.inOrder.Perm memory.stored := List.mergeSort_perm ..

theorem mem_toList {entry : PublicationEntry} :
    entry ∈ memory.toList ↔ ∃ kept ∈ memory.stored, kept.entry = entry := by
  simp [toList_eq, inOrder_perm.mem_iff]

theorem toList_identifiers (wellKept : memory.WellKept) : (memory.toList.map (·.id)).Nodup := by
  rw [toList_eq, List.map_map]
  exact (inOrder_perm.map _).nodup_iff.mpr wellKept.identifiers

theorem find?_eq_some (wellKept : memory.WellKept) {id : Identifier} {entry : PublicationEntry} :
    memory.find? id = some entry ↔ entry ∈ memory.toList ∧ entry.id = id := by
  have named {kept} : memory.stored.find? (·.entry.id = id) = some kept ↔ _ :=
    find?_name_eq_some wellKept.identifiers
  simp only [find?, Option.map_eq_some_iff, named, mem_toList]
  constructor
  · rintro ⟨kept, ⟨member, same⟩, rfl⟩
    exact ⟨⟨kept, member, rfl⟩, same⟩
  · rintro ⟨⟨kept, member, rfl⟩, same⟩
    exact ⟨kept, ⟨member, same⟩, rfl⟩

theorem eq_of_arrival_eq (wellKept : memory.WellKept) {first second : StoredEntry}
    (member : first ∈ memory.stored) (other : second ∈ memory.stored)
    (same : first.arrival = second.arrival) : first = second :=
  List.inj_on_of_nodup_map wellKept.arrivals member other same

theorem inOrder_pairwise (wellKept : memory.WellKept) :
    memory.inOrder.Pairwise fun first second => first.arrival < second.arrival := by
  have sorted : memory.inOrder.Pairwise fun first second => first.arrival ≤ second.arrival := by
    have ascending : memory.inOrder.Pairwise fun first second =>
        decide (first.arrival ≤ second.arrival) :=
      List.pairwise_mergeSort (by simp; omega) (by simp; omega) memory.stored
    exact ascending.imp of_decide_eq_true
  have distinct : (memory.inOrder.map (·.arrival)).Nodup :=
    (inOrder_perm.map _).nodup_iff.mpr wellKept.arrivals
  refine (sorted.and (List.pairwise_map.mp distinct)).imp ?_
  rintro first second ⟨before, different⟩
  exact Nat.lt_of_le_of_ne before different

theorem inOrder_eq (wellKept : memory.WellKept) (listed : List StoredEntry)
    (same : listed.Perm memory.stored)
    (sorted : listed.Pairwise fun first second => first.arrival < second.arrival) :
    memory.inOrder = listed := by
  refine List.Perm.eq_of_pairwise ?_ (inOrder_pairwise wellKept) sorted
    (inOrder_perm.trans same.symm)
  intro first second _ _ before after
  omega

theorem toList_insert (wellKept : memory.WellKept) {entry : PublicationEntry}
    (inserted : memory.insert entry = .ok later) : later.toList = memory.toList ++ [entry] := by
  have laterKept := wellKept.insert inserted
  obtain ⟨-, rfl⟩ := insert_eq_ok.mp inserted
  have listed := inOrder_eq laterKept (memory.inOrder ++ [⟨memory.nextArrival, entry⟩])
    ((List.perm_append_singleton ..).trans (inOrder_perm.cons _)) ?_
  · simp [toList_eq, listed]
  · refine List.pairwise_append.mpr ⟨inOrder_pairwise wellKept, List.pairwise_singleton .., ?_⟩
    intro kept member last isLast
    rw [List.mem_singleton.mp isLast]
    exact wellKept.arrived kept (inOrder_perm.mem_iff.mp member)

theorem toList_deleteCompleted (wellKept : memory.WellKept) (before : Instant) :
    (memory.deleteCompleted before).toList =
      memory.toList.filter (!isDoneBefore before ·) := by
  have listed := inOrder_eq (wellKept.deleteCompleted before) _
    (inOrder_perm.filter fun kept => !isDoneBefore before kept.entry)
    ((inOrder_pairwise wellKept).filter _)
  simp [toList_eq, listed, List.filter_map, Function.comp_def]

theorem toList_gain (gained : Identifier → Option Instant) :
    (memory.gain gained).toList = memory.toList.map fun entry => entry.gain (gained entry.id) := by
  have moved : (memory.gain gained).inOrder = memory.inOrder.map (StoredEntry.gain gained) :=
    Eq.symm (List.map_mergeSort fun _ _ _ _ => rfl)
  simp [toList_eq, moved, StoredEntry.gain]

/-! The incomplete entries. -/

theorem waiting_perm :
    memory.waiting.Perm (memory.stored.filter (!·.entry.isCompleted)) := List.mergeSort_perm ..

theorem waiting_pairwise (memory : MemoryPublications) :
    memory.waiting.Pairwise fun first second => (first.order second).isLE := mergeSort_pairwise

theorem waiting_eq (wellKept : memory.WellKept) {listed : List StoredEntry}
    (same : listed.Perm (memory.stored.filter (!·.entry.isCompleted)))
    (ascending : listed.Pairwise fun first second => (first.order second).isLE) :
    memory.waiting = listed := by
  refine mergeSort_eq ?_ same ascending
  intro first member second other level
  exact eq_of_arrival_eq wellKept (List.mem_of_mem_filter member) (List.mem_of_mem_filter other)
    (StoredEntry.arrival_eq_of_order_eq level)

theorem due_eq_waiting (wellKept : memory.WellKept) :
    memory.due = memory.waiting.map (·.entry) := by
  let listed := memory.inOrder.filter (!·.entry.isCompleted)
  let sorted := listed.mergeSort fun first second => (first.dateOrder second).isLE
  have dueSorted : memory.due = sorted.map (·.entry) := by
    have moved : sorted.map (·.entry) = (listed.map (·.entry)).mergeSort
        fun first second => (first.published.order second.published).isLE :=
      List.map_mergeSort fun _ _ _ _ => rfl
    rw [moved, due, toList_eq, List.filter_map]
    rfl
  have ascending : sorted.Pairwise fun first second => (first.order second).isLE := by
    refine List.pairwise_iff_forall_sublist.mpr fun {first second} pair => ?_
    apply StoredEntry.order_isLE
    · exact List.pairwise_iff_forall_sublist.mp mergeSort_pairwise pair
    · intro tied
      -- Entries of one date are where they were, in the order of their arrival.
      have inside := pair_sublist_of_mergeSort tied pair
      have arrivals := (inOrder_pairwise wellKept).sublist (inside.trans List.filter_sublist)
      exact Nat.le_of_lt (by simpa using arrivals)
  have same := (List.mergeSort_perm listed fun first second =>
    (first.dateOrder second).isLE).trans (inOrder_perm.filter _)
  rw [dueSorted, waiting_eq wellKept same ascending]

theorem incomplete_eq_due (wellKept : memory.WellKept) :
    memory.incomplete = memory.due.map (·.id) := by
  rw [due_eq_waiting wellKept, List.map_map]
  rfl

theorem mem_due {entry : PublicationEntry} :
    entry ∈ memory.due ↔ entry ∈ memory.toList ∧ entry.isCompleted = false := by
  simp [due]

theorem due_identifiers (wellKept : memory.WellKept) : (memory.due.map (·.id)).Nodup := by
  refine ((List.mergeSort_perm ..).map _).nodup_iff.mpr ?_
  exact (toList_identifiers wellKept).sublist (List.filter_sublist.map _)

/-- A new entry waits behind what is not dated after it, and the others keep their order. -/
theorem due_insert (wellKept : memory.WellKept) {entry : PublicationEntry}
    (inserted : memory.insert entry = .ok later) (incomplete : entry.isCompleted = false) :
    ∃ before after, memory.due = before ++ after ∧ later.due = before ++ entry :: after ∧
      (∀ other ∈ before, entry.published.isBefore other.published = false) ∧
      ∀ other ∈ after, entry.published.isBefore other.published = true := by
  have laterKept := wellKept.insert inserted
  obtain ⟨-, rfl⟩ := insert_eq_ok.mp inserted
  let kept : StoredEntry := ⟨memory.nextArrival, entry⟩
  obtain ⟨before, after, split, notAfter, dated⟩ := exists_place kept memory.waiting_pairwise
  have arrived {other : StoredEntry} (member : other ∈ memory.waiting) :
      other.arrival < kept.arrival :=
    wellKept.arrived other (List.mem_of_mem_filter (waiting_perm.mem_iff.mp member))
  have same : (before ++ kept :: after).Perm
      ((kept :: memory.stored).filter (!·.entry.isCompleted)) := by
    have waits : kept.entry.isCompleted = false := incomplete
    rw [List.filter_cons_of_pos (by simp [waits])]
    exact List.perm_middle.trans ((split ▸ waiting_perm).cons kept)
  have ascending := pairwise_placed (split ▸ memory.waiting_pairwise) notAfter dated
  refine ⟨before.map (·.entry), after.map (·.entry), ?_, ?_, ?_, ?_⟩
  · rw [due_eq_waiting wellKept, split, List.map_append]
  · rw [due_eq_waiting laterKept, waiting_eq laterKept same ascending]
    simp [kept]
  · refine List.forall_mem_map.mpr fun other member => ?_
    exact StoredEntry.isBefore_eq_false (notAfter other member)
  · refine List.forall_mem_map.mpr fun other member => ?_
    have earlier := arrived (split ▸ List.mem_append_right before member)
    exact StoredEntry.isBefore_eq_true (dated other member) earlier

theorem due_gain (wellKept : memory.WellKept) (gained : Identifier → Option Instant) :
    (memory.gain gained).due = memory.due.filter fun entry => (gained entry.id).isNone := by
  let waits (kept : StoredEntry) : Bool := (gained kept.entry.id).isNone
  have same : (memory.waiting.filter waits).Perm
      ((memory.gain gained).stored.filter (!·.entry.isCompleted)) := by
    rw [gain, ← StoredEntry.filter_gain]
    exact waiting_perm.filter waits
  have ascending := memory.waiting_pairwise.filter waits
  rw [due_eq_waiting (wellKept.gain gained), due_eq_waiting wellKept,
    waiting_eq (wellKept.gain gained) same ascending, List.filter_map]
  rfl

end MemoryPublications

end ModuleBoundary
