import ModuleBoundary.Proofs.Publication.Memory
import ModuleBoundary.Proofs.FileSystem
import ModuleBoundary.Publication.Registry

/-! Recovery over the store in memory.

A session is the store together with everything that lies outside it. Targets and the clock
act on the outside only, and every call of a target is written down with its answer.
-/

set_option autoImplicit false

namespace ModuleBoundary

structure Session (Event World : Type) where
  memory : MemoryPublications
  /-- What was handed to targets so far, and whether the target has dealt with it. -/
  calls : List (Publication Event × Bool)
  world : World

namespace Session

variable {Event World α : Type}

def onMemory (action : StateM MemoryPublications α) : StateM (Session Event World) α :=
  fun session =>
    let (result, memory) := action session.memory
    (result, { session with memory })

def onWorld (action : StateM World α) : StateM (Session Event World) α :=
  fun session =>
    let (result, world) := action session.world
    (result, { session with world })

/-- Hand a publication over, and write down what came of it. -/
def recording (dispatch : Publication Event → StateM World Bool) (publication : Publication Event) :
    StateM (Session Event World) Bool := do
  let answer ← onWorld (dispatch publication)
  modify fun session => { session with calls := session.calls ++ [(publication, answer)] }
  return answer

/-- The registry over the memory of a session, which reads and writes events as a pure
codec does. -/
def registry (codec : EventCodec Id Event) :
    PublicationRegistry (StateM (Session Event World)) Event where
  store := MemoryPublications.store.lift onMemory
  codec := {
    eventType := codec.eventType
    encode := fun event => return codec.encode event
    decode := fun payload eventType => return codec.decode payload eventType }

end Session

def PublicationEntry.read {Event : Type} (codec : EventCodec Id Event) (entry : PublicationEntry) :
    Except CodecError (Publication Event) :=
  match codec.decode entry.payload entry.eventType with
  | .ok event => .ok { event, target := entry.target, published := entry.published }
  | .error cause => .error cause

namespace Session

variable {Event World : Type} {codec : EventCodec Id Event} {clock : StateM World Instant}
  {dispatch : Publication Event → StateM World Bool} {session : Session Event World}
  {entry : PublicationEntry} {publication : Publication Event}

theorem onWorld_run {α : Type} {action : StateM World α} {result : α} {world : World}
    (ran : action session.world = (result, world)) :
    onWorld action session = (result, { session with world }) := by
  simp only [onWorld, ran]

theorem find_run (id : Identifier) :
    (registry codec).store.find id session = (.ok (session.memory.find? id), session) := rfl

theorem decode_run (payload : List UInt8) (eventType : String) :
    (registry codec).codec.decode payload eventType session =
      (codec.decode payload eventType, session) := rfl

theorem complete_run {session : Session Event World} {id : Identifier} {date : Instant}
    {memory : MemoryPublications} (completed : session.memory.complete id date = .ok memory) :
    (registry codec).complete id date session = (.ok (), { session with memory }) := by
  have stored : (registry codec).store.complete id date session =
      (.ok (), { session with memory }) := by
    change onMemory (MemoryPublications.update (·.complete id date)) session = _
    simp only [onMemory, MemoryPublications.update_run, completed]
  unfold PublicationRegistry.complete
  rw [runs_bind stored]
  rfl

theorem recording_run {answer : Bool} {world : World}
    (answered : dispatch publication session.world = (answer, world)) :
    recording dispatch publication session =
      (answer, { session with calls := session.calls ++ [(publication, answer)], world }) := by
  unfold recording
  rw [runs_bind (onWorld_run answered)]
  rfl

def item (codec : EventCodec Id Event) (entry : PublicationEntry) :
    PublicationRegistry.Item Event :=
  match entry.read codec with
  | .ok publication => .ok ⟨entry.id, publication⟩
  | .error cause => .error (.undecodable entry.id cause)

theorem decodeEntry_run :
    (registry codec).decodeEntry entry session = (item codec entry, session) := by
  unfold PublicationRegistry.decodeEntry item PublicationEntry.read
  rw [runs_bind (decode_run entry.payload entry.eventType)]
  cases codec.decode entry.payload entry.eventType <;> rfl

/-- What is to be had under an identifier: an entry that is there and not completed. -/
def offer? (codec : EventCodec Id Event) (memory : MemoryPublications) (id : Identifier) :
    Option (PublicationRegistry.Item Event) :=
  ((memory.find? id).filter (!·.isCompleted)).map (item codec)

theorem lookUp_run (id : Identifier) :
    (registry codec).lookUp id session = (offer? codec session.memory id, session) := by
  unfold PublicationRegistry.lookUp offer?
  rw [runs_bind (find_run id)]
  cases session.memory.find? id with
  | none => rfl
  | some entry =>
    cases completed : entry.isCompleted with
    | true =>
      simp only [completed, if_true, Option.filter_some, Bool.not_true, Bool.false_eq_true, if_false]
      rfl
    | false =>
      simp only [completed, Bool.false_eq_true, if_false, Option.filter_some, Bool.not_false, if_true]
      rw [runs_bind decodeEntry_run]
      rfl

theorem lookUp_due (found : session.memory.find? entry.id = some entry)
    (incomplete : entry.isCompleted = false) :
    (registry codec).lookUp entry.id session = (some (item codec entry), session) := by
  simp [lookUp_run, offer?, found, Option.filter_some, incomplete]

/-- A report to which some calls and some entries that cannot be read are added. -/
def counted (report : RecoveryReport) (calls : List (Publication Event × Bool)) (poisoned : Nat) :
    RecoveryReport where
  resubmitted := report.resubmitted + calls.length
  completed := report.completed + calls.countP (·.2)
  failed := report.failed + calls.countP (!·.2)
  poisoned := report.poisoned + poisoned

theorem counted_counted (report : RecoveryReport) (calls later : List (Publication Event × Bool))
    (poisoned others : Nat) :
    counted (counted report calls poisoned) later others =
      counted report (calls ++ later) (poisoned + others) := by
  simp [counted, Nat.add_assoc]

theorem resubmit_failed {report : RecoveryReport} {world : World}
    (answered : dispatch publication session.world = (false, world)) :
    (registry codec).resubmit (onWorld clock) (recording dispatch) ⟨entry.id, publication⟩
      report session =
      (.ok (counted report [(publication, false)] 0),
        { session with calls := session.calls ++ [(publication, false)], world }) := by
  unfold PublicationRegistry.resubmit
  rw [runs_bind (recording_run answered)]
  rfl

theorem resubmit_completed {report : RecoveryReport} {world later : World} {date : Instant}
    (found : session.memory.find? entry.id = some entry)
    (answered : dispatch publication session.world = (true, world))
    (told : clock world = (date, later)) :
    (registry codec).resubmit (onWorld clock) (recording dispatch) ⟨entry.id, publication⟩
      report session =
      (.ok (counted report [(publication, true)] 0),
        ⟨session.memory.gain (date.onlyFor entry.id),
          session.calls ++ [(publication, true)], later⟩) := by
  have completed : session.memory.complete entry.id date =
      .ok (session.memory.gain (date.onlyFor entry.id)) :=
    MemoryPublications.complete_eq_ok.mpr ⟨by simp [found], rfl⟩
  have stored : (registry codec).complete entry.id date
      ⟨session.memory, session.calls ++ [(publication, true)], later⟩ =
        (.ok (), ⟨session.memory.gain (date.onlyFor entry.id),
          session.calls ++ [(publication, true)], later⟩) := complete_run completed
  unfold PublicationRegistry.resubmit
  rw [runs_bind (recording_run answered), if_pos rfl, runs_bind (onWorld_run told)]
  exact runs_bind stored

section
variable {report : RecoveryReport} {rest : List Identifier}
  (found : session.memory.find? entry.id = some entry) (incomplete : entry.isCompleted = false)

include found incomplete

theorem sweep_poisoned {cause : CodecError} (unread : entry.read codec = .error cause) :
    (registry codec).sweep (onWorld clock) (recording dispatch) report (entry.id :: rest) session =
      (registry codec).sweep (onWorld clock) (recording dispatch)
        (counted report ([] : List (Publication Event × Bool)) 1) rest session := by
  conv_lhs => unfold PublicationRegistry.sweep
  rw [runs_bind (lookUp_due found incomplete), item, unread]
  rfl

theorem sweep_failed (read : entry.read codec = .ok publication) {world : World}
    (answered : dispatch publication session.world = (false, world)) :
    (registry codec).sweep (onWorld clock) (recording dispatch) report (entry.id :: rest) session =
      (registry codec).sweep (onWorld clock) (recording dispatch)
        (counted report [(publication, false)] 0) rest
        { session with calls := session.calls ++ [(publication, false)], world } := by
  conv_lhs => unfold PublicationRegistry.sweep
  rw [runs_bind (lookUp_due found incomplete), item, read]
  exact runs_bind (resubmit_failed answered)

theorem sweep_completed (read : entry.read codec = .ok publication) {world later : World}
    {date : Instant} (answered : dispatch publication session.world = (true, world))
    (told : clock world = (date, later)) :
    (registry codec).sweep (onWorld clock) (recording dispatch) report (entry.id :: rest) session =
      (registry codec).sweep (onWorld clock) (recording dispatch)
        (counted report [(publication, true)] 0) rest
        ⟨session.memory.gain (date.onlyFor entry.id),
          session.calls ++ [(publication, true)], later⟩ := by
  conv_lhs => unfold PublicationRegistry.sweep
  rw [runs_bind (lookUp_due found incomplete), item, read]
  exact runs_bind (resubmit_completed found answered told)

end

/-! What a sweep makes of a list of entries, given by the dates that identifiers gain. -/

def isPoisoned (codec : EventCodec Id Event) (entry : PublicationEntry) : Bool :=
  !(entry.read codec).isOk

/-- One call for each entry that can be read. The entries that gain a date are those with
which their targets have dealt. -/
def callsFor (codec : EventCodec Id Event) (gained : Identifier → Option Instant)
    (entries : List PublicationEntry) : List (Publication Event × Bool) :=
  entries.filterMap fun entry => (entry.read codec).toOption.map fun publication =>
    (publication, (gained entry.id).isSome)

section
variable {gained other : Identifier → Option Instant} {entries : List PublicationEntry}

theorem isPoisoned_of_error {cause : CodecError} (unread : entry.read codec = .error cause) :
    isPoisoned codec entry = true := by
  rw [isPoisoned, unread]
  rfl

theorem isPoisoned_of_ok (read : entry.read codec = .ok publication) :
    isPoisoned codec entry = false := by
  rw [isPoisoned, read]
  rfl

theorem callsFor_cons_of_error {cause : CodecError} (unread : entry.read codec = .error cause) :
    callsFor codec gained (entry :: entries) = callsFor codec gained entries := by
  simp [callsFor, unread, Except.toOption]

theorem callsFor_cons_of_ok (read : entry.read codec = .ok publication) :
    callsFor codec gained (entry :: entries) =
      (publication, (gained entry.id).isSome) :: callsFor codec gained entries := by
  simp [callsFor, read, Except.toOption]

theorem callsFor_congr (same : ∀ entry ∈ entries, gained entry.id = other entry.id) :
    callsFor codec gained entries = callsFor codec other entries :=
  List.filterMap_congr fun entry member => by rw [same entry member]

end

/-- How a sweep over some entries ends. Only entries that can be read gain dates. -/
structure Sweeps (codec : EventCodec Id Event) (gained : Identifier → Option Instant)
    (due : List PublicationEntry) (report : RecoveryReport) (before : Session Event World)
    (result : Except RegistryError RecoveryReport × Session Event World) : Prop where
  gains : ∀ id, gained id ≠ none → ∃ entry ∈ due, entry.id = id ∧ isPoisoned codec entry = false
  report : result.1 = .ok (counted report (callsFor codec gained due)
    (due.countP (isPoisoned codec)))
  memory : result.2.memory = before.memory.gain gained
  calls : result.2.calls = before.calls ++ callsFor codec gained due

namespace Sweeps

variable {gained : Identifier → Option Instant} {rest : List PublicationEntry}
  {report : RecoveryReport} {result : Except RegistryError RecoveryReport × Session Event World}

theorem nil (report : RecoveryReport) (session : Session Event World) :
    Sweeps codec (fun _ => none) [] report session (.ok report, session) := by
  constructor
  · intro id gain
    contradiction
  · rfl
  · exact MemoryPublications.gain_none.symm
  · exact (List.append_nil _).symm

theorem poisoned {cause : CodecError} (unread : entry.read codec = .error cause)
    (swept : Sweeps codec gained rest (counted report ([] : List (Publication Event × Bool)) 1)
      session result) : Sweeps codec gained (entry :: rest) report session result := by
  constructor
  · intro id gain
    obtain ⟨other, member, same⟩ := swept.gains id gain
    exact ⟨other, List.mem_cons_of_mem _ member, same⟩
  · rw [swept.report, counted_counted, callsFor_cons_of_error unread,
      List.countP_cons_of_pos (isPoisoned_of_error unread), Nat.add_comm, List.nil_append]
  · exact swept.memory
  · rw [swept.calls, callsFor_cons_of_error unread]

theorem failed {world : World} (read : entry.read codec = .ok publication)
    (fresh : ∀ other ∈ rest, other.id ≠ entry.id)
    (swept : Sweeps codec gained rest (counted report [(publication, false)] 0)
      { session with calls := session.calls ++ [(publication, false)], world } result) :
    Sweeps codec gained (entry :: rest) report session result := by
  -- Nothing later in the sweep bears this identifier.
  have nothing : gained entry.id = none := by
    by_contra gain
    obtain ⟨other, member, same, -⟩ := swept.gains _ gain
    exact fresh other member same
  have sound : ¬isPoisoned codec entry = true := by simp [isPoisoned_of_ok read]
  constructor
  · intro id gain
    obtain ⟨other, member, same⟩ := swept.gains id gain
    exact ⟨other, List.mem_cons_of_mem _ member, same⟩
  · rw [swept.report, counted_counted, callsFor_cons_of_ok read, nothing,
      List.countP_cons_of_neg sound, Nat.zero_add]
    rfl
  · exact swept.memory
  · rw [swept.calls, callsFor_cons_of_ok read, nothing, List.append_assoc]
    rfl

theorem completed {world : World} {date : Instant} (read : entry.read codec = .ok publication)
    (fresh : ∀ other ∈ rest, other.id ≠ entry.id)
    (swept : Sweeps codec gained rest (counted report [(publication, true)] 0)
      ⟨session.memory.gain (date.onlyFor entry.id), session.calls ++ [(publication, true)], world⟩
      result) :
    Sweeps codec (fun id => (date.onlyFor entry.id id).or (gained id)) (entry :: rest) report
      session result := by
  have sound : ¬isPoisoned codec entry = true := by simp [isPoisoned_of_ok read]
  have calls : callsFor codec (fun id => (date.onlyFor entry.id id).or (gained id))
      (entry :: rest) = (publication, true) :: callsFor codec gained rest := by
    rw [callsFor_cons_of_ok read, date.onlyFor_self]
    refine congrArg _ (callsFor_congr fun other member => ?_)
    rw [date.onlyFor_of_ne (fresh other member), Option.none_or]
  constructor
  · intro id gain
    by_cases same : id = entry.id
    · exact ⟨entry, List.mem_cons_self, same.symm, isPoisoned_of_ok read⟩
    · have later : gained id ≠ none := by simpa [date.onlyFor_of_ne same] using gain
      obtain ⟨other, member, named⟩ := swept.gains id later
      exact ⟨other, List.mem_cons_of_mem _ member, named⟩
  · rw [swept.report, counted_counted, calls, List.countP_cons_of_neg sound, Nat.zero_add]
    rfl
  · rw [swept.memory, MemoryPublications.gain_gain]
  · rw [swept.calls, calls, List.append_assoc]
    rfl

end Sweeps

-- Every entry is looked up when its turn comes. It is found as it was taken down, because the
-- steps before it changed entries of other identifiers only.
theorem sweep_due (due : List PublicationEntry) (report : RecoveryReport)
    (session : Session Event World)
    (found : ∀ entry ∈ due, session.memory.find? entry.id = some entry)
    (incomplete : ∀ entry ∈ due, entry.isCompleted = false)
    (distinct : (due.map (·.id)).Nodup) :
    ∃ gained, Sweeps codec gained due report session
      ((registry codec).sweep (onWorld clock) (recording dispatch) report (due.map (·.id))
        session) := by
  induction due generalizing report session with
  | nil => exact ⟨_, Sweeps.nil report session⟩
  | cons entry rest ih =>
    obtain ⟨missing, distinct⟩ := List.nodup_cons.mp distinct
    obtain ⟨foundHere, found⟩ := List.forall_mem_cons.mp found
    obtain ⟨incompleteHere, incomplete⟩ := List.forall_mem_cons.mp incomplete
    have fresh : ∀ other ∈ rest, other.id ≠ entry.id := by
      intro other member same
      exact missing (List.mem_map.mpr ⟨other, member, same⟩)
    rw [List.map_cons]
    cases read : entry.read codec with
    | error cause =>
      rw [sweep_poisoned foundHere incompleteHere read]
      obtain ⟨gained, swept⟩ := ih _ session found incomplete distinct
      exact ⟨gained, swept.poisoned read⟩
    | ok publication =>
      rcases answered : dispatch publication session.world with ⟨answer, world⟩
      cases answer with
      | false =>
        rw [sweep_failed foundHere incompleteHere read answered]
        obtain ⟨gained, swept⟩ := ih _ ⟨session.memory, _, world⟩ found incomplete distinct
        exact ⟨gained, swept.failed read fresh⟩
      | true =>
        rcases told : clock world with ⟨date, later⟩
        rw [sweep_completed foundHere incompleteHere read answered told]
        have foundLater : ∀ other ∈ rest,
            (session.memory.gain (date.onlyFor entry.id)).find? other.id = some other := by
          intro other member
          rw [MemoryPublications.find?_gain, found other member,
            date.onlyFor_of_ne (fresh other member)]
          simp
        obtain ⟨gained, swept⟩ := ih _ ⟨_, _, later⟩ foundLater incomplete distinct
        exact ⟨_, swept.completed read fresh⟩

/-- How a recovery ends, given by the dates that identifiers gain. -/
structure Recovered (codec : EventCodec Id Event) (gained : Identifier → Option Instant)
    (before : MemoryPublications) (report : RecoveryReport) (after : Session Event World) :
    Prop where
  /-- One call for each due entry that can be read, in order, and no other. -/
  calls : after.calls = callsFor codec gained before.due
  resubmitted : report.resubmitted = after.calls.length
  completed : report.completed = after.calls.countP (·.2)
  failed : report.failed = after.calls.countP (!·.2)
  accounted : report.resubmitted = report.completed + report.failed
  poisoned : report.poisoned = before.due.countP (isPoisoned codec)
  entries : after.memory.toList = before.toList.map fun entry => entry.gain (gained entry.id)
  gains : ∀ entry ∈ before.toList, gained entry.id ≠ none →
    entry ∈ before.due ∧ isPoisoned codec entry = false
  untouched : ∀ entry ∈ before.toList, entry.isCompleted → entry.gain (gained entry.id) = entry
  remaining : after.memory.due = before.due.filter fun entry =>
    isPoisoned codec entry || (gained entry.id).isNone

theorem Sweeps.recovered {before : MemoryPublications} {world : World}
    {gained : Identifier → Option Instant}
    {result : Except RegistryError RecoveryReport × Session Event World}
    (wellKept : before.WellKept)
    (swept : Sweeps codec gained before.due {} ⟨before, [], world⟩ result) :
    ∃ report, result.1 = .ok report ∧ Recovered codec gained before report result.2 := by
  have calls : result.2.calls = callsFor codec gained before.due := by
    rw [swept.calls, List.nil_append]
  -- Identifiers are distinct, so an entry that gains a date is the due one of its name.
  have gains : ∀ entry ∈ before.toList, gained entry.id ≠ none →
      entry ∈ before.due ∧ isPoisoned codec entry = false := by
    intro entry member gain
    obtain ⟨other, due, same, sound⟩ := swept.gains entry.id gain
    have listed := (MemoryPublications.mem_due.mp due).1
    have both := (MemoryPublications.find?_eq_some wellKept).mpr ⟨listed, same⟩
    rw [(MemoryPublications.find?_eq_some wellKept).mpr ⟨member, rfl⟩] at both
    cases both
    exact ⟨due, sound⟩
  refine ⟨_, swept.report, calls, ?_, ?_, ?_, ?_, ?_, ?_, gains, ?_, ?_⟩
  · rw [calls]
    exact Nat.zero_add _
  · rw [calls]
    exact Nat.zero_add _
  · rw [calls]
    exact Nat.zero_add _
  · have parted := List.length_eq_countP_add_countP (·.2)
      (l := callsFor codec gained before.due)
    simpa [counted] using parted
  · exact Nat.zero_add _
  · rw [swept.memory, MemoryPublications.toList_gain]
  · intro entry member completed
    cases gain : gained entry.id with
    | none => exact entry.gain_none
    | some date =>
      obtain ⟨due, -⟩ := gains entry member (by simp [gain])
      have incomplete := (MemoryPublications.mem_due.mp due).2
      rw [completed] at incomplete
      contradiction
  · rw [swept.memory, MemoryPublications.due_gain wellKept]
    refine List.filter_congr fun entry due => ?_
    have listed := (MemoryPublications.mem_due.mp due).1
    cases gain : gained entry.id with
    | none => simp
    | some date =>
      obtain ⟨-, sound⟩ := gains entry listed (by simp [gain])
      simp [sound]

/-- Whatever was asked of the store before, whatever the codec reads and the targets answer:
a recovery hands over the due entries that can be read, once and in order, and completes
exactly those that were dealt with. -/
theorem recover_settles_due (requests : List StoreRequest) (codec : EventCodec Id Event)
    (clock : StateM World Instant) (dispatch : Publication Event → StateM World Bool)
    (world : World) :
    let before := MemoryPublications.reached requests
    let result := (registry codec).recover (onWorld clock) (recording dispatch)
      ⟨before, [], world⟩
    ∃ report gained, result.1 = .ok report ∧ Recovered codec gained before report result.2 := by
  intro before result
  have wellKept : before.WellKept := MemoryPublications.wellKept_reached requests
  have found : ∀ entry ∈ before.due, before.find? entry.id = some entry := by
    intro entry member
    have listed := (MemoryPublications.mem_due.mp member).1
    exact (MemoryPublications.find?_eq_some wellKept).mpr ⟨listed, rfl⟩
  have incomplete : ∀ entry ∈ before.due, entry.isCompleted = false := by
    intro entry member
    exact (MemoryPublications.mem_due.mp member).2
  obtain ⟨gained, swept⟩ := sweep_due before.due {} ⟨before, [], world⟩ found incomplete
    (MemoryPublications.due_identifiers wellKept)
  have listed : (registry codec).pending ⟨before, [], world⟩ =
      (.ok (before.due.map (·.id)), ⟨before, [], world⟩) := by
    rw [← MemoryPublications.incomplete_eq_due wellKept]
    rfl
  have resumed : result = (registry codec).sweep (onWorld clock) (recording dispatch) {}
      (before.due.map (·.id)) ⟨before, [], world⟩ := by
    simp only [result, PublicationRegistry.recover]
    rw [runs_bind listed]
  rw [resumed]
  obtain ⟨report, ended, recovered⟩ := swept.recovered wellKept
  exact ⟨report, gained, ended, recovered⟩

end Session

end ModuleBoundary
