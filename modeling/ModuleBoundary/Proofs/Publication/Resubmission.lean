import ModuleBoundary.Proofs.Publication.History
import ModuleBoundary.Proofs.Publication.Iteration

/-! Recovery while the targets change the store.

Before it answers, a target may ask anything of the store: it may keep new publications, complete
any of them, or delete what is completed. Recovery goes on with the identifiers that it took down
at the start, and looks at the store again before each call.
-/

set_option autoImplicit false

namespace ModuleBoundary

/-- What a target does with a publication: what it asks of the store, and its answer. -/
structure Reaction (World : Type) where
  requests : List StoreRequest
  dealtWith : Bool
  world : World

/-- A target with the store at hand. What it asks for may depend on all that is kept there, so
it may well look at the store first. -/
abbrev Target (Event World : Type) :=
  Publication Event → MemoryPublications → World → Reaction World

/-- One call of a target. -/
structure Encounter (Event : Type) where
  publication : Publication Event
  /-- The store when the publication was handed over. -/
  before : MemoryPublications
  requests : List StoreRequest
  dealtWith : Bool

/-- The store when the target had answered. -/
def Encounter.after {Event : Type} (encounter : Encounter Event) : MemoryPublications :=
  encounter.before.served encounter.requests

/-- What lies outside the store, and the calls of targets so far. -/
structure Watched (Event World : Type) where
  encounters : List (Encounter Event)
  world : World

/-- A call of a target together with what recovery made of the answer. -/
structure Dealing (Event : Type) where
  id : Identifier
  encounter : Encounter Event
  /-- What recovery asked of the store when it had the answer. -/
  settlement : List StoreRequest

namespace Dealing

variable {Event : Type} (dealing : Dealing Event)

def requests : List StoreRequest := dealing.encounter.requests ++ dealing.settlement

/-- The store when the answer had been settled. -/
def settled : MemoryPublications := dealing.encounter.after.served dealing.settlement

def isFailed : Bool := !dealing.encounter.dealtWith

/-- Whether the entry was still there to be completed. -/
def isCompleted : Bool :=
  dealing.encounter.dealtWith && (dealing.encounter.after.find? dealing.id).isSome

/-- Whether the target said that it had dealt with an entry, and the entry was gone by then. -/
def isVanished : Bool :=
  dealing.encounter.dealtWith && (dealing.encounter.after.find? dealing.id).isNone

theorem settled_eq : dealing.settled = dealing.encounter.before.served dealing.requests :=
  (MemoryPublications.served_append ..).symm

/-- Every dealing comes out in one of three ways. -/
theorem length_eq_outcomes (dealings : List (Dealing Event)) :
    dealings.length = dealings.countP isCompleted + dealings.countP isFailed +
      dealings.countP isVanished := by
  induction dealings with
  | nil => rfl
  | cons dealing rest ih =>
    have once : (if dealing.isCompleted then 1 else 0) + (if dealing.isFailed then 1 else 0) +
        (if dealing.isVanished then 1 else 0) = 1 := by
      cases answer : dealing.encounter.dealtWith <;>
        cases found : dealing.encounter.after.find? dealing.id <;>
        simp [isCompleted, isFailed, isVanished, answer, found]
    simp only [List.length_cons, List.countP_cons]
    omega

end Dealing

/-- A report to which some dealings are added. -/
def RecoveryReport.including {Event : Type} (report : RecoveryReport)
    (dealings : List (Dealing Event)) : RecoveryReport :=
  { report with
    resubmitted := report.resubmitted + dealings.length
    completed := report.completed + dealings.countP Dealing.isCompleted
    failed := report.failed + dealings.countP Dealing.isFailed }

namespace Session

variable {Event World : Type}

def encounter (target : Target Event World) (publication : Publication Event)
    (session : Session Event (Watched Event World)) : Encounter Event :=
  let reaction := target publication session.memory session.world.world
  ⟨publication, session.memory, reaction.requests, reaction.dealtWith⟩

/-- The session when a target has answered. -/
def handed (target : Target Event World) (publication : Publication Event)
    (session : Session Event (Watched Event World)) : Session Event (Watched Event World) :=
  let met := encounter target publication session
  { memory := met.after
    calls := session.calls ++ [(publication, met.dealtWith)]
    world := {
      encounters := session.world.encounters ++ [met]
      world := (target publication session.memory session.world.world).world } }

/-- Hand a publication to a target that may use the store, and write down what passed. -/
def handing (target : Target Event World) (publication : Publication Event) :
    StateM (Session Event (Watched Event World)) Bool := fun session =>
  ((encounter target publication session).dealtWith, handed target publication session)

/-- Tell the time, unseen by the targets. -/
def timing (clock : StateM World Instant) : StateM (Session Event (Watched Event World)) Instant :=
  onWorld fun watched =>
    let (date, world) := clock watched.world
    (date, { watched with world })

end Session

/-- What holds of every dealing: the entry was due just then, and its completion is all that
recovery asked for. -/
structure Dealing.Proper {Event : Type} (codec : EventCodec Id Event) (dealing : Dealing Event) :
    Prop where
  due : ∃ entry, dealing.encounter.before.find? dealing.id = some entry ∧
    entry.isCompleted = false ∧ entry.read codec = .ok dealing.encounter.publication
  settlement : if dealing.encounter.dealtWith then
    ∃ date, dealing.settlement = [.complete dealing.id date] else dealing.settlement = []

namespace Dealing.Proper

variable {Event : Type} {codec : EventCodec Id Event} {dealing : Dealing Event}

theorem settled_cases (proper : dealing.Proper codec) :
    dealing.encounter.dealtWith = false ∧ dealing.settled = dealing.encounter.after ∨
    dealing.encounter.dealtWith = true ∧ ∃ date : Instant,
      dealing.settled = dealing.encounter.after.gain (date.onlyFor dealing.id) := by
  have settlement := proper.settlement
  cases answer : dealing.encounter.dealtWith with
  | false =>
    simp only [answer, Bool.false_eq_true, if_false] at settlement
    refine .inl ⟨rfl, ?_⟩
    rw [Dealing.settled, settlement]
    rfl
  | true =>
    simp only [answer, if_true] at settlement
    obtain ⟨date, asked⟩ := settlement
    refine .inr ⟨rfl, date, ?_⟩
    rw [Dealing.settled, asked]
    exact MemoryPublications.serve_complete ..

theorem not_awaits_settled (proper : dealing.Proper codec)
    (accepted : dealing.encounter.dealtWith = true) : ¬dealing.settled.Awaits dealing.id := by
  rcases proper.settled_cases with ⟨refused, -⟩ | ⟨-, date, gained⟩
  · simp [accepted] at refused
  · rintro ⟨entry, found, incomplete⟩
    rw [gained, MemoryPublications.find?_gain, date.onlyFor_self] at found
    obtain ⟨earlier, -, rfl⟩ := Option.map_eq_some_iff.mp found
    simp [PublicationEntry.isCompleted, PublicationEntry.gain] at incomplete

/-- Settling changes no entry that is completed. -/
theorem find?_settled (proper : dealing.Proper codec) {id : Identifier} {entry : PublicationEntry}
    (completed : entry.isCompleted = true) (found : dealing.encounter.after.find? id = some entry) :
    dealing.settled.find? id = some entry := by
  rcases proper.settled_cases with ⟨-, same⟩ | ⟨-, date, gained⟩
  · rw [same, found]
  · rw [gained, MemoryPublications.find?_gain, found, Option.map_some,
      PublicationEntry.gain_of_isCompleted completed]

end Dealing.Proper

namespace Session

variable {Event World : Type} {codec : EventCodec Id Event} {clock : StateM World Instant}
  {target : Target Event World} {session : Session Event (Watched Event World)}
  {id : Identifier} {publication : Publication Event} {report : RecoveryReport}

theorem timing_run (clock : StateM World Instant) (session : Session Event (Watched Event World)) :
    ∃ date timed, timing clock session = (date, timed) ∧ timed.memory = session.memory ∧
      timed.world.encounters = session.world.encounters :=
  ⟨_, _, rfl, rfl, rfl⟩

/-- A completion is a request to the store, and fails where there is nothing to complete. -/
theorem complete_serves (codec : EventCodec Id Event) (id : Identifier) (date : Instant) (session : Session Event World) :
    (registry codec).complete id date session =
      (if (session.memory.find? id).isSome then .ok () else .error (.notFound id),
        { session with memory := session.memory.serve (.complete id date) }) := by
  have stored : (registry codec).store.complete id date session =
      (if (session.memory.find? id).isSome then .ok () else .error (.notFound id),
        { session with memory := session.memory.serve (.complete id date) }) := by
    change onMemory (MemoryPublications.update (·.complete id date)) session = _
    change _ = (_, { session with memory := (MemoryPublications.update _ session.memory).2 })
    simp only [onMemory, MemoryPublications.update_run]
    cases found : session.memory.find? id with
    | none => simp [MemoryPublications.complete_eq_error found]
    | some entry =>
      have there : session.memory.find? id ≠ none := by simp [found]
      simp [MemoryPublications.complete_eq_ok.mpr ⟨there, rfl⟩]
  unfold PublicationRegistry.complete
  rw [runs_bind stored]
  cases (session.memory.find? id).isSome <;> rfl

theorem resubmit_refused
    (refused : (encounter target publication session).dealtWith = false) :
    (registry codec).resubmit (timing clock) (handing target) ⟨id, publication⟩ report session =
      (.ok (report.including [⟨id, encounter target publication session, []⟩]),
        handed target publication session) := by
  have answered : handing target publication session =
      (false, handed target publication session) := by
    rw [handing, refused]
  unfold PublicationRegistry.resubmit
  rw [runs_bind answered]
  simp [RecoveryReport.including, Dealing.isCompleted, Dealing.isFailed, refused]
  rfl

theorem resubmit_accepted
    (accepted : (encounter target publication session).dealtWith = true) :
    ∃ date later,
      (registry codec).resubmit (timing clock) (handing target) ⟨id, publication⟩ report session =
        (.ok (report.including
          [⟨id, encounter target publication session, [.complete id date]⟩]), later) ∧
      later.memory =
        (encounter target publication session).after.serve (.complete id date) ∧
      later.world.encounters =
        session.world.encounters ++ [encounter target publication session] := by
  have answered : handing target publication session =
      (true, handed target publication session) := by
    rw [handing, accepted]
  obtain ⟨date, timed, told, sameMemory, sameEncounters⟩ :=
    timing_run clock (handed target publication session)
  have settled := complete_serves codec id date timed
  rw [sameMemory] at settled
  refine ⟨date, { timed with
    memory := (encounter target publication session).after.serve (.complete id date) }, ?_, rfl,
    sameEncounters⟩
  unfold PublicationRegistry.resubmit
  rw [runs_bind answered, if_pos rfl, runs_bind told, runs_bind settled]
  -- The target may have removed the entry, and then there is nothing to complete.
  cases still : (encounter target publication session).after.find? id with
  | none =>
    simp [handed, still, RecoveryReport.including, Dealing.isCompleted, Dealing.isFailed, accepted]
    rfl
  | some entry =>
    simp [handed, still, RecoveryReport.including, Dealing.isCompleted, Dealing.isFailed, accepted]
    rfl

/-- One call of a target, and how the registry goes on from its answer. -/
theorem resubmit_deals (clock : StateM World Instant) (target : Target Event World)
    (report : RecoveryReport) (due : ∃ entry, session.memory.find? id = some entry ∧
      entry.isCompleted = false ∧ entry.read codec = .ok publication) :
    ∃ (dealing : Dealing Event) (later : Session Event (Watched Event World)),
      (registry codec).resubmit (timing clock) (handing target) ⟨id, publication⟩ report session =
        (.ok (report.including [dealing]), later) ∧
      dealing.id = id ∧ dealing.Proper codec ∧ dealing.encounter.before = session.memory ∧
      later.memory = dealing.settled ∧
      later.world.encounters = session.world.encounters ++ [dealing.encounter] := by
  cases answer : (encounter target publication session).dealtWith with
  | false =>
    refine ⟨_, _, resubmit_refused answer, rfl, ⟨due, ?_⟩, rfl, rfl, rfl⟩
    simp [answer]
  | true =>
    obtain ⟨date, later, ran, memory, encounters⟩ := resubmit_accepted answer
    refine ⟨_, later, ran, rfl, ⟨due, ?_⟩, rfl, memory, encounters⟩
    simp [answer]

/-- How a sweep over some identifiers ends, told by the dealings in it. -/
structure Deals (codec : EventCodec Id Event) (ids : List Identifier) (report : RecoveryReport)
    (before : Session Event (Watched Event World))
    (result : Except RegistryError RecoveryReport × Session Event (Watched Event World))
    (dealings : List (Dealing Event)) : Prop where
  report : ∃ poisoned, result.1 = .ok { report.including dealings with poisoned }
  proper : ∀ dealing ∈ dealings, dealing.Proper codec
  listed : (dealings.map (·.id)).Sublist ids
  encounters : result.2.world.encounters = before.world.encounters ++ dealings.map (·.encounter)
  /-- Each call finds the store as the settlement of the call before it left it. -/
  linked : before.memory :: dealings.map Dealing.settled =
    dealings.map (·.encounter.before) ++ [result.2.memory]

namespace Deals

variable {rest : List Identifier} {dealings : List (Dealing Event)}
  {result : Except RegistryError RecoveryReport × Session Event (Watched Event World)}

theorem nil (report : RecoveryReport) (session : Session Event (Watched Event World)) :
    Deals codec [] report session (.ok report, session) [] where
  report := ⟨report.poisoned, rfl⟩
  proper := by simp
  listed := List.Sublist.refl _
  encounters := by simp
  linked := rfl

theorem passed (deals : Deals codec rest report session result dealings) :
    Deals codec (id :: rest) report session result dealings :=
  { deals with listed := deals.listed.cons id }

theorem poisoned {number : Nat}
    (deals : Deals codec rest { report with poisoned := number } session result dealings) :
    Deals codec (id :: rest) report session result dealings where
  report := deals.report
  proper := deals.proper
  listed := deals.listed.cons id
  encounters := deals.encounters
  linked := deals.linked

theorem dealt {dealing : Dealing Event} {later : Session Event (Watched Event World)}
    (proper : dealing.Proper codec) (before : dealing.encounter.before = session.memory)
    (settled : later.memory = dealing.settled)
    (encountered : later.world.encounters = session.world.encounters ++ [dealing.encounter])
    (deals : Deals codec rest (report.including [dealing]) later result dealings) :
    Deals codec (dealing.id :: rest) report session result (dealing :: dealings) where
  report := by
    obtain ⟨poisoned, ended⟩ := deals.report
    refine ⟨poisoned, ?_⟩
    rw [ended]
    simp only [RecoveryReport.including, List.countP_cons, List.countP_nil, List.length_cons,
      List.length_nil, Except.ok.injEq, RecoveryReport.mk.injEq, and_true]
    omega
  proper := List.forall_mem_cons.mpr ⟨proper, deals.proper⟩
  listed := deals.listed.cons_cons dealing.id
  encounters := by
    rw [deals.encounters, encountered, List.append_assoc]
    rfl
  linked := by
    rw [List.map_cons, List.map_cons, ← settled, deals.linked, before]
    rfl

end Deals

theorem sweep_deals (codec : EventCodec Id Event) (clock : StateM World Instant)
    (target : Target Event World) (ids : List Identifier) (report : RecoveryReport)
    (session : Session Event (Watched Event World)) :
    ∃ dealings, Deals codec ids report session
      ((registry codec).sweep (timing clock) (handing target) report ids session) dealings := by
  induction ids generalizing report session with
  | nil => exact ⟨[], .nil report session⟩
  | cons id rest ih =>
    unfold PublicationRegistry.sweep
    rw [runs_bind (lookUp_run id)]
    cases offered : offer? codec session.memory id with
    | none =>
      obtain ⟨dealings, deals⟩ := ih report session
      exact ⟨dealings, deals.passed⟩
    | some given =>
      obtain ⟨entry, found, incomplete, rfl⟩ := offer?_eq_some.mp offered
      cases MemoryPublications.id_of_find? found
      cases read : entry.read codec with
      | error cause =>
        rw [item, read]
        obtain ⟨dealings, deals⟩ := ih { report with poisoned := report.poisoned + 1 } session
        exact ⟨dealings, deals.poisoned⟩
      | ok publication =>
        rw [item, read]
        obtain ⟨dealing, later, ran, same, proper, before, settled, encountered⟩ :=
          resubmit_deals clock target report ⟨entry, found, incomplete, read⟩
        obtain ⟨dealings, deals⟩ := ih (report.including [dealing]) later
        refine ⟨dealing :: dealings, ?_⟩
        simp only [runs_bind ran]
        rw [← same]
        exact deals.dealt proper before settled encountered

/-- The store changes in a sweep by what the targets and the settlements ask of it, and by
nothing else. -/
theorem memory_eq_of_linked {dealings : List (Dealing Event)} {first last : MemoryPublications}
    (linked : first :: dealings.map Dealing.settled = dealings.map (·.encounter.before) ++ [last]) :
    last = first.served (dealings.flatMap Dealing.requests) := by
  induction dealings generalizing first with
  | nil => exact (List.cons.inj linked).1.symm
  | cons dealing rest ih =>
    obtain ⟨same, linked⟩ := List.cons.inj linked
    rw [List.flatMap_cons, MemoryPublications.served_append, same, ← dealing.settled_eq]
    exact ih linked

/-- How a recovery ends, whatever the targets do to the store meanwhile. -/
structure RecoveredAmid (codec : EventCodec Id Event) (before : MemoryPublications)
    (dealings : List (Dealing Event)) (report : RecoveryReport)
    (after : Session Event (Watched Event World)) : Prop where
  /-- The dealings are the calls of targets, in order, and no call is left out. -/
  calls : after.world.encounters = dealings.map (·.encounter)
  once : (dealings.map (·.id)).Nodup
  listed : (dealings.map (·.id)).Sublist (before.due.map (·.id))
  /-- What is handed over is read from an entry that is incomplete immediately before. -/
  proper : ∀ dealing ∈ dealings, dealing.Proper codec
  resubmitted : report.resubmitted = after.world.encounters.length
  completed : report.completed = dealings.countP Dealing.isCompleted
  failed : report.failed = after.world.encounters.countP (!·.dealtWith)
  accounted : report.resubmitted =
    report.completed + report.failed + dealings.countP Dealing.isVanished
  /-- The store between the calls: as a settlement leaves it, the next call finds it. -/
  linked : before :: dealings.map Dealing.settled =
    dealings.map (·.encounter.before) ++ [after.memory]
  settled : ∀ dealing ∈ dealings, dealing.encounter.dealtWith →
    ¬dealing.settled.Awaits dealing.id
  /-- The settlement of an answer changes no entry that was completed by then. -/
  untouched : ∀ dealing ∈ dealings, ∀ id entry, entry.isCompleted →
    dealing.encounter.after.find? id = some entry → dealing.settled.find? id = some entry
  /-- From any moment on, a completed entry stays as it is unless it is removed. -/
  kept : ∀ early late id entry, dealings.flatMap Dealing.requests = early ++ late →
    (before.served early).find? id = some entry → entry.isCompleted →
    (∀ more, more <+: late → (before.served (early ++ more)).find? id ≠ none) →
    after.memory.find? id = some entry

theorem Deals.recoveredAmid {before : MemoryPublications} {world : World}
    {dealings : List (Dealing Event)}
    {result : Except RegistryError RecoveryReport × Session Event (Watched Event World)}
    (wellKept : before.WellKept)
    (deals : Deals codec (before.due.map (·.id)) {} ⟨before, [], ⟨[], world⟩⟩ result dealings) :
    ∃ report, result.1 = .ok report ∧ RecoveredAmid codec before dealings report result.2 := by
  obtain ⟨poisoned, ended⟩ := deals.report
  have calls : result.2.world.encounters = dealings.map (·.encounter) := by
    rw [deals.encounters, List.nil_append]
  refine ⟨_, ended, ?_⟩
  constructor
  · exact calls
  · exact (MemoryPublications.due_identifiers wellKept).sublist deals.listed
  · exact deals.listed
  · exact deals.proper
  · simp [RecoveryReport.including, calls]
  · simp [RecoveryReport.including]
  · rw [calls, List.countP_map]
    exact Nat.zero_add _
  · have outcomes := Dealing.length_eq_outcomes dealings
    simp only [RecoveryReport.including]
    omega
  · exact deals.linked
  · intro dealing member accepted
    exact (deals.proper dealing member).not_awaits_settled accepted
  · intro dealing member id entry completed found
    exact (deals.proper dealing member).find?_settled completed found
  · intro early late id entry split found completed present
    rw [memory_eq_of_linked deals.linked, split, MemoryPublications.served_append]
    apply MemoryPublications.find?_served_of_isCompleted (wellKept.served early) found completed
    intro more begins
    rw [← MemoryPublications.served_append]
    exact present more begins

/-- Whatever was asked of the store before, and whatever the targets ask of it during the sweep:
a recovery ends with a report, calls a target at most once for each entry that was incomplete at
the start and still is, and never changes a completion date. -/
theorem recover_amid_requests (requests : List StoreRequest) (codec : EventCodec Id Event)
    (clock : StateM World Instant) (target : Target Event World) (world : World) :
    let before := MemoryPublications.reached requests
    let result := (registry codec).recover (timing clock) (handing target)
      ⟨before, [], ⟨[], world⟩⟩
    ∃ report dealings, result.1 = .ok report ∧
      RecoveredAmid codec before dealings report result.2 := by
  intro before result
  have wellKept : before.WellKept := MemoryPublications.wellKept_reached requests
  let session : Session Event (Watched Event World) := ⟨before, [], ⟨[], world⟩⟩
  have resumed : result = (registry codec).sweep (timing clock) (handing target) {}
      (before.due.map (·.id)) session := by
    simp only [result, PublicationRegistry.recover]
    rw [runs_bind (pending_run session wellKept)]
  rw [resumed]
  obtain ⟨dealings, deals⟩ := sweep_deals codec clock target (before.due.map (·.id)) {} session
  obtain ⟨report, ended, recovered⟩ := deals.recoveredAmid wellKept
  exact ⟨report, dealings, ended, recovered⟩

end Session

end ModuleBoundary
