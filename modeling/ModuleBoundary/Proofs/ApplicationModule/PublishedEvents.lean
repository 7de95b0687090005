import ModuleBoundary.ApplicationModule
import ModuleBoundary.Proofs.ClassGraph.Inheritance
import ModuleBoundary.Proofs.FirstOccurrences

/-! The events that a module publishes.

Members are met one after another, and each of them with one event after another that it hands to
a publishing call. What is listed at any moment is told by the pairs met until then: their events,
each with its sources, both without repetitions and in the order first met.
-/

set_option autoImplicit false

namespace ModuleBoundary

/-- The call is of a publish method, and where that has an owner, of this owner. -/
def MarkerSet.IsPublishing (markers : MarkerSet) (call : CallSite) : Prop :=
  ∃ publish ∈ markers.publishMethods,
    call.method = publish.method ∧ ∀ owner ∈ publish.owner, owner = call.owner

theorem MarkerSet.isPublishCall_iff {markers : MarkerSet} {call : CallSite} :
    markers.isPublishCall call = true ↔ markers.IsPublishing call := by
  simp [isPublishCall, PublishMethod.isCalledBy, IsPublishing, Option.all_eq_true]

instance (markers : MarkerSet) (call : CallSite) : Decidable (markers.IsPublishing call) :=
  decidable_of_iff _ MarkerSet.isPublishCall_iff

namespace Codebase

variable {codebase : Codebase} {source event : ClassDescriptor}

/-- A class of the graph that bears the marker of domain events. -/
def IsEvent (codebase : Codebase) (event : ClassDescriptor) : Prop :=
  event ∈ codebase.classes.classes ∧ codebase.markers.domainEvent.IsBorneBy codebase.classes event

/-- A publishing call of the class has the event among the types of its arguments. -/
def Publishes (codebase : Codebase) (source event : ClassDescriptor) : Prop :=
  ∃ call ∈ source.calls, codebase.markers.IsPublishing call ∧ event.name ∈ call.argumentTypes

/-- The types that a class hands to publishing calls, call after call and as often as it does. -/
def handedTypes (codebase : Codebase) (source : ClassDescriptor) : List String :=
  (source.calls.filter (codebase.markers.IsPublishing ·)).flatMap CallSite.argumentTypes

theorem publishes_iff : codebase.Publishes source event ↔ event.name ∈ codebase.handedTypes source := by
  simp [Publishes, handedTypes, and_assoc]

instance (codebase : Codebase) (source event : ClassDescriptor) :
    Decidable (codebase.Publishes source event) :=
  decidable_of_iff _ publishes_iff.symm

/-- The name of an event. -/
def namesEvent (codebase : Codebase) (name : String) : Bool :=
  (codebase.classes.get? name).any (codebase.markers.domainEvent.marks codebase.classes)

theorem publications_eq (codebase : Codebase) (source : ClassDescriptor) :
    codebase.publications source = ((codebase.handedTypes source).filterMap
      codebase.classes.get?).filter (codebase.markers.domainEvent.marks codebase.classes) := by
  have chosen : codebase.markers.isPublishCall = (decide <| codebase.markers.IsPublishing ·) := by
    funext call
    rw [Bool.eq_iff_iff, MarkerSet.isPublishCall_iff, decide_eq_true_iff]
  rw [publications, chosen, handedTypes]

theorem mem_publications :
    event ∈ codebase.publications source ↔ codebase.IsEvent event ∧ codebase.Publishes source event := by
  rw [publications_eq, publishes_iff, IsEvent, List.mem_filter, List.mem_filterMap, Marker.marks_iff]
  constructor
  · rintro ⟨⟨name, handed, found⟩, borne⟩
    obtain ⟨listed, rfl⟩ := ClassGraph.get?_eq_some.mp found
    exact ⟨⟨listed, borne⟩, handed⟩
  · rintro ⟨⟨listed, borne⟩, handed⟩
    exact ⟨⟨event.name, handed, ClassGraph.get?_eq_some.mpr ⟨listed, rfl⟩⟩, borne⟩

theorem names_publications (codebase : Codebase) (source : ClassDescriptor) :
    (codebase.publications source).map ClassDescriptor.name =
      (codebase.handedTypes source).filter codebase.namesEvent := by
  rw [publications_eq, ClassGraph.names_filterMap_get?]
  rfl

end Codebase

namespace PublishedEvent

variable {published : List PublishedEvent} {source event : ClassDescriptor}
  {met : List (ClassDescriptor × ClassDescriptor)}

@[simp] theorem event_addSource (entry : PublishedEvent) (source : ClassDescriptor) :
    (entry.addSource source).event = entry.event := by
  unfold addSource
  split <;> rfl

/-- Sources are told apart by their names, and so a source is added if it is new. -/
theorem sources_addSource {entry : PublishedEvent} {earlier : List ClassDescriptor}
    (listed : entry.sources = earlier.eraseDups)
    (distinct : ∀ other ∈ earlier, other.name = source.name → other = source) :
    (entry.addSource source).sources = (earlier ++ [source]).eraseDups := by
  have found : entry.sources.any (·.name == source.name) = true ↔ source ∈ earlier := by
    simp only [listed, List.any_eq_true, List.mem_eraseDups, beq_iff_eq]
    constructor
    · rintro ⟨other, member, same⟩
      exact distinct other member same ▸ member
    · intro member
      exact ⟨source, member, rfl⟩
  unfold addSource
  by_cases known : source ∈ earlier
  · rw [if_pos (found.mpr known), eraseDups_concat_of_mem known, listed]
  · rw [if_neg (mt found.mp known), eraseDups_concat_of_notMem known, listed]

/-- An entry when a class was met as a source of some event. -/
def noting (source event : ClassDescriptor) (entry : PublishedEvent) : PublishedEvent :=
  if entry.event.name = event.name then entry.addSource source else entry

@[simp] theorem event_noting (source event : ClassDescriptor) (entry : PublishedEvent) :
    (entry.noting source event).event = entry.event := by
  unfold noting
  split
  · exact event_addSource entry source
  · rfl

theorem record_eq (distinct : (published.map (·.event.name)).Nodup) :
    record source published event =
      if event.name ∈ published.map (·.event.name) then published.map (noting source event)
      else published ++ [⟨event, [source]⟩] := by
  induction published with
  | nil => rfl
  | cons first rest ih =>
    obtain ⟨fresh, distinct⟩ := List.nodup_cons.mp distinct
    unfold record
    by_cases here : first.event.name = event.name
    · -- No later entry is of this event.
      have others : rest.map (noting source event) = rest := by
        refine (List.map_congr_left fun entry member => if_neg ?_).trans rest.map_id
        intro again
        exact fresh (List.mem_map.mpr ⟨entry, member, again.trans here.symm⟩)
      simp [here, others, noting]
    · have elsewhere : event.name ∈ (first :: rest).map (·.event.name) ↔
          event.name ∈ rest.map (·.event.name) := by
        simp [Ne.symm here]
      rw [if_neg here, ih distinct, if_congr elsewhere rfl rfl, List.map_cons, noting, if_neg here,
        List.cons_append]
      split <;> rfl

/-- The sources with which events of a name have been met. -/
def sourcesMet (met : List (ClassDescriptor × ClassDescriptor)) (name : String) :
    List ClassDescriptor :=
  (met.filter (·.2.name = name)).map Prod.fst

theorem sourcesMet_concat (met : List (ClassDescriptor × ClassDescriptor))
    (source event : ClassDescriptor) (name : String) :
    sourcesMet (met ++ [(source, event)]) name =
      if event.name = name then sourcesMet met name ++ [source] else sourcesMet met name := by
  unfold sourcesMet
  by_cases same : event.name = name <;> simp [same]

/-- What is listed once classes have been met as sources of events. -/
structure Lists (met : List (ClassDescriptor × ClassDescriptor)) (published : List PublishedEvent) :
    Prop where
  events : published.map (·.event.name) = (met.map (·.2.name)).eraseDups
  known : ∀ entry ∈ published, entry.event ∈ met.map Prod.snd
  sources : ∀ entry ∈ published, entry.sources = (sourcesMet met entry.event.name).eraseDups

theorem Lists.record_known (lists : Lists met published)
    (distinct : ∀ other ∈ met.map Prod.fst, other.name = source.name → other = source)
    (listed : event.name ∈ published.map (·.event.name)) :
    Lists (met ++ [(source, event)]) (published.map (noting source event)) := by
  constructor
  · rw [lists.events, List.mem_eraseDups] at listed
    rw [List.map_append, List.map_singleton, eraseDups_concat_of_mem listed, ← lists.events,
      List.map_map]
    simp only [Function.comp_def, event_noting]
  · intro changed member
    obtain ⟨entry, old, rfl⟩ := List.mem_map.mp member
    rw [event_noting, List.map_append]
    exact List.mem_append_left _ (lists.known entry old)
  · intro changed member
    obtain ⟨entry, old, rfl⟩ := List.mem_map.mp member
    rw [event_noting, sourcesMet_concat]
    unfold noting
    by_cases here : entry.event.name = event.name
    · rw [if_pos here, if_pos here.symm]
      apply sources_addSource (lists.sources entry old)
      intro other earlier
      exact distinct other (List.map_subset Prod.fst (List.filter_subset_self _) earlier)
    · rw [if_neg here, if_neg (Ne.symm here), lists.sources entry old]

theorem Lists.record_new (lists : Lists met published)
    (fresh : event.name ∉ published.map (·.event.name)) :
    Lists (met ++ [(source, event)]) (published ++ [⟨event, [source]⟩]) := by
  have unmet : event.name ∉ met.map (·.2.name) := by
    rwa [lists.events, List.mem_eraseDups] at fresh
  constructor
  · rw [List.map_append, List.map_append, List.map_singleton, List.map_singleton,
      eraseDups_concat_of_notMem unmet, lists.events]
  · intro entry member
    rw [List.map_append]
    obtain old | new := List.mem_append.mp member
    · exact List.mem_append_left _ (lists.known entry old)
    · rw [List.mem_singleton.mp new]
      exact List.mem_append_right _ (List.mem_singleton_self _)
  · intro entry member
    rw [sourcesMet_concat]
    obtain old | new := List.mem_append.mp member
    · have different : event.name ≠ entry.event.name := fun same =>
        fresh (List.mem_map.mpr ⟨entry, old, same.symm⟩)
      rw [if_neg different, lists.sources entry old]
    · rw [List.mem_singleton.mp new, if_pos rfl]
      have none : met.filter (·.2.name = event.name) = [] := by
        rw [List.filter_eq_nil_iff]
        intro pair old same
        exact unmet (List.mem_map.mpr ⟨pair, old, of_decide_eq_true same⟩)
      rw [sourcesMet, none]
      rfl

theorem Lists.record (lists : Lists met published)
    (distinct : ∀ other ∈ met.map Prod.fst, other.name = source.name → other = source) :
    Lists (met ++ [(source, event)]) (record source published event) := by
  have once : (published.map (·.event.name)).Nodup := by
    rw [lists.events]
    exact nodup_eraseDups _
  rw [record_eq once]
  split
  · next listed => exact lists.record_known distinct listed
  · next fresh => exact lists.record_new fresh

theorem lists_recorded
    (distinct : ∀ one ∈ met.map Prod.fst, ∀ other ∈ met.map Prod.fst,
      other.name = one.name → other = one) :
    Lists met (met.foldl (fun published pair => PublishedEvent.record pair.1 published pair.2) []) := by
  -- On what was met before the last pair, so that the step lemma applies to the list made of it.
  induction met using List.reverseRecOn with
  | nil => exact ⟨rfl, by simp, by simp⟩
  | append_singleton met pair ih =>
    have earlier : met.map Prod.fst ⊆ (met ++ [pair]).map Prod.fst := by simp
    rw [List.foldl_append]
    apply Lists.record
    · exact ih fun one member other otherMember =>
        distinct one (earlier member) other (earlier otherMember)
    · intro other member
      exact distinct pair.1 (by simp) other (earlier member)

end PublishedEvent

namespace ApplicationModule

variable {codebase : Codebase}

/-- Each member with the events that it hands to publishing calls. -/
def encounters (module : ApplicationModule codebase) : List (ClassDescriptor × ClassDescriptor) :=
  module.members.flatMap fun member => (codebase.publications member).map (member, ·)

theorem publishedEvents_eq (module : ApplicationModule codebase) :
    module.publishedEvents = module.encounters.foldl
      (fun published pair => PublishedEvent.record pair.1 published pair.2) [] := by
  simp only [publishedEvents, encounters, List.foldl_flatMap, List.foldl_map]

theorem mem_encounters {module : ApplicationModule codebase} {source event : ClassDescriptor} :
    (source, event) ∈ module.encounters ↔
      source ∈ module.members ∧ codebase.IsEvent event ∧ codebase.Publishes source event := by
  simp only [encounters, List.mem_flatMap, List.mem_map, Prod.mk.injEq, Codebase.mem_publications]
  constructor
  · rintro ⟨_, member, _, publishes, rfl, rfl⟩
    exact ⟨member, publishes⟩
  · rintro ⟨member, publishes⟩
    exact ⟨source, member, event, publishes, rfl, rfl⟩

theorem lists_publishedEvents (module : ApplicationModule codebase) :
    PublishedEvent.Lists module.encounters module.publishedEvents := by
  have met : module.encounters.map Prod.fst ⊆ module.members := by
    intro source member
    obtain ⟨pair, listed, rfl⟩ := List.mem_map.mp member
    exact (mem_encounters.mp listed).1
  rw [publishedEvents_eq]
  apply PublishedEvent.lists_recorded
  intro one member other otherMember
  exact List.inj_on_of_nodup_map module.members_distinct (met otherMember) (met member)

/-- The types that members hand to publishing calls, in the order in which they are met by one who
goes through the members, their calls and the arguments of these. -/
def handedTypes (module : ApplicationModule codebase) : List String :=
  module.members.flatMap codebase.handedTypes

theorem names_publishedEvents (module : ApplicationModule codebase) :
    module.publishedEvents.map (·.event.name) =
      module.handedTypes.eraseDups.filter codebase.namesEvent := by
  have named : module.encounters.map (·.2.name) = module.handedTypes.filter codebase.namesEvent := by
    simp only [encounters, handedTypes, List.map_flatMap, List.map_map, List.filter_flatMap,
      ← Codebase.names_publications, Function.comp_def]
  rw [module.lists_publishedEvents.events, named, filter_eraseDups]

/-- Whatever is listed was met as an event of some member. -/
theorem exists_mem_encounters {module : ApplicationModule codebase} {published : PublishedEvent}
    (listed : published ∈ module.publishedEvents) :
    ∃ source, (source, published.event) ∈ module.encounters := by
  have known := module.lists_publishedEvents.known published listed
  obtain ⟨⟨source, event⟩, met, same⟩ := List.mem_map.mp known
  exact ⟨source, same ▸ met⟩

theorem exists_publishedEvent {module : ApplicationModule codebase} {source event : ClassDescriptor}
    (met : (source, event) ∈ module.encounters) :
    ∃ published ∈ module.publishedEvents, published.event = event := by
  have named : event.name ∈ module.publishedEvents.map (·.event.name) := by
    rw [module.lists_publishedEvents.events, List.mem_eraseDups]
    exact List.mem_map.mpr ⟨_, met, rfl⟩
  obtain ⟨published, listed, same⟩ := List.mem_map.mp named
  -- An entry of that name is of that event, as both are classes of the graph.
  obtain ⟨_, metToo⟩ := exists_mem_encounters listed
  refine ⟨published, listed, ?_⟩
  exact List.inj_on_of_nodup_map codebase.classes.distinct (mem_encounters.mp metToo).2.1.1
    (mem_encounters.mp met).2.1.1 same

theorem sourcesMet_encounters (module : ApplicationModule codebase) (name : String) :
    PublishedEvent.sourcesMet module.encounters name = module.members.flatMap fun member =>
      ((codebase.publications member).filter (·.name = name)).map fun _ => member := by
  simp only [PublishedEvent.sourcesMet, encounters, List.filter_flatMap, List.map_flatMap,
    List.filter_map, List.map_map, Function.comp_def]

theorem sources_publishedEvents {module : ApplicationModule codebase} {published : PublishedEvent}
    (listed : published ∈ module.publishedEvents) :
    published.sources = module.members.filter (codebase.Publishes · published.event) := by
  obtain ⟨_, met⟩ := exists_mem_encounters listed
  obtain ⟨-, isEvent, -⟩ := mem_encounters.mp met
  -- Each member stands side by side with itself, once for each time that it publishes the event.
  rw [module.lists_publishedEvents.sources published listed, sourcesMet_encounters,
    eraseDups_flatMap_copies module.members_distinct.of_map]
  refine List.filter_congr fun member _ => ?_
  rw [Bool.eq_iff_iff, Bool.not_eq_true', List.isEmpty_eq_false_iff_exists_mem, decide_eq_true_iff]
  simp only [List.mem_filter, decide_eq_true_eq, Codebase.mem_publications]
  constructor
  · rintro ⟨event, ⟨-, call, made, publishing, handed⟩, same⟩
    exact ⟨call, made, publishing, same ▸ handed⟩
  · intro publishes
    exact ⟨published.event, ⟨isEvent, publishes⟩, rfl⟩

/-- A module publishes the events that some member hands to a publishing call. Each is listed once,
in the order of first encounter, and its sources are the members that do so, as they stand. -/
theorem publishedEvents_exact (module : ApplicationModule codebase) :
    (∀ event, (∃ published ∈ module.publishedEvents, published.event = event) ↔
      codebase.IsEvent event ∧ ∃ member ∈ module.members, codebase.Publishes member event) ∧
    (module.publishedEvents.map (·.event.name)).Nodup ∧
    (module.publishedEvents.map (·.event.name)).Pairwise (fun first second =>
      module.handedTypes.idxOf first < module.handedTypes.idxOf second) ∧
    ∀ published ∈ module.publishedEvents,
      published.sources = module.members.filter (codebase.Publishes · published.event) ∧
        published.sources.Nodup := by
  refine ⟨?_, ?_, ?_, ?_⟩
  · intro event
    constructor
    · rintro ⟨published, listed, rfl⟩
      obtain ⟨source, met⟩ := exists_mem_encounters listed
      obtain ⟨member, isEvent, publishes⟩ := mem_encounters.mp met
      exact ⟨isEvent, source, member, publishes⟩
    · rintro ⟨isEvent, source, member, publishes⟩
      exact exists_publishedEvent (mem_encounters.mpr ⟨member, isEvent, publishes⟩)
  · rw [module.lists_publishedEvents.events]
    exact nodup_eraseDups _
  · rw [names_publishedEvents]
    exact (pairwise_eraseDups _).filter _
  · intro published listed
    have sources := sources_publishedEvents listed
    rw [sources]
    exact ⟨rfl, module.members_distinct.of_map.filter _⟩

end ApplicationModule

end ModuleBoundary
