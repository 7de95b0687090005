import ModuleBoundary.Proofs.Names
import ModuleBoundary.Proofs.Package

/-! How class graphs come about, and how they split the references of a class.

The list of descriptors is refused at the first name that occurred before. A graph that is built
holds the list as it was given, up to packages that are told by names, and every name resolves to
the one class of that name.
-/

set_option autoImplicit false

namespace ModuleBoundary

/-- How a graph keeps a class: as it was given, in the package its name tells if it gave none. -/
def ClassDescriptor.IsKeptAs (given kept : ClassDescriptor) : Prop :=
  given.package ≠ "" ∧ kept = given ∨
    given.package = "" ∧ ∃ package, Package.IsToldBy package given.name ∧
      kept = { given with package }

theorem ClassDescriptor.isKeptAs_iff {given kept : ClassDescriptor} :
    given.IsKeptAs kept ↔ kept = given.withDerivedPackage := by
  unfold IsKeptAs withDerivedPackage
  by_cases none : given.package = ""
  · simp [none, ← Package.ofClass_eq_iff]
  · simp [none]

namespace ClassGraph

variable {graph : ClassGraph} {descriptors : List ClassDescriptor} {name : String}

/-- What a class refers to, in three parts: other classes of the graph, its own name if it refers to
itself, and names that lead out of the graph. -/
def referenceParts (descriptor : ClassDescriptor) (resolved : List ClassDescriptor)
    (unresolved : List String) : List String :=
  resolved.map ClassDescriptor.name ++ descriptor.references.toList.filter (· = descriptor.name) ++
    unresolved

/-- The parts are disjoint and together all references of the class. -/
structure SplitsReferences (graph : ClassGraph) (descriptor : ClassDescriptor)
    (resolved : List ClassDescriptor) (unresolved : List String) : Prop where
  resolve : ∀ target ∈ resolved, graph.get? target.name = some target
  leadOut : ∀ reference ∈ unresolved, graph.get? reference = none
  disjoint : (referenceParts descriptor resolved unresolved).Nodup
  together : ∀ reference,
    reference ∈ referenceParts descriptor resolved unresolved ↔ reference ∈ descriptor.references

theorem names_filterMap_get?_all (graph : ClassGraph) (names : List String) :
    (names.filterMap graph.get?).map ClassDescriptor.name = names.filter graph.contains := by
  have all := graph.names_filterMap_get? (fun _ => true) names
  rw [List.filter_true] at all
  rw [all]
  refine List.filter_congr fun name _ => ?_
  rw [← get?_isSome, Option.any_true]

/-- Names split by whether they resolve, and those that do by whether they are one given name. -/
theorem split_perm {own : String} (known : graph.contains own = true) (names : List String) :
    ((names.filter (· != own)).filter graph.contains ++ names.filter (· = own) ++
      names.filter (!graph.contains ·)).Perm names := by
  -- The given name resolves, so it is found among the names that do.
  have others : (names.filter (· != own)).filter graph.contains =
      (names.filter graph.contains).filter (· != own) := List.filter_comm ..
  have self : names.filter (· = own) = (names.filter graph.contains).filter (!· != own) := by
    rw [List.filter_filter]
    refine List.filter_congr fun name _ => ?_
    by_cases same : name = own <;> simp [same, known]
  rw [others, self]
  exact ((List.filter_append_perm _ _).append_right _).trans (List.filter_append_perm _ _)

theorem exists_splitsReferences {descriptor : ClassDescriptor} (listed : descriptor ∈ graph.classes) :
    ∃ resolved unresolved, graph.referencesOf descriptor.name = .ok resolved ∧
      graph.externalReferencesOf descriptor.name = .ok unresolved ∧
      graph.SplitsReferences descriptor resolved unresolved := by
  have found : graph.get? descriptor.name = some descriptor := get?_eq_some.mpr ⟨listed, rfl⟩
  have known : graph.contains descriptor.name = true := contains_iff.mpr ⟨descriptor, listed, rfl⟩
  have parts := split_perm known descriptor.references.toList
  rw [← names_filterMap_get?_all] at parts
  refine ⟨_, _, by rw [referencesOf, found], by rw [externalReferencesOf, found], ?_⟩
  constructor
  · intro target member
    obtain ⟨_, _, resolves⟩ := List.mem_filterMap.mp member
    obtain ⟨-, rfl⟩ := get?_eq_some.mp resolves
    exact resolves
  · intro reference member
    simpa [← get?_isSome] using List.of_mem_filter member
  · exact parts.nodup_iff.mpr (descriptor.references.ascending.imp String.ne_of_lt)
  · intro reference
    exact parts.mem_iff

/-- What a graph is to the descriptors it was built from. -/
structure IsBuiltFrom (graph : ClassGraph) (descriptors : List ClassDescriptor) : Prop where
  kept : List.Forall₂ ClassDescriptor.IsKeptAs descriptors graph.classes
  indexed : ∀ name place, graph.index.lookup name = some place ↔
    (descriptors[place]?).map ClassDescriptor.name = some name
  found : ∀ name descriptor, graph.get? name = some descriptor ↔
    descriptor ∈ graph.classes ∧ descriptor.name = name
  missing : ∀ name, graph.get? name = none ↔ ∀ given ∈ descriptors, given.name ≠ name
  known : ∀ name, graph.contains name = true ↔ ∃ given ∈ descriptors, given.name = name
  referring : ∀ descriptor ∈ graph.classes, ∃ resolved unresolved,
    graph.referencesOf descriptor.name = .ok resolved ∧
      graph.externalReferencesOf descriptor.name = .ok unresolved ∧
      graph.SplitsReferences descriptor resolved unresolved
  unknown : ∀ name, graph.get? name = none →
    graph.referencesOf name = .error (.unknownClass name) ∧
      graph.externalReferencesOf name = .error (.unknownClass name)

theorem isBuiltFrom_of_classes (given : graph.classes = descriptors.map ClassDescriptor.withDerivedPackage) :
    graph.IsBuiltFrom descriptors where
  kept := by
    rw [given, List.forall₂_map_right_iff, List.forall₂_same]
    intro descriptor _
    exact ClassDescriptor.isKeptAs_iff.mpr rfl
  indexed name place := by
    rw [graph.agrees name place, ← List.getElem?_map, ← List.getElem?_map, names_of_classes given]
  found _ _ := get?_eq_some
  missing name := by simp [get?_eq_none_iff, given]
  known name := by simp [contains_iff, given]
  referring _ := exists_splitsReferences
  unknown name missing := by simp [referencesOf, externalReferencesOf, missing]

/-- Building fails exactly on lists with two descriptors of one name, and then names the first
descriptor that comes too late. Otherwise there is a graph, and it is built from all of the list. -/
theorem ofList_outcome (descriptors : List ClassDescriptor) :
    ((∃ error, ofList descriptors = .error error) ↔
      ¬ (descriptors.map ClassDescriptor.name).Nodup) ∧
    ((∃ graph, ofList descriptors = .ok graph ∧ graph.IsBuiltFrom descriptors) ∨
      ∃ earlier repeated later, descriptors = earlier ++ repeated :: later ∧
        (earlier.map ClassDescriptor.name).Nodup ∧
        repeated.name ∈ earlier.map ClassDescriptor.name ∧
        ofList descriptors = .error (.duplicateClass repeated.name)) := by
  obtain ⟨graph, built, given⟩ | ⟨earlier, repeated, later, rfl, distinct, before, failed⟩ :=
    ofList_cases descriptors
  · refine ⟨?_, .inl ⟨graph, built, isBuiltFrom_of_classes given⟩⟩
    simp [built, ← names_of_classes given, graph.distinct]
  · refine ⟨?_, .inr ⟨earlier, repeated, later, rfl, distinct, before, failed⟩⟩
    exact iff_of_true ⟨_, failed⟩ (not_nodup_of_repeated before)

end ClassGraph

end ModuleBoundary
