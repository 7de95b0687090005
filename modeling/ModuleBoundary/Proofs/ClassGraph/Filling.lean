import Mathlib.Data.List.Nodup
import ModuleBoundary.ClassGraph

/-! How the list of a class graph and its index are filled.

One descriptor after the other is taken in. Whatever comes of that, the index tells the place of
every class by its name, so that a descriptor is refused exactly when its name occurred before,
and a name that is found stands for one class only.
-/

set_option autoImplicit false

namespace ModuleBoundary.ClassGraph

variable {graph : ClassGraph} {descriptors : List ClassDescriptor} {name : String}

/-- Two classes of one name would stand at the same place of the index. -/
theorem distinct (graph : ClassGraph) : (graph.classes.map ClassDescriptor.name).Nodup := by
  refine List.nodup_iff_getElem?_ne_getElem?.mpr fun first second before inside same => ?_
  rw [List.length_map] at inside
  have firstPlaced := (graph.agrees (graph.classes[second].name) first).mpr <| by
    rw [← List.getElem?_map, same, List.getElem?_map, List.getElem?_eq_getElem inside, Option.map_some]
  have secondPlaced := (graph.agrees (graph.classes[second].name) second).mpr <| by
    rw [List.getElem?_eq_getElem inside, Option.map_some]
  rw [firstPlaced, Option.some_inj] at secondPlaced
  exact Nat.ne_of_lt before secondPlaced

theorem get?_eq_some {descriptor : ClassDescriptor} :
    graph.get? name = some descriptor ↔ descriptor ∈ graph.classes ∧ descriptor.name = name := by
  refine ⟨mem_and_name_of_get?, ?_⟩
  rintro ⟨listed, rfl⟩
  exact get?_name listed

theorem contains_iff :
    graph.contains name = true ↔ ∃ descriptor ∈ graph.classes, descriptor.name = name := by
  rw [contains, Option.isSome_iff_exists]
  simp only [graph.agrees name, Option.map_eq_some_iff, List.mem_iff_getElem?]
  grind

theorem get?_isSome : (graph.get? name).isSome = graph.contains name := by
  rw [Bool.eq_iff_iff, contains_iff, Option.isSome_iff_exists]
  exact exists_congr fun _ => get?_eq_some

theorem get?_eq_none_iff :
    graph.get? name = none ↔ ∀ descriptor ∈ graph.classes, descriptor.name ≠ name := by
  rw [← Option.not_isSome_iff_eq_none, get?_isSome, contains_iff]
  simp

theorem append_of_contains {descriptor : ClassDescriptor}
    (known : graph.contains descriptor.name = true) :
    graph.append descriptor = .error (.duplicateClass descriptor.name) := by
  unfold append
  split
  · rfl
  · next fresh =>
    rw [contains, fresh] at known
    cases known

theorem append_of_not_contains {descriptor : ClassDescriptor}
    (fresh : graph.contains descriptor.name = false) :
    ∃ longer, graph.append descriptor = .ok longer ∧
      longer.classes = graph.classes ++ [descriptor] := by
  unfold append
  split
  · next found =>
    rw [contains, found] at fresh
    cases fresh
  · exact ⟨_, rfl, rfl⟩

/-- Descriptors are taken in up to the first whose name is there already. -/
theorem foldlM_insert_outcome (graph : ClassGraph) (descriptors : List ClassDescriptor) :
    (∃ longer : ClassGraph, descriptors.foldlM insert graph = .ok longer ∧
      longer.classes = graph.classes ++ descriptors.map ClassDescriptor.withDerivedPackage) ∨
    ∃ earlier repeated later, ∃ between : ClassGraph, descriptors = earlier ++ repeated :: later ∧
      between.classes = graph.classes ++ earlier.map ClassDescriptor.withDerivedPackage ∧
      between.contains repeated.name = true ∧
      descriptors.foldlM insert graph = .error (.duplicateClass repeated.name) := by
  induction descriptors generalizing graph with
  | nil => exact .inl ⟨graph, rfl, (List.append_nil _).symm⟩
  | cons descriptor rest ih =>
    rw [List.foldlM_cons, insert]
    cases known : graph.contains descriptor.withDerivedPackage.name with
    | true =>
      rw [append_of_contains known]
      rw [ClassDescriptor.name_withDerivedPackage] at known ⊢
      exact .inr ⟨[], descriptor, rest, graph, rfl, (List.append_nil _).symm, known, rfl⟩
    | false =>
      obtain ⟨longer, taken, listed⟩ := append_of_not_contains known
      have before (more : List ClassDescriptor) :
          longer.classes ++ more.map ClassDescriptor.withDerivedPackage =
            graph.classes ++ (descriptor :: more).map ClassDescriptor.withDerivedPackage := by
        rw [listed, List.append_assoc, List.map_cons, List.singleton_append]
      rw [taken]
      obtain ⟨all, filled, given⟩ | ⟨earlier, repeated, later, between, rfl, given, clash, failed⟩ :=
        ih longer
      · exact .inl ⟨all, filled, given.trans (before rest)⟩
      · exact .inr ⟨descriptor :: earlier, repeated, later, between, rfl,
          given.trans (before earlier), clash, failed⟩

theorem names_of_classes (given : graph.classes = descriptors.map ClassDescriptor.withDerivedPackage) :
    graph.classes.map ClassDescriptor.name = descriptors.map ClassDescriptor.name := by
  rw [given, List.map_map]
  exact List.map_congr_left fun descriptor _ => descriptor.name_withDerivedPackage

/-- Either the list makes a graph that holds all of it, or it is refused at the first name that
occurred before. -/
theorem ofList_cases (descriptors : List ClassDescriptor) :
    (∃ graph, ofList descriptors = .ok graph ∧
      graph.classes = descriptors.map ClassDescriptor.withDerivedPackage) ∨
    ∃ earlier repeated later, descriptors = earlier ++ repeated :: later ∧
      (earlier.map ClassDescriptor.name).Nodup ∧
      repeated.name ∈ earlier.map ClassDescriptor.name ∧
      ofList descriptors = .error (.duplicateClass repeated.name) := by
  obtain filled | ⟨earlier, repeated, later, between, cut, given, clash, failed⟩ :=
    foldlM_insert_outcome empty descriptors
  · exact .inl filled
  · have names : between.classes.map ClassDescriptor.name = earlier.map ClassDescriptor.name :=
      names_of_classes given
    refine .inr ⟨earlier, repeated, later, cut, names ▸ between.distinct, ?_, failed⟩
    rw [← names]
    exact List.mem_map.mpr (contains_iff.mp clash)

theorem not_nodup_of_repeated {earlier later : List ClassDescriptor} {repeated : ClassDescriptor}
    (before : repeated.name ∈ earlier.map ClassDescriptor.name) :
    ¬ ((earlier ++ repeated :: later).map ClassDescriptor.name).Nodup := by
  intro all
  rw [List.map_append, List.map_cons] at all
  exact List.disjoint_of_nodup_append all before List.mem_cons_self

theorem classes_of_ofList (built : ofList descriptors = .ok graph) :
    graph.classes = descriptors.map ClassDescriptor.withDerivedPackage := by
  obtain ⟨_, filled, given⟩ | ⟨_, _, _, _, _, _, failed⟩ := ofList_cases descriptors
  · rw [built] at filled
    cases filled
    exact given
  · rw [built] at failed
    cases failed

theorem exists_ofList (distinct : (descriptors.map ClassDescriptor.name).Nodup) :
    ∃ graph, ofList descriptors = .ok graph ∧
      graph.classes = descriptors.map ClassDescriptor.withDerivedPackage := by
  obtain built | ⟨_, _, _, rfl, _, before, _⟩ := ofList_cases descriptors
  · exact built
  · exact absurd distinct (not_nodup_of_repeated before)

end ModuleBoundary.ClassGraph
