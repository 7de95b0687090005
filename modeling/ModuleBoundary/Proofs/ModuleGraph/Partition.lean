import Mathlib.Algebra.GroupWithZero.Nat
import ModuleBoundary.Proofs.ModuleGraph.Outcome
import ModuleBoundary.Proofs.ModuleGraph.Ownership

/-! Discovered modules divide the classes below the base.

Which modules there are, which classes belong to one and which module owns a class are three
readings of package names. Below one base they come to the same: a class belongs to the module
based at the direct sub-package that its own package leads through, and to no other.
-/

set_option autoImplicit false

namespace ModuleBoundary

variable {codebase : Codebase}

theorem ApplicationModule.contains_iff_mem_members {module : ApplicationModule codebase}
    {descriptor : ClassDescriptor} (known : descriptor ∈ codebase.classes.classes) :
    module.contains descriptor.name = true ↔ descriptor ∈ module.members := by
  simp only [contains, List.any_eq_true, beq_iff_eq]
  constructor
  · rintro ⟨member, inside, named⟩
    have listed := List.mem_of_mem_filter inside
    rwa [← List.inj_on_of_nodup_map codebase.classes.distinct listed known named]
  · intro inside
    exact ⟨descriptor, inside, rfl⟩

namespace ModuleGraph

variable {graph : ModuleGraph codebase} {base : String} {descriptor : ClassDescriptor}
  {module : ApplicationModule codebase}

theorem owner?_eq_none_of_notMem_members (listed : descriptor ∈ codebase.classes.classes)
    (stranger : ∀ module ∈ graph.modules, descriptor ∉ module.members) :
    graph.owner? descriptor.name = none := by
  rw [graph.owner?_of_mem listed, ownerOfClass?_eq_none]
  intro module known
  apply Bool.eq_false_iff.mpr
  intro within
  exact stranger module known (List.mem_filter.mpr ⟨listed, within⟩)

/-- The modules of a graph are based at the direct sub-packages of a base that classes live in
or below. -/
def IsBasedBelow (graph : ModuleGraph codebase) (base : String) : Prop :=
  graph.modules.map (·.basePackage) = (subPackages base (codebase.classes.residents base)).toList

theorem isBasedBelow_of_discover {overrides : List (String × ModuleDefinition)}
    (discovered : discover codebase base overrides = .ok graph) : graph.IsBasedBelow base :=
  basePackages_of_discover discovered

namespace IsBasedBelow

variable (based : graph.IsBasedBelow base)

include based

theorem ascending : (graph.modules.map (·.basePackage)).Pairwise (· < ·) := by
  rw [based]
  exact NameSet.ascending _

theorem mem_basePackages {package : String} :
    package ∈ graph.modules.map (·.basePackage) ↔
      ∃ descriptor ∈ codebase.classes.classes,
        Package.child? base descriptor.package = some package := by
  rw [based, mem_subPackages_residents]

/-- Membership, told by the direct sub-package alone. -/
theorem mem_members (known : module ∈ graph.modules) :
    descriptor ∈ module.members ↔ descriptor ∈ codebase.classes.classes ∧
      Package.child? base descriptor.package = some module.basePackage := by
  obtain ⟨_, _, found⟩ := based.mem_basePackages.mp (List.mem_map_of_mem known)
  rw [ApplicationModule.members, ClassGraph.residents, List.mem_filter,
    ClassDescriptor.residesIn, Package.contains_child_iff found]

theorem eq_of_mem_members {other : ApplicationModule codebase} (known : module ∈ graph.modules)
    (otherKnown : other ∈ graph.modules) (member : descriptor ∈ module.members)
    (otherMember : descriptor ∈ other.members) : module = other := by
  have here := ((based.mem_members known).mp member).2
  have there := ((based.mem_members otherKnown).mp otherMember).2
  exact graph.eq_of_basePackage_eq known otherKnown (Option.some.inj (here.symm.trans there))

theorem mem_members_iff_eq {owner : ApplicationModule codebase} (owns : owner ∈ graph.modules)
    (member : descriptor ∈ owner.members) (known : module ∈ graph.modules) :
    descriptor ∈ module.members ↔ module = owner := by
  constructor
  · intro inside
    exact based.eq_of_mem_members known owns inside member
  · rintro rfl
    exact member

theorem exists_mem_members (listed : descriptor ∈ codebase.classes.classes)
    (below : Package.isStrictlyBelow base descriptor.package = true) :
    ∃ module ∈ graph.modules, descriptor ∈ module.members := by
  rw [← Package.isSome_child?, Option.isSome_iff_exists] at below
  obtain ⟨package, found⟩ := below
  obtain ⟨module, known, rfl⟩ :=
    List.mem_map.mp (based.mem_basePackages.mpr ⟨descriptor, listed, found⟩)
  exact ⟨module, known, (based.mem_members known).mpr ⟨listed, found⟩⟩

theorem isStrictlyBelow_of_mem_members (known : module ∈ graph.modules)
    (member : descriptor ∈ module.members) :
    Package.isStrictlyBelow base descriptor.package = true := by
  rw [← Package.isSome_child?, ((based.mem_members known).mp member).2, Option.isSome_some]

/-- No module lies within another, so the module that a class is a member of owns it. -/
theorem owner?_eq_some_of_mem_members (known : module ∈ graph.modules)
    (member : descriptor ∈ module.members) : graph.owner? descriptor.name = some module := by
  have listed := ((based.mem_members known).mp member).1
  rw [graph.owner?_of_mem listed, ownerOfClass?_eq_some]
  refine ⟨known, (List.mem_filter.mp member).2, ?_⟩
  intro other otherKnown different within
  have otherMember : descriptor ∈ other.members := List.mem_filter.mpr ⟨listed, within⟩
  exact absurd (based.eq_of_mem_members otherKnown known otherMember member) different

/-- The members of all modules, one module after the other, are the classes strictly below the
base, each once. -/
theorem members_perm : (graph.modules.flatMap (·.members)).Perm
    (codebase.classes.classes.filter (Package.isStrictlyBelow base ·.package)) := by
  have once : codebase.classes.classes.Nodup := .of_map _ codebase.classes.distinct
  refine (List.perm_ext_iff_of_nodup ?_ (once.filter _)).mpr fun descriptor => ?_
  · -- A class that two modules shared would give them one base package.
    refine List.nodup_flatMap.mpr ⟨fun _ _ => once.filter _, ?_⟩
    refine (List.pairwise_map.mp based.ascending).imp_of_mem ?_
    intro module other known otherKnown before descriptor member otherMember
    have same := based.eq_of_mem_members known otherKnown member otherMember
    exact String.lt_irrefl _ (same ▸ before)
  · rw [List.mem_flatMap, List.mem_filter]
    constructor
    · rintro ⟨module, known, member⟩
      exact ⟨List.mem_of_mem_filter member, based.isStrictlyBelow_of_mem_members known member⟩
    · rintro ⟨listed, below⟩
      exact based.exists_mem_members listed below

end IsBasedBelow

/-- The modules of a graph divide the classes strictly below a base. -/
structure Partitions (graph : ModuleGraph codebase) (base : String) : Prop where
  ascending : (graph.modules.map (·.basePackage)).Pairwise (· < ·)
  /-- The base packages go one segment below the base, towards the classes there are. -/
  based : ∀ package, package ∈ graph.modules.map (·.basePackage) ↔
    ∃ descriptor ∈ codebase.classes.classes,
      Package.isStrictlyBelow base descriptor.package = true ∧ ∃ segment,
        Package.IsNextSegment base segment descriptor.package ∧
        package = base ++ "." ++ String.ofList segment
  inhabited : ∀ module ∈ graph.modules, module.members ≠ []
  /-- A class strictly below the base is a member of one module, which owns it. -/
  placed : ∀ descriptor ∈ codebase.classes.classes,
    Package.isStrictlyBelow base descriptor.package = true →
      ∃ owner ∈ graph.modules, graph.owner? descriptor.name = some owner ∧
        ∀ module ∈ graph.modules, (descriptor ∈ module.members ↔ module = owner) ∧
          (module.contains descriptor.name = true ↔ module = owner)
  /-- Every other class, also one directly in the base, is a member of none and has no owner. -/
  excluded : ∀ descriptor ∈ codebase.classes.classes,
    Package.isStrictlyBelow base descriptor.package = false →
      graph.owner? descriptor.name = none ∧
        ∀ module ∈ graph.modules, descriptor ∉ module.members ∧
          module.contains descriptor.name = false
  counted : (graph.modules.map (·.members.length)).sum =
    codebase.classes.classes.countP (Package.isStrictlyBelow base ·.package)

/-- Modules that were discovered divide the classes strictly below the base, whatever the
overrides declare of them. -/
theorem discover_partitions {overrides : List (String × ModuleDefinition)}
    (discovered : discover codebase base overrides = .ok graph) : graph.Partitions base := by
  have based := isBasedBelow_of_discover discovered
  exact {
    ascending := based.ascending
    based := by
      intro package
      rw [based.mem_basePackages]
      constructor
      · rintro ⟨descriptor, listed, found⟩
        obtain ⟨segment, next, same⟩ := Package.child?_eq_some.mp found
        exact ⟨descriptor, listed, next.isStrictlyBelow, segment, next, same⟩
      · rintro ⟨descriptor, listed, _, segment, next, same⟩
        exact ⟨descriptor, listed, Package.child?_eq_some.mpr ⟨segment, next, same⟩⟩
    inhabited := fun module _ => module.inhabited
    placed := by
      intro descriptor listed below
      obtain ⟨owner, known, member⟩ := based.exists_mem_members listed below
      refine ⟨owner, known, based.owner?_eq_some_of_mem_members known member, ?_⟩
      intro module otherKnown
      rw [ApplicationModule.contains_iff_mem_members listed, and_self]
      exact based.mem_members_iff_eq known member otherKnown
    excluded := by
      intro descriptor listed outside
      have stranger : ∀ module ∈ graph.modules, descriptor ∉ module.members := by
        intro module known member
        rw [based.isStrictlyBelow_of_mem_members known member] at outside
        cases outside
      refine ⟨owner?_eq_none_of_notMem_members listed stranger, ?_⟩
      intro module known
      rw [← Bool.not_eq_true, ApplicationModule.contains_iff_mem_members listed, and_self]
      exact stranger module known
    counted := by
      rw [← List.length_flatMap, based.members_perm.length_eq, List.countP_eq_length_filter] }

/-- A class in the base itself, classes in a sub-package and deeper, a sub-package whose name
another begins with, and a package that only begins like the base. -/
def neighbours : Codebase where
  classes := (ClassGraph.ofList [
    .named "shop.Shop",
    .named "shop.orders.Board",
    .named "shop.order.line.Line",
    .named "shopping.Cart",
    .named "shop.order.Order"]).toOption.get (by decide +kernel)
  markers := {}

theorem partition_of_neighbours :
    ∃ graph, discover neighbours "shop" [] = .ok graph ∧ graph.Partitions "shop" ∧
      graph.modules.map (fun module => (module.basePackage, module.members.length)) =
        [("shop.order", 2), ("shop.orders", 1)] := by
  have shape : (discover neighbours "shop" []).map
      (·.modules.map fun module => (module.basePackage, module.members.length)) =
        .ok [("shop.order", 2), ("shop.orders", 1)] := by decide +kernel
  cases discovered : discover neighbours "shop" [] with
  | error cause =>
    rw [discovered] at shape
    cases shape
  | ok graph =>
    rw [discovered] at shape
    exact ⟨graph, rfl, discover_partitions discovered, Except.ok.inj shape⟩

end ModuleGraph

end ModuleBoundary
