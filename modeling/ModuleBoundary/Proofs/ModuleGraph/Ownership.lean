import ModuleBoundary.Proofs.Names
import ModuleBoundary.Proofs.Package

/-! The owner of a class, found by walking up its package.

Read plainly, the owner is the module with the longest base package among those that contain
the class. Base packages that contain one class contain each other, so the walk, which meets
the innermost first, ends at that module.
-/

set_option autoImplicit false

namespace ModuleBoundary.ModuleGraph

variable {codebase : Codebase}

/-- A module whose base package contains a package, and whose base package is longer than
that of every other module that does. -/
structure IsMostSpecific (modules : List (ApplicationModule codebase)) (package : String)
    (owner : ApplicationModule codebase) : Prop where
  member : owner ∈ modules
  contains : Package.contains owner.basePackage package = true
  longest : ∀ other ∈ modules, other ≠ owner → Package.contains other.basePackage package = true →
    other.basePackage.length < owner.basePackage.length

/-- What a walk up from some segments, innermost first, comes to. -/
theorem ownerOfSegments?_eq_some {modules : List (ApplicationModule codebase)}
    {walk : List (List Char)} {owner : ApplicationModule codebase}
    (found : ownerOfSegments? modules walk = some owner) :
    owner ∈ modules ∧ Package.segments owner.basePackage <+: walk.reverse ∧
      ∀ other ∈ modules, Package.segments other.basePackage <+: walk.reverse →
        Package.segments other.basePackage <+: Package.segments owner.basePackage := by
  induction walk with
  | nil => cases found
  | cons segment outer ih =>
    unfold ownerOfSegments? at found
    split at found
    · -- Whatever else lies on the walk lies further out than the module found here.
      next here =>
      cases found
      have chosen := List.find?_some here
      have same := beq_iff_eq.mp chosen
      refine ⟨List.mem_of_find?_eq_some here, ?_, ?_⟩
      · exact same ▸ List.prefix_refl _
      · intro other _ inside
        rw [same]
        exact inside
    · next missed =>
      obtain ⟨member, inside, deepest⟩ := ih found
      rw [List.reverse_cons]
      refine ⟨member, inside.trans (List.prefix_append _ _), ?_⟩
      intro other known within
      rcases List.prefix_concat_iff.mp within with whole | within
      · exact absurd (beq_iff_eq.mpr (by rw [whole, List.reverse_cons]))
          (List.find?_eq_none.mp missed other known)
      · exact deepest other known within

theorem ownerOfSegments?_eq_none {modules : List (ApplicationModule codebase)}
    {walk : List (List Char)} (lost : ownerOfSegments? modules walk = none)
    {module : ApplicationModule codebase} (member : module ∈ modules) :
    ¬ Package.segments module.basePackage <+: walk.reverse := by
  induction walk with
  | nil => simpa using Package.segments_ne_nil module.basePackage
  | cons segment outer ih =>
    unfold ownerOfSegments? at lost
    split at lost
    · cases lost
    · next missed =>
      intro within
      rw [List.reverse_cons] at within
      rcases List.prefix_concat_iff.mp within with whole | within
      · exact absurd (beq_iff_eq.mpr (by rw [whole, List.reverse_cons]))
          (List.find?_eq_none.mp missed module member)
      · exact ih lost within

theorem ownerOfClass?_eq_none {modules : List (ApplicationModule codebase)}
    {descriptor : ClassDescriptor} :
    ownerOfClass? modules descriptor = none ↔
      ∀ module ∈ modules, Package.contains module.basePackage descriptor.package = false := by
  constructor
  · intro lost module member
    have outside := ownerOfSegments?_eq_none lost member
    rw [List.reverse_reverse, ← Package.contains_iff_segments] at outside
    exact Bool.eq_false_iff.mpr outside
  · intro outside
    cases found : ownerOfClass? modules descriptor with
    | none => rfl
    | some owner =>
      obtain ⟨member, inside, _⟩ := ownerOfSegments?_eq_some found
      rw [List.reverse_reverse, ← Package.contains_iff_segments] at inside
      exact absurd inside (Bool.eq_false_iff.mp (outside owner member))

theorem eq_of_basePackage_eq (graph : ModuleGraph codebase) {first second : ApplicationModule codebase}
    (known : first ∈ graph.modules) (other : second ∈ graph.modules)
    (same : first.basePackage = second.basePackage) : first = second :=
  graph.eq_of_name_eq known other (congrArg Package.lastSegment same)

theorem isMostSpecific_of_ownerOfClass? (graph : ModuleGraph codebase) {descriptor : ClassDescriptor}
    {owner : ApplicationModule codebase} (found : ownerOfClass? graph.modules descriptor = some owner) :
    IsMostSpecific graph.modules descriptor.package owner := by
  obtain ⟨member, inside, deepest⟩ := ownerOfSegments?_eq_some found
  rw [List.reverse_reverse] at inside deepest
  refine ⟨member, Package.contains_iff_segments.mpr inside, ?_⟩
  intro other known different within
  have nested := Package.contains_iff_segments.mpr
    (deepest other known (Package.contains_iff_segments.mp within))
  exact Package.length_lt_of_contains nested fun same =>
    different (graph.eq_of_basePackage_eq known member same)

theorem IsMostSpecific.unique {modules : List (ApplicationModule codebase)} {package : String}
    {first second : ApplicationModule codebase} (left : IsMostSpecific modules package first)
    (right : IsMostSpecific modules package second) : first = second := by
  by_contra different
  have shorter := right.longest first left.member different left.contains
  have longer := left.longest second right.member (Ne.symm different) right.contains
  omega

theorem ownerOfClass?_eq_some (graph : ModuleGraph codebase) {descriptor : ClassDescriptor}
    {owner : ApplicationModule codebase} :
    ownerOfClass? graph.modules descriptor = some owner ↔
      IsMostSpecific graph.modules descriptor.package owner := by
  constructor
  · exact graph.isMostSpecific_of_ownerOfClass?
  · intro specific
    cases found : ownerOfClass? graph.modules descriptor with
    | none =>
      exact absurd specific.contains
        (Bool.eq_false_iff.mp (ownerOfClass?_eq_none.mp found owner specific.member))
    | some other =>
      exact congrArg some ((graph.isMostSpecific_of_ownerOfClass? found).unique specific)

theorem owner?_of_mem (graph : ModuleGraph codebase) {descriptor : ClassDescriptor}
    (listed : descriptor ∈ codebase.classes.classes) :
    graph.owner? descriptor.name = ownerOfClass? graph.modules descriptor := by
  rw [owner?, ClassGraph.get?_eq_some.mpr ⟨listed, rfl⟩, Option.bind_some]

theorem mem_of_owner? (graph : ModuleGraph codebase) {className : String}
    {owner : ApplicationModule codebase} (owned : graph.owner? className = some owner) :
    owner ∈ graph.modules := by
  obtain ⟨descriptor, _, found⟩ := Option.bind_eq_some_iff.mp owned
  exact (graph.isMostSpecific_of_ownerOfClass? found).member

/-- The walk up the package and the plain reading agree, also where they find no owner. In
particular a name outside the class graph has none. -/
theorem owner?_most_specific (graph : ModuleGraph codebase) (className : String) :
    (∀ owner, graph.owner? className = some owner ↔
      ∃ descriptor, codebase.classes.get? className = some descriptor ∧
        IsMostSpecific graph.modules descriptor.package owner) ∧
    (graph.owner? className = none ↔
      ∀ descriptor, codebase.classes.get? className = some descriptor →
        ∀ module ∈ graph.modules, Package.contains module.basePackage descriptor.package = false) := by
  unfold owner?
  constructor
  · intro owner
    simp only [Option.bind_eq_some_iff, ownerOfClass?_eq_some]
  · simp only [Option.bind_eq_none_iff, ownerOfClass?_eq_none]

end ModuleBoundary.ModuleGraph
