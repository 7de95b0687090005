import ModuleBoundary.Proofs.ModuleGraph.Bare

/-! Module graphs of two codebases, compared by names and definitions.

Modules and crossings of two codebases differ in type. What there is to compare are the packages
that classes live in, the definitions of modules, and the names of the classes that crossings
join. Owners, edges and findings are told by these.
-/

set_option autoImplicit false

namespace ModuleBoundary

variable {codebase compared : Codebase} {base : String}
  {overrides : List (String × ModuleDefinition)}

/-- An edge by the names of its modules. -/
def ModuleEdge.named (edge : ModuleEdge codebase) : String × String × Nat :=
  (edge.source.name, edge.target.name, edge.weight)

namespace ModuleGraph

/-! Discovery below a base where classes live in the same packages. -/

section
variable (same : ((codebase.classes.residents base).map ClassDescriptor.package).Perm
  ((compared.classes.residents base).map ClassDescriptor.package))
include same

theorem foundPackages_eq : foundPackages codebase base = foundPackages compared base := by
  have found (codebase : Codebase) : foundPackages codebase base =
      (NameSet.ofList (((codebase.classes.residents base).map ClassDescriptor.package).filterMap
        (Package.child? base))).toList := by
    rw [List.filterMap_map]
    rfl
  rw [found, found]
  congr 1
  apply NameSet.ext_of_mem
  intro package
  rw [NameSet.mem_ofList, NameSet.mem_ofList, (same.filterMap _).mem_iff]

theorem isBroken_iff : IsBroken codebase base ↔ IsBroken compared base := by
  -- A package that continues the base is one that a class below it lives in.
  have broken (codebase : Codebase) : IsBroken codebase base ↔
      ∃ package ∈ (codebase.classes.residents base).map ClassDescriptor.package,
        Package.IsNextSegment base [] package := by
    constructor
    · rintro ⟨descriptor, known, next⟩
      have below := Bool.and_eq_true_iff.mp next.isStrictlyBelow
      exact ⟨_, List.mem_map_of_mem (List.mem_filter.mpr ⟨known, below.1⟩), next⟩
    · rintro ⟨_, housed, next⟩
      obtain ⟨descriptor, resident, rfl⟩ := List.mem_map.mp housed
      exact ⟨descriptor, List.mem_of_mem_filter resident, next⟩
  rw [broken, broken]
  exact exists_congr fun _ => and_congr_left fun _ => same.mem_iff

theorem obstacle?_eq : obstacle? codebase base = obstacle? compared base := by
  have deserted : codebase.classes.residents base = [] ↔ compared.classes.residents base = [] := by
    rw [← List.map_eq_nil_iff, ← List.length_eq_zero_iff, same.length_eq, List.length_eq_zero_iff,
      List.map_eq_nil_iff]
  simp only [obstacle?, deserted, isBroken_iff same]

/-- Discovery fails for one cause, or finds modules of the same definitions. -/
theorem discover_cases :
    (∃ cause, discover codebase base overrides = .error cause ∧
      discover compared base overrides = .error cause) ∨
    ∃ graph other, discover codebase base overrides = .ok graph ∧
      discover compared base overrides = .ok other ∧ graph.definitions = other.definitions := by
  cases obstacle : obstacle? codebase base with
  | some cause =>
    have obstacleToo := (obstacle?_eq same).symm.trans obstacle
    exact .inl ⟨cause, discover_eq_error.mpr obstacle, discover_eq_error.mpr obstacleToo⟩
  | none =>
    have obstacleToo := (obstacle?_eq same).symm.trans obstacle
    obtain ⟨graph, discovered⟩ := exists_discover.mpr obstacle
    obtain ⟨other, discoveredToo⟩ := exists_discover.mpr obstacleToo
    refine .inr ⟨graph, other, discovered, discoveredToo, ?_⟩
    rw [definitions_of_discover discovered, definitions_of_discover discoveredToo,
      foundPackages_eq same]

end

/-! Modules of the same definitions. -/

theorem ownerOfSegments?_cons (modules : List (ApplicationModule codebase)) (segment : List Char)
    (outer : List (List Char)) :
    ownerOfSegments? modules (segment :: outer) =
      (modules.find? fun module =>
        Package.segments module.basePackage == (segment :: outer).reverse).or
          (ownerOfSegments? modules outer) := by
  rw [ownerOfSegments?]
  cases modules.find? _ <;> rfl

section
variable {modules : List (ApplicationModule codebase)} {others : List (ApplicationModule compared)}
  (same : modules.map (·.definition) = others.map (·.definition))
include same

theorem forall₂_of_definitions :
    List.Forall₂ (fun module other => module.definition = other.definition) modules others := by
  have pairs := List.forall₂_eq_eq_eq ▸ same
  rwa [List.forall₂_map_left_iff, List.forall₂_map_right_iff] at pairs

theorem ownerOfSegments?_definition (walk : List (List Char)) :
    (ownerOfSegments? modules walk).map (·.definition) =
      (ownerOfSegments? others walk).map (·.definition) := by
  induction walk with
  | nil => rfl
  | cons segment outer ih =>
    -- What is looked for at each step is a base package, which the definition tells.
    have here := congrArg (List.find? fun definition =>
      Package.segments definition.basePackage == (segment :: outer).reverse) same
    rw [List.find?_map, List.find?_map] at here
    rw [ownerOfSegments?_cons, ownerOfSegments?_cons, Option.map_or, Option.map_or, ih]
    exact congrArg (Option.or · _) here

theorem ownerOfClass?_definition {descriptor other : ClassDescriptor}
    (housed : descriptor.package = other.package) :
    (ownerOfClass? modules descriptor).map (·.definition) =
      (ownerOfClass? others other).map (·.definition) := by
  rw [ownerOfClass?, ownerOfClass?, housed]
  exact ownerOfSegments?_definition same _

end

/-! Edges and crossings, told by names and definitions. -/

theorem edges_named (graph : ModuleGraph codebase) :
    graph.edges.map ModuleEdge.named =
      (graph.definitions.map ModuleDefinition.name).flatMap fun source =>
        (graph.definitions.map ModuleDefinition.name).filterMap fun target =>
          (graph.weight? source target).map (source, target, ·) := by
  simp only [edges, definitions, List.map_flatMap, List.map_filterMap, List.map_map,
    List.flatMap_map, List.filterMap_map, Function.comp_def, Option.map_map]
  rfl

/-- A crossing by the names of its classes and the definitions of their owners. -/
def outline (crossing : ClassDependency codebase) :
    (String × ModuleDefinition) × (String × ModuleDefinition) :=
  ((crossing.source.name, crossing.sourceModule.definition),
    (crossing.target.name, crossing.targetModule.definition))

theorem outlines_nodup (graph : ModuleGraph codebase) :
    (graph.classDependencies.map outline).Nodup := by
  have named : graph.classDependencies.map ends =
      (graph.classDependencies.map outline).map fun entry => (entry.1.1, entry.2.1) := by
    rw [List.map_map]
    rfl
  exact .of_map _ (named ▸ graph.classDependencies_distinct)

theorem ends_between (graph : ModuleGraph codebase) (source target : String) :
    (graph.between source target).map ends =
      ((graph.classDependencies.map outline).filter fun entry =>
        entry.1.2.name == source && entry.2.2.name == target).map
          fun entry => (entry.1.1, entry.2.1) := by
  rw [List.filter_map, List.map_map]
  rfl

/-- Whether a class is kept from other modules by the one that owns it. -/
def isClosed (codebase : Codebase) (points : ExtensionPoints)
    (target : String × ModuleDefinition) : Bool :=
  !exposes codebase target.2.basePackage target.1 && !points.include codebase.classes target.1

/-- A name stands for one class at most, so exposure is decided by what is behind it. -/
theorem exposes_eq (codebase : Codebase) (base className : String) :
    exposes codebase base className = (codebase.classes.get? className).any fun descriptor =>
      descriptor.residesIn base && (descriptor.isPublic && (descriptor.package == base ||
        codebase.markers.exposed.marks codebase.classes descriptor ||
        codebase.markers.component.marks codebase.classes descriptor)) := by
  rw [Bool.eq_iff_iff, exposes, ClassGraph.residents, List.any_filter, List.any_eq_true,
    Option.any_eq_true]
  simp only [ClassGraph.get?_eq_some, Bool.and_eq_true, beq_iff_eq]
  constructor
  · rintro ⟨descriptor, known, resident, shown, named⟩
    exact ⟨descriptor, ⟨known, named⟩, resident, shown⟩
  · rintro ⟨descriptor, ⟨known, named⟩, resident, shown⟩
    exact ⟨descriptor, known, resident, shown, named⟩

/-- Two classes that the rules do not tell apart as targets of references. -/
structure SameTarget (points : ExtensionPoints) (codebase compared : Codebase)
    (descriptor counterpart : ClassDescriptor) : Prop where
  package : descriptor.package = counterpart.package
  visibility : descriptor.visibility = counterpart.visibility
  exposed : codebase.markers.exposed.marks codebase.classes descriptor =
    compared.markers.exposed.marks compared.classes counterpart
  component : codebase.markers.component.marks codebase.classes descriptor =
    compared.markers.component.marks compared.classes counterpart
  extension : points.marker.marks codebase.classes descriptor =
    points.marker.marks compared.classes counterpart

theorem SameTarget.isClosed_eq {points : ExtensionPoints} {descriptor counterpart : ClassDescriptor}
    (same : SameTarget points codebase compared descriptor counterpart)
    {target : String × ModuleDefinition}
    (found : codebase.classes.get? target.1 = some descriptor)
    (foundToo : compared.classes.get? target.1 = some counterpart) :
    isClosed codebase points target = isClosed compared points target := by
  simp only [isClosed, exposes_eq, ExtensionPoints.include, found, foundToo, Option.any_some,
    ClassDescriptor.residesIn, ClassDescriptor.isPublic, same.package, same.visibility,
    same.exposed, same.component, same.extension]

theorem internalViolations_outlines (graph : ModuleGraph codebase) (points : ExtensionPoints) :
    graph.internalViolations points =
      ((graph.classDependencies.map outline).filter (isClosed codebase points ·.2)).map
        fun (source, target) => .internalAccess source.2.name target.2.name source.1 target.1 := by
  simp only [internalViolations, isExposed_eq, List.filter_map, List.map_map]
  rfl

theorem dependsOn_iff_evidence (graph : ModuleGraph codebase) {source target : String} :
    graph.dependsOn source target = true ↔ ∃ pair, pair ∈ graph.evidence source target := by
  simp only [dependsOn_iff, (graph.evidence_perm source target).mem_iff, List.mem_map]
  exact ⟨fun ⟨crossing, between⟩ => ⟨_, crossing, between, rfl⟩,
    fun ⟨_, crossing, between, _⟩ => ⟨crossing, between⟩⟩

theorem mem_undeclaredViolations_iff (graph : ModuleGraph codebase) {violation : Violation} :
    violation ∈ graph.undeclaredViolations ↔
      ∃ source ∈ graph.definitions, ∃ target ∈ graph.definitions, source.allows target = false ∧
        ∃ pair, (graph.evidence source.name target.name).head? = some pair ∧
          violation = .undeclaredDependency source.name target.name pair.1 pair.2
            (graph.evidence source.name target.name).length := by
  rw [mem_undeclaredViolations]
  constructor
  · rintro ⟨edge, member, found⟩
    obtain ⟨known, other, -⟩ := graph.mem_edges.mp member
    rw [undeclaredEdge?_eq] at found
    split at found
    · cases found
    · next forbidden =>
      obtain ⟨pair, first, rfl⟩ := Option.map_eq_some_iff.mp found
      exact ⟨_, List.mem_map_of_mem known, _, List.mem_map_of_mem other,
        Bool.eq_false_iff.mpr forbidden, pair, first, rfl⟩
  · rintro ⟨_, defined, _, definedToo, forbidden, pair, first, rfl⟩
    obtain ⟨source, known, rfl⟩ := List.mem_map.mp defined
    obtain ⟨target, other, rfl⟩ := List.mem_map.mp definedToo
    -- Where there is evidence, there is an edge.
    have depends := graph.dependsOn_iff_evidence.mpr ⟨pair, List.mem_of_head? first⟩
    obtain ⟨weight, weighed⟩ := Option.isSome_iff_exists.mp depends
    refine ⟨⟨source, target, weight⟩, graph.mem_edges.mpr ⟨known, other, weighed⟩, ?_⟩
    rw [undeclaredEdge?_eq]
    exact (if_neg (Bool.eq_false_iff.mp forbidden)).trans
      (Option.map_eq_some_iff.mpr ⟨pair, first, rfl⟩)

variable {graph : ModuleGraph codebase} {other : ModuleGraph compared}

/-- What one graph has, another has under the same names: each class, perhaps with more
references, and its owner. -/
structure EmbedsIn (graph : ModuleGraph codebase) (other : ModuleGraph compared) : Prop where
  classes : ∀ name descriptor, codebase.classes.get? name = some descriptor →
    ∃ counterpart, compared.classes.get? name = some counterpart ∧
      ∀ reference ∈ descriptor.references, reference ∈ counterpart.references
  owners : ∀ name owner, graph.owner? name = some owner →
    ∃ counterpart, other.owner? name = some counterpart ∧
      counterpart.definition = owner.definition

theorem EmbedsIn.exists_crossing (embeds : graph.EmbedsIn other)
    {crossing : ClassDependency codebase} (crossed : graph.IsCrossing crossing) :
    ∃ counterpart, other.IsCrossing counterpart ∧ outline counterpart = outline crossing := by
  obtain ⟨source, sourceFound, kept⟩ := embeds.classes _ _ crossed.source
  obtain ⟨target, targetFound, -⟩ := embeds.classes _ _ crossed.target
  obtain ⟨sourceModule, sourceOwned, sourceSame⟩ := embeds.owners _ _ crossed.sourceOwner
  obtain ⟨targetModule, targetOwned, targetSame⟩ := embeds.owners _ _ crossed.targetOwner
  obtain ⟨-, sourceNamed⟩ := ClassGraph.get?_eq_some.mp sourceFound
  obtain ⟨-, targetNamed⟩ := ClassGraph.get?_eq_some.mp targetFound
  have boundary : sourceModule ≠ targetModule := by
    rintro rfl
    exact crossed.boundary
      (ApplicationModule.eq_of_definition_eq (sourceSame.symm.trans targetSame))
  refine ⟨⟨source, sourceModule, target, targetModule⟩, ?_, ?_⟩
  · rw [← sourceNamed] at sourceFound sourceOwned
    rw [← targetNamed] at targetFound targetOwned
    exact ⟨sourceFound, targetFound, sourceOwned, targetOwned,
      targetNamed ▸ kept _ crossed.reference, boundary⟩
  · simp only [outline, sourceNamed, targetNamed, sourceSame, targetSame]

theorem EmbedsIn.outlines_subset (embeds : graph.EmbedsIn other) :
    graph.classDependencies.map outline ⊆ other.classDependencies.map outline := by
  intro entry listed
  obtain ⟨crossing, member, rfl⟩ := List.mem_map.mp listed
  obtain ⟨counterpart, crossed, same⟩ :=
    embeds.exists_crossing (graph.mem_classDependencies.mp member)
  exact List.mem_map.mpr ⟨counterpart, other.mem_classDependencies.mpr crossed, same⟩

/-- The classes that crossings of a graph lead to are in another codebase too, and the rules
take them for the same. -/
def AgreesOnTargets (graph : ModuleGraph codebase) (compared : Codebase)
    (points : ExtensionPoints) : Prop :=
  ∀ crossing ∈ graph.classDependencies, ∃ counterpart,
    compared.classes.get? crossing.target.name = some counterpart ∧
      SameTarget points codebase compared crossing.target counterpart

theorem AgreesOnTargets.isClosed_eq {points : ExtensionPoints}
    (agrees : graph.AgreesOnTargets compared points)
    {entry : (String × ModuleDefinition) × (String × ModuleDefinition)}
    (listed : entry ∈ graph.classDependencies.map outline) :
    isClosed codebase points entry.2 = isClosed compared points entry.2 := by
  obtain ⟨crossing, member, rfl⟩ := List.mem_map.mp listed
  obtain ⟨counterpart, foundToo, same⟩ := agrees crossing member
  exact same.isClosed_eq (graph.mem_classDependencies.mp member).target foundToo

/-! Graphs that are told alike. -/

/-- The same definitions and the same crossings, in whatever order. -/
structure Alike (graph : ModuleGraph codebase) (other : ModuleGraph compared) : Prop where
  definitions : graph.definitions.Perm other.definitions
  outlines : (graph.classDependencies.map outline).Perm (other.classDependencies.map outline)

namespace Alike

theorem between_perm (alike : graph.Alike other) (source target : String) :
    ((graph.between source target).map ends).Perm ((other.between source target).map ends) := by
  rw [ends_between, ends_between]
  exact (alike.outlines.filter _).map _

theorem weight?_eq (alike : graph.Alike other) (source target : String) :
    graph.weight? source target = other.weight? source target := by
  have counted := (alike.between_perm source target).length_eq
  simp only [List.length_map] at counted
  apply Option.ext
  intro weight
  rw [weight?_eq_some, weight?_eq_some, counted]

theorem dependsOn_eq (alike : graph.Alike other) : graph.dependsOn = other.dependsOn := by
  funext source target
  rw [dependsOn, dependsOn, alike.weight?_eq]

theorem evidence_eq (alike : graph.Alike other) (source target : String) :
    graph.evidence source target = other.evidence source target :=
  mergeSort_eq_mergeSort (filter_level_eq_of_perm (fun _ _ _ _ => eq_of_pairOrder_eq)
    (alike.between_perm source target))

theorem sortedNames_eq (alike : graph.Alike other) : graph.sortedNames = other.sortedNames := by
  refine List.Perm.eq_of_pairwise (fun _ _ _ _ => String.le_antisymm) graph.sortedNames_ascending
    other.sortedNames_ascending ?_
  have named : (graph.modules.map ApplicationModule.name).Perm
      (other.modules.map ApplicationModule.name) := by
    have names := alike.definitions.map ModuleDefinition.name
    rw [ModuleGraph.definitions, ModuleGraph.definitions, List.map_map, List.map_map] at names
    exact names
  exact (List.mergeSort_perm ..).trans (named.trans (List.mergeSort_perm ..).symm)

/-- Components may be searched in another order. -/
theorem cycleViolations_perm (alike : graph.Alike other) :
    graph.cycleViolations.Perm other.cycleViolations := by
  have listed := other.mem_searchOrder
  rw [← alike.sortedNames_eq] at listed
  rw [cycleViolations, cycleViolations, cycles, cycles, ← alike.dependsOn_eq, ← alike.sortedNames_eq]
  exact (Cycle.elementary_perm graph.mem_searchOrder listed).map _

/-- Level cycles start at one module, as the order of findings looks at the first. -/
theorem filter_cycleViolations_eq (alike : graph.Alike other) (violation : Violation) :
    graph.cycleViolations.filter (violation.order · = .eq) =
      other.cycleViolations.filter (violation.order · = .eq) := by
  have listed := other.mem_searchOrder
  rw [← alike.sortedNames_eq] at listed
  rw [cycleViolations, cycleViolations, cycles, cycles, ← alike.dependsOn_eq, ← alike.sortedNames_eq,
    List.filter_map, List.filter_map]
  refine congrArg _ (Cycle.filter_elementary_eq graph.sortedNames_nodup graph.mem_searchOrder listed ?_)
  intro start first rest others level levelToo
  have same := Violation.firstModule_eq_of_order_eq (of_decide_eq_true level)
  have sameToo := Violation.firstModule_eq_of_order_eq (of_decide_eq_true levelToo)
  exact same.symm.trans sameToo

theorem undeclaredViolations_perm (alike : graph.Alike other) :
    graph.undeclaredViolations.Perm other.undeclaredViolations := by
  refine (List.perm_ext_iff_of_nodup graph.undeclaredViolations_once.of_map
    other.undeclaredViolations_once.of_map).mpr fun violation => ?_
  simp only [mem_undeclaredViolations_iff, alike.definitions.mem_iff, alike.evidence_eq]

section
variable {points : ExtensionPoints} (agrees : graph.AgreesOnTargets compared points)
include agrees

theorem internalViolations_perm (alike : graph.Alike other) :
    (graph.internalViolations points).Perm (other.internalViolations points) := by
  rw [internalViolations_outlines, internalViolations_outlines,
    List.filter_congr fun entry => agrees.isClosed_eq]
  exact (alike.outlines.filter _).map _

theorem findings_perm (alike : graph.Alike other) (rule : Rule) :
    (graph.findings points rule).Perm (other.findings points rule) := by
  cases rule with
  | cycle => exact alike.cycleViolations_perm
  | undeclaredDependency => exact alike.undeclaredViolations_perm
  | internalAccess => exact alike.internalViolations_perm agrees

/-- Findings on one level of the report order are made in one order. -/
theorem filter_findings_eq (alike : graph.Alike other) (rule : Rule) (violation : Violation) :
    (graph.findings points rule).filter (violation.order · = .eq) =
      (other.findings points rule).filter (violation.order · = .eq) := by
  -- Level cycles are of one component; other findings are never level.
  by_cases cyclic : rule = .cycle
  · subst cyclic
    exact alike.filter_cycleViolations_eq violation
  · exact filter_level_eq_of_perm (fun _ found _ foundToo => graph.findings_apart cyclic found foundToo)
      (alike.findings_perm agrees rule) violation

theorem verify_eq (alike : graph.Alike other) (rules : RuleSet) :
    graph.verify rules points = other.verify rules points := by
  refine Report.ofFindings_eq_of_level fun violation => ?_
  simp only [List.filter_flatMap, alike.filter_findings_eq agrees]

end

end Alike

end ModuleGraph

end ModuleBoundary
