import ModuleBoundary.Proofs.ModuleGraph.Findings
import ModuleBoundary.Proofs.ModuleGraph.Outcome

/-! What a module graph owes to base packages alone.

Owners, crossings, edges and cycles are found without a look at markers or at what is declared of
a module. All of it stays when a graph is laid bare, which leaves of every module its base package
only. Two graphs with the same base packages are one graph when laid bare, so whatever a bare
graph still tells they have in common.
-/

set_option autoImplicit false

namespace ModuleBoundary

variable {codebase : Codebase}

/-- The classes without any marker. -/
def Codebase.bare (codebase : Codebase) : Codebase := ⟨codebase.classes, {}⟩

/-- The definition that declares nothing of a module. -/
def ModuleDefinition.basedAt (basePackage : String) : ModuleDefinition := { basePackage }

/-- The module of which nothing is declared. -/
def ApplicationModule.bare (module : ApplicationModule codebase) :
    ApplicationModule codebase.bare where
  definition := .basedAt module.basePackage
  valid := module.valid
  inhabited := module.inhabited

def ClassDependency.bare (crossing : ClassDependency codebase) : ClassDependency codebase.bare :=
  ⟨crossing.source, crossing.sourceModule.bare, crossing.target, crossing.targetModule.bare⟩

def ModuleEdge.bare (edge : ModuleEdge codebase) : ModuleEdge codebase.bare :=
  ⟨edge.source.bare, edge.target.bare, edge.weight⟩

namespace ApplicationModule

@[simp] theorem basePackage_bare (module : ApplicationModule codebase) :
    module.bare.basePackage = module.basePackage := rfl

theorem definition_injective :
    Function.Injective (definition : ApplicationModule codebase → ModuleDefinition) :=
  fun _ _ => eq_of_definition_eq

end ApplicationModule

namespace ModuleGraph

variable {modules : List (ApplicationModule codebase)}

theorem ownerOfSegments?_bare (walk : List (List Char)) :
    ownerOfSegments? (modules.map (·.bare)) walk = (ownerOfSegments? modules walk).map (·.bare) := by
  induction walk with
  | nil => rfl
  | cons segment outer ih =>
    unfold ownerOfSegments?
    rw [List.find?_map, ih]
    simp only [Function.comp_def, ApplicationModule.basePackage_bare]
    cases modules.find? fun module =>
      Package.segments module.basePackage == (segment :: outer).reverse <;> rfl

theorem ownedClasses_bare :
    ownedClasses (modules.map (·.bare)) = (ownedClasses modules).map (Prod.map id (·.bare)) := by
  rw [ownedClasses, ownedClasses, List.map_filterMap]
  apply List.filterMap_congr
  intro descriptor _
  rw [ownerOfClass?, ownerOfClass?, ownerOfSegments?_bare, Option.map_map, Option.map_map]
  rfl

theorem crossing?_bare (owned : List (ClassDescriptor × ApplicationModule codebase))
    (referrer : ClassDescriptor × ApplicationModule codebase) (reference : String) :
    crossing? (owned.map (Prod.map id (·.bare))) (referrer.map id (·.bare)) reference =
      (crossing? owned referrer reference).map (·.bare) := by
  unfold crossing?
  rw [List.find?_map]
  change ((owned.find? (·.1.name == reference)).map _).bind _ = _
  cases owned.find? (·.1.name == reference) with
  | none => rfl
  | some found =>
    -- Owners keep their names, so both sides ask one question.
    change (if found.2.name = referrer.2.name then none else some _) =
      Option.map _ (if found.2.name = referrer.2.name then none else some _)
    split <;> rfl

theorem crossings_bare :
    crossings (modules.map (·.bare)) = (crossings modules).map (·.bare) := by
  simp only [crossings, ownedClasses_bare, List.flatMap_map, List.map_flatMap, List.map_filterMap]
  congr 1
  funext referrer
  apply List.filterMap_congr
  intro reference _
  exact crossing?_bare (ownedClasses modules) referrer reference

/-- The graph of the same modules, of which nothing is declared. -/
def bare (graph : ModuleGraph codebase) : ModuleGraph codebase.bare where
  modules := graph.modules.map (·.bare)
  distinct := by
    rw [List.map_map]
    exact graph.distinct
  classDependencies := graph.classDependencies.map (·.bare)
  classDependencies_eq := by rw [crossings_bare, graph.classDependencies_eq]
  weights := graph.weights
  weights_eq := by
    rw [List.map_map, graph.weights_eq]
    rfl

variable {graph : ModuleGraph codebase}

/-! What a bare graph still tells. -/

theorem module?_bare (graph : ModuleGraph codebase) (name : String) :
    graph.bare.module? name = (graph.module? name).map (·.bare) := by
  rw [module?, bare, List.find?_map]
  rfl

@[simp] theorem dependsOn_bare : graph.bare.dependsOn = graph.dependsOn := rfl

@[simp] theorem names_bare : graph.bare.names = graph.names := by
  rw [names, names, bare, List.map_map]
  rfl

@[simp] theorem successors_bare : graph.bare.successors = graph.successors := rfl

@[simp] theorem cycleViolations_bare : graph.bare.cycleViolations = graph.cycleViolations := by
  simp only [cycleViolations, cycles, sortedNames, searchOrder, names_bare, dependsOn_bare,
    successors_bare]

@[simp] theorem edges_bare : graph.bare.edges = graph.edges.map (·.bare) := by
  simp only [edges, bare, List.flatMap_map, List.map_flatMap, List.filterMap_map,
    List.map_filterMap, Function.comp_def, Option.map_map]
  rfl

@[simp] theorem evidence_bare (source target : String) :
    graph.bare.evidence source target = graph.evidence source target := by
  have between : (graph.bare.between source target).map ends =
      (graph.between source target).map ends := by
    simp only [ModuleGraph.between, bare, List.filter_map, List.map_map]
    rfl
  rw [evidence, between, evidence]

theorem eq_of_modules_eq {first second : ModuleGraph codebase}
    (same : first.modules = second.modules) : first = second := by
  have built := ofModules_eq_ok.mpr same
  rw [ofModules_eq_ok.mpr rfl] at built
  exact (Except.ok.inj built).symm

/-! Graphs with the same base packages. -/

theorem definitions_bare (graph : ModuleGraph codebase) :
    graph.bare.definitions = (graph.modules.map (·.basePackage)).map .basedAt := by
  rw [definitions, bare, List.map_map, List.map_map]
  rfl

section
variable {classes : ClassGraph} {markers others : MarkerSet}
  {graph : ModuleGraph ⟨classes, markers⟩} {other : ModuleGraph ⟨classes, others⟩}

theorem bare_eq_bare
    (same : graph.modules.map (·.basePackage) = other.modules.map (·.basePackage)) :
    graph.bare = other.bare := by
  apply eq_of_modules_eq
  apply ApplicationModule.definition_injective.list_map
  calc graph.bare.definitions
      = (graph.modules.map (·.basePackage)).map .basedAt := definitions_bare graph
    _ = (other.modules.map (·.basePackage)).map .basedAt := by rw [same]
    _ = other.bare.definitions := (definitions_bare other).symm

/-- What is discovered below a base is the same when laid bare, whatever the markers are and
whatever the overrides declare. -/
theorem bare_eq_of_discover {base : String} {overrides replaced : List (String × ModuleDefinition)}
    (discovered : discover ⟨classes, markers⟩ base overrides = .ok graph)
    (discoveredToo : discover ⟨classes, others⟩ base replaced = .ok other) :
    graph.bare = other.bare := by
  apply bare_eq_bare
  rw [basePackages_of_discover discovered, basePackages_of_discover discoveredToo]
  -- The packages are found among the classes, with no look at the markers.
  rfl

theorem cycleViolations_eq_of_bare_eq (same : graph.bare = other.bare) :
    graph.cycleViolations = other.cycleViolations :=
  calc graph.cycleViolations
    _ = graph.bare.cycleViolations := cycleViolations_bare.symm
    _ = other.bare.cycleViolations := congrArg cycleViolations same
    _ = other.cycleViolations := cycleViolations_bare

end

/-! Findings, told by the bare graph and by what only markers and declarations decide. -/

/-- Whether a package exposes a class to modules other than the one based there. -/
def exposes (codebase : Codebase) (base className : String) : Bool :=
  (codebase.classes.residents base).any fun descriptor =>
    descriptor.isPublic &&
      (descriptor.package == base ||
        codebase.markers.exposed.marks codebase.classes descriptor ||
        codebase.markers.component.marks codebase.classes descriptor) &&
      descriptor.name == className

theorem isExposed_eq (module : ApplicationModule codebase) (className : String) :
    module.isExposed className = exposes codebase module.basePackage className := by
  rw [ApplicationModule.isExposed, ApplicationModule.exposedTypes, List.any_filter]
  rfl

def accessFinding (crossing : ClassDependency codebase) : Violation :=
  .internalAccess crossing.sourceModule.name crossing.targetModule.name crossing.source.name
    crossing.target.name

theorem internalViolations_eq (graph : ModuleGraph codebase) (points : ExtensionPoints) :
    graph.internalViolations points =
      (graph.bare.classDependencies.filter fun crossing =>
        !exposes codebase crossing.targetModule.basePackage crossing.target.name &&
          !points.include codebase.classes crossing.target.name).map accessFinding := by
  simp only [internalViolations, isExposed_eq, bare, List.filter_map, List.map_map]
  rfl

/-- What an edge is blamed for, if it is not allowed. -/
def edgeFinding? (graph : ModuleGraph codebase) (edge : ModuleEdge codebase) : Option Violation :=
  let pairs := graph.evidence edge.source.name edge.target.name
  pairs.head?.map fun pair =>
    .undeclaredDependency edge.source.name edge.target.name pair.1 pair.2 pairs.length

theorem edgeFinding?_bare (edge : ModuleEdge codebase) :
    graph.bare.edgeFinding? edge.bare = graph.edgeFinding? edge := by
  simp only [edgeFinding?, evidence_bare]
  rfl

theorem firstModule_of_edgeFinding? {edge : ModuleEdge codebase} {violation : Violation}
    (found : graph.edgeFinding? edge = some violation) :
    violation.firstModule = edge.source.name := by
  obtain ⟨pair, -, rfl⟩ := Option.map_eq_some_iff.mp found
  rfl

theorem undeclaredViolations_eq (graph : ModuleGraph codebase)
    {permits : ModuleEdge codebase.bare → Bool}
    (allowed : ∀ edge ∈ graph.edges, edge.source.allows edge.target = permits edge.bare) :
    graph.undeclaredViolations =
      (graph.bare.edges.filter (!permits ·)).filterMap graph.bare.edgeFinding? := by
  rw [edges_bare, List.filterMap_filter, List.filterMap_map, undeclaredViolations]
  apply List.filterMap_congr
  intro edge member
  rw [undeclaredEdge?_eq, allowed edge member, Function.comp_apply, edgeFinding?_bare]
  cases permits edge.bare <;> rfl

end ModuleGraph

end ModuleBoundary
