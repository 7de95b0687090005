import ModuleBoundary.Proofs.ModuleGraph.Bare

/-! How far a declaration reaches.

An override declares a display name and allowed dependencies for modules of one name. What is
discovered under two sets of overrides is the same but for these. A module on which both declare
the same is shown by one name under both and is blamed for the same undeclared dependencies.
-/

set_option autoImplicit false

namespace ModuleBoundary

variable {codebase : Codebase}

/-- Two modules are alike in everything that no override declares. -/
structure ApplicationModule.Resembles (module other : ApplicationModule codebase) : Prop where
  name : module.name = other.name
  basePackage : module.basePackage = other.basePackage
  members : module.members = other.members
  exposedTypes : module.exposedTypes = other.exposedTypes
  aggregateRoots : module.aggregateRoots = other.aggregateRoots
  publishedEvents : module.publishedEvents = other.publishedEvents
  beans : module.beans = other.beans

/-- All these are derived from the codebase and the base package. -/
theorem ApplicationModule.resembles_of_basePackage_eq {module other : ApplicationModule codebase}
    (based : module.basePackage = other.basePackage) : module.Resembles other := by
  have members : module.members = other.members := congrArg codebase.classes.residents based
  exact {
    name := congrArg Package.lastSegment based
    basePackage := based
    members
    exposedTypes := by rw [exposedTypes, exposedTypes, members, based]
    aggregateRoots := by rw [aggregateRoots, aggregateRoots, members]
    publishedEvents := by rw [publishedEvents, publishedEvents, members]
    beans := by simp only [beans, contains, members] }

theorem filter_filterMap {α β : Type} {image : α → Option β} {chosen : β → Bool}
    {origin : α → Bool} (agrees : ∀ item found, image item = some found → chosen found = origin item)
    (items : List α) :
    (items.filterMap image).filter chosen = (items.filter origin).filterMap image := by
  rw [List.filter_filterMap, List.filterMap_filter]
  apply List.filterMap_congr
  intro item _
  cases found : image item with
  | none => simp
  | some value => simp [Option.filter, agrees item value found]

namespace ModuleGraph

variable {base name : String} {overrides others : List (String × ModuleDefinition)}
  {graph other : ModuleGraph codebase}

/-- The display name and the allowed dependencies that overrides declare under a name. -/
def declared (overrides : List (String × ModuleDefinition)) (name : String) :
    Option String × Option (List String) :=
  match overrides.lookup name with
  | some definition => (definition.displayName, definition.allowedDependencies)
  | none => (none, none)

theorem discoveredDefinition_eq (overrides : List (String × ModuleDefinition)) (package : String) :
    discoveredDefinition overrides package =
      ⟨package, (declared overrides (Package.lastSegment package)).1,
        (declared overrides (Package.lastSegment package)).2⟩ := by
  unfold discoveredDefinition declared
  cases overrides.lookup (Package.lastSegment package) <;> rfl

theorem displayName_of_discover (discovered : discover codebase base overrides = .ok graph)
    {module : ApplicationModule codebase} (known : module ∈ graph.modules) :
    module.displayName =
      (declared overrides module.name).1.getD (Text.capitalize module.name) := by
  have defined := definition_of_discover discovered known
  rw [discoveredDefinition_eq] at defined
  rw [ApplicationModule.displayName, ModuleDefinition.shownName, defined]
  rfl

/-- The dependencies that overrides allow under a name. Where they list none, all are allowed. -/
def allowance (overrides : List (String × ModuleDefinition)) (name : String) :
    Option (List String) :=
  (declared overrides name).2

/-- Whether overrides allow an edge. -/
def permits (overrides : List (String × ModuleDefinition)) (edge : ModuleEdge codebase) : Bool :=
  (allowance overrides edge.source.name).all fun allowed =>
    allowed.any fun entry => entry == edge.target.name || entry == edge.target.basePackage

theorem allows_of_discover (discovered : discover codebase base overrides = .ok graph)
    {edge : ModuleEdge codebase} (known : edge.source ∈ graph.modules) :
    edge.source.allows edge.target = permits overrides edge.bare := by
  have defined := definition_of_discover discovered known
  rw [discoveredDefinition_eq] at defined
  rw [ApplicationModule.allows, ModuleDefinition.allows, defined]
  rfl

theorem source_mem_of_mem_edges {edge : ModuleEdge codebase} (member : edge ∈ graph.edges) :
    edge.source ∈ graph.modules := by
  obtain ⟨source, known, found⟩ := List.mem_flatMap.mp member
  obtain ⟨target, -, weighed⟩ := List.mem_filterMap.mp found
  obtain ⟨weight, -, rfl⟩ := Option.map_eq_some_iff.mp weighed
  exact known

theorem undeclaredViolations_of_discover
    (discovered : discover codebase base overrides = .ok graph) :
    graph.undeclaredViolations =
      (graph.bare.edges.filter (!permits overrides ·)).filterMap graph.bare.edgeFinding? :=
  graph.undeclaredViolations_eq fun _ member =>
    allows_of_discover discovered (source_mem_of_mem_edges member)

/-- What a module is blamed for is found on the edges that leave it. -/
theorem undeclaredViolations_filter (discovered : discover codebase base overrides = .ok graph)
    (name : String) :
    graph.undeclaredViolations.filter (·.firstModule = name) =
      (graph.bare.edges.filter fun edge =>
        edge.source.name = name && !permits overrides edge).filterMap graph.bare.edgeFinding? := by
  rw [undeclaredViolations_of_discover discovered, ← List.filter_filter]
  apply filter_filterMap
  intro edge violation found
  rw [firstModule_of_edgeFinding? found]

theorem displayName_module? (discovered : discover codebase base overrides = .ok graph)
    (name : String) :
    (graph.module? name).map (·.displayName) =
      (graph.bare.module? name).map fun _ =>
        (declared overrides name).1.getD (Text.capitalize name) := by
  rw [module?_bare, Option.map_map]
  cases found : graph.module? name with
  | none => rfl
  | some module =>
    have named : module.name = name := by simpa using List.find?_some found
    have shown := displayName_of_discover discovered (List.mem_of_find?_eq_some found)
    rw [named] at shown
    exact congrArg some shown

/-- Two graphs of one codebase differ in nothing but what overrides declare of their modules. -/
structure DiffersAsDeclared (overrides others : List (String × ModuleDefinition))
    (graph other : ModuleGraph codebase) : Prop where
  modules : List.Forall₂ ApplicationModule.Resembles graph.modules other.modules
  edges : graph.edges.map (·.bare) = other.edges.map (·.bare)
  classDependencies : graph.classDependencies.map (·.bare) = other.classDependencies.map (·.bare)
  cycles : graph.cycleViolations = other.cycleViolations
  accesses : ∀ points, graph.internalViolations points = other.internalViolations points
  displayName : ∀ name, declared overrides name = declared others name →
    (graph.module? name).map (·.displayName) = (other.module? name).map (·.displayName)
  undeclared : ∀ name, declared overrides name = declared others name →
    graph.undeclaredViolations.filter (·.firstModule = name) =
      other.undeclaredViolations.filter (·.firstModule = name)
  undisputed : (∀ module ∈ graph.modules, declared overrides module.name = declared others module.name) →
    graph = other

section
variable (discovered : discover codebase base overrides = .ok graph)
  (discoveredToo : discover codebase base others = .ok other)
include discovered discoveredToo

theorem resembles_of_discover :
    List.Forall₂ ApplicationModule.Resembles graph.modules other.modules := by
  have based := (basePackages_of_discover discovered).trans (basePackages_of_discover discoveredToo).symm
  have pairs := List.forall₂_eq_eq_eq ▸ based
  rw [List.forall₂_map_left_iff, List.forall₂_map_right_iff] at pairs
  exact pairs.imp fun _ _ => ApplicationModule.resembles_of_basePackage_eq

theorem undeclared_of_discover (same : declared overrides name = declared others name) :
    graph.undeclaredViolations.filter (·.firstModule = name) =
      other.undeclaredViolations.filter (·.firstModule = name) := by
  rw [undeclaredViolations_filter discovered, undeclaredViolations_filter discoveredToo,
    bare_eq_of_discover discovered discoveredToo]
  congr 1
  apply List.filter_congr
  intro edge _
  -- Where the name is another, neither side keeps the edge.
  by_cases named : edge.source.name = name
  · rw [permits, permits, allowance, allowance, named, same]
  · simp [named]

theorem eq_of_discover
    (same : ∀ module ∈ graph.modules,
      declared overrides module.name = declared others module.name) : graph = other := by
  apply eq_of_modules_eq
  apply ApplicationModule.definition_injective.list_map
  change graph.definitions = other.definitions
  rw [definitions_of_discover discovered, definitions_of_discover discoveredToo]
  -- A definition is made of a package and of what is declared under the name it ends in.
  apply List.map_congr_left
  intro package found
  rw [← basePackages_of_discover discovered] at found
  obtain ⟨module, known, rfl⟩ := List.mem_map.mp found
  rw [discoveredDefinition_eq, discoveredDefinition_eq]
  change ModuleDefinition.mk _ (declared overrides module.name).1 (declared overrides module.name).2 =
    ModuleDefinition.mk _ (declared others module.name).1 (declared others module.name).2
  rw [same module known]

theorem differsAsDeclared_of_discover : DiffersAsDeclared overrides others graph other := by
  have bare : graph.bare = other.bare := bare_eq_of_discover discovered discoveredToo
  exact {
    modules := resembles_of_discover discovered discoveredToo
    edges := by rw [← edges_bare, bare, edges_bare]
    classDependencies := congrArg classDependencies bare
    cycles := cycleViolations_eq_of_bare_eq bare
    accesses := fun points => by rw [internalViolations_eq, bare, internalViolations_eq]
    displayName := fun name same => by
      rw [displayName_module? discovered, displayName_module? discoveredToo, bare, same]
    undeclared := fun _ => undeclared_of_discover discovered discoveredToo
    undisputed := eq_of_discover discovered discoveredToo }

end

/-- Overrides do not leak. Discovery under two sets of overrides fails for one cause, or finds
modules that differ in nothing but what the overrides declare of them. -/
theorem discover_differs_as_declared (codebase : Codebase) (base : String)
    (overrides others : List (String × ModuleDefinition)) :
    (∃ cause, discover codebase base overrides = .error cause ∧
      discover codebase base others = .error cause) ∨
    ∃ graph other, discover codebase base overrides = .ok graph ∧
      discover codebase base others = .ok other ∧
      DiffersAsDeclared overrides others graph other := by
  cases obstacle : obstacle? codebase base with
  | some cause => exact .inl ⟨cause, discover_eq_error.mpr obstacle, discover_eq_error.mpr obstacle⟩
  | none =>
    obtain ⟨graph, discovered⟩ := exists_discover.mpr obstacle
    obtain ⟨other, discoveredToo⟩ := exists_discover.mpr obstacle
    exact .inr ⟨graph, other, discovered, discoveredToo,
      differsAsDeclared_of_discover discovered discoveredToo⟩

end ModuleGraph

end ModuleBoundary
