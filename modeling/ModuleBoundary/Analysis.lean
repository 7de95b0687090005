import ModuleBoundary.Rules

/-! The outcome of one analysis: what each module is, how modules depend on each other,
and what was found. It stands for itself, without the class graph.
-/

set_option autoImplicit false

namespace ModuleBoundary

structure EventSummary where
  eventType : String
  sources : List String
  deriving DecidableEq

structure ModuleSummary where
  name : String
  displayName : String
  basePackage : String
  classCount : Nat
  exposedTypes : List String
  aggregateRoots : List String
  publishedEvents : List EventSummary
  beans : List String
  dependencies : List String
  deriving DecidableEq

/-- A weighted arrow between two named nodes. -/
structure Arrow where
  source : String
  target : String
  weight : Nat
  deriving DecidableEq

/-- Names may repeat, and so may arrows. -/
structure NamedGraph where
  nodes : List String
  arrows : List Arrow
  deriving DecidableEq

structure Analysis where
  projectName : String
  basePackage : String
  modules : List ModuleSummary
  violations : Report
  dependencyGraph : NamedGraph
  deriving DecidableEq

variable {codebase : Codebase}

def ModuleSummary.of (module : ApplicationModule codebase) (dependencies : List String) :
    ModuleSummary where
  name := module.name
  displayName := module.displayName
  basePackage := module.basePackage
  classCount := module.members.length
  exposedTypes := module.exposedTypes.map (·.name)
  aggregateRoots := module.aggregateRoots.map (·.name)
  publishedEvents := module.publishedEvents.map fun published =>
    ⟨published.event.name, published.sources.map (·.name)⟩
  beans := module.beans.map (·.name)
  dependencies := dependencies

namespace ModuleGraph

def toNamedGraph (graph : ModuleGraph codebase) : NamedGraph where
  nodes := graph.modules.map (·.name)
  arrows := graph.edges.map fun edge => ⟨edge.source.name, edge.target.name, edge.weight⟩

def summaries (graph : ModuleGraph codebase) : List ModuleSummary :=
  graph.modules.map fun module =>
    .of module ((graph.dependenciesOf module.name).map (·.name))

end ModuleGraph

/-- What an analysis is asked to apply. -/
structure AnalysisSettings where
  markers : MarkerSet
  points : ExtensionPoints
  rules : RuleSet
  overrides : List (String × ModuleDefinition)

/-- Discover the modules below a package and verify them. -/
def analyze (projectName : String) (classes : ClassGraph) (basePackage : String)
    (settings : AnalysisSettings) : Except ModuleError Analysis := do
  let graph ← ModuleGraph.discover ⟨classes, settings.markers⟩ basePackage settings.overrides
  return {
    projectName
    basePackage
    modules := graph.summaries
    violations := graph.verify settings.rules settings.points
    dependencyGraph := graph.toNamedGraph }

end ModuleBoundary
