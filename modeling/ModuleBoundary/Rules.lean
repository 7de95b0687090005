import ModuleBoundary.Cycle
import ModuleBoundary.Glob
import ModuleBoundary.ModuleGraph
import ModuleBoundary.Report

/-! Applying the architecture rules to a module graph.

Modules must not depend on each other in cycles, must stay within the dependencies they
declare, and must not reach into types that another module does not expose.
-/

set_option autoImplicit false

namespace ModuleBoundary

/-- The rules a verification applies. -/
structure RuleSet where
  cycles : Bool := true
  undeclaredDependencies : Bool := true
  internalAccess : Bool := true
  deriving DecidableEq

namespace RuleSet

def only (rules : List Rule) : RuleSet where
  cycles := rules.contains .cycle
  undeclaredDependencies := rules.contains .undeclaredDependency
  internalAccess := rules.contains .internalAccess

def enables (rules : RuleSet) : Rule → Bool
  | .cycle => rules.cycles
  | .undeclaredDependency => rules.undeclaredDependencies
  | .internalAccess => rules.internalAccess

end RuleSet

/-- Types that other modules may use although they are not exposed. -/
structure ExtensionPoints where
  patterns : List String := []
  marker : Marker := {}

def ExtensionPoints.include (points : ExtensionPoints) (classes : ClassGraph)
    (typeName : String) : Bool :=
  points.patterns.any (Glob.isMatch · typeName) ||
    (classes.get? typeName).any (points.marker.marks classes)

namespace ModuleGraph

variable {codebase : Codebase}

def names (graph : ModuleGraph codebase) : List String :=
  graph.modules.map ApplicationModule.name

/-- The names of the modules, in ascending order. -/
def sortedNames (graph : ModuleGraph codebase) : List String :=
  graph.names.mergeSort (· ≤ ·)

/-- What a module depends on, the dependency that was met last before the others. -/
def successors (graph : ModuleGraph codebase) (name : String) : List String :=
  ((graph.weights.filter (·.1.1 == name)).map (·.1.2)).reverse

/-- The modules as a depth-first search that starts in module order leaves them. -/
def searchOrder (graph : ModuleGraph codebase) : List String :=
  Cycle.leaving graph.successors (graph.names.map .enter) graph.names

def cycles (graph : ModuleGraph codebase) : List (List String) :=
  Cycle.elementary graph.dependsOn graph.sortedNames graph.searchOrder

def cycleViolations (graph : ModuleGraph codebase) : List Violation :=
  graph.cycles.map Violation.cycle

/-- Class dependencies in the order of their source's and then their target's name. -/
def evidenceOrder (first second : ClassDependency codebase) : Ordering :=
  compareLex (compareOn (·.source.name)) (compareOn (·.target.name)) first second

/-- One finding for an edge that is not allowed, with the first of its references. -/
def undeclaredEdge? (graph : ModuleGraph codebase) (edge : ModuleEdge codebase) :
    Option Violation :=
  if edge.source.allows edge.target then none
  else
    let evidence := (graph.between edge.source.name edge.target.name).mergeSort
      fun first second => (evidenceOrder first second).isLE
    evidence.head?.map fun first =>
      .undeclaredDependency edge.source.name edge.target.name first.source.name
        first.target.name evidence.length

def undeclaredViolations (graph : ModuleGraph codebase) : List Violation :=
  graph.edges.filterMap graph.undeclaredEdge?

def internalViolations (graph : ModuleGraph codebase) (points : ExtensionPoints) :
    List Violation :=
  (graph.classDependencies.filter fun crossing =>
      !crossing.targetModule.isExposed crossing.target.name &&
        !points.include codebase.classes crossing.target.name).map fun crossing =>
    .internalAccess crossing.sourceModule.name crossing.targetModule.name crossing.source.name
      crossing.target.name

/-- What each rule finds. -/
def findings (graph : ModuleGraph codebase) (points : ExtensionPoints) : Rule → List Violation
  | .cycle => graph.cycleViolations
  | .undeclaredDependency => graph.undeclaredViolations
  | .internalAccess => graph.internalViolations points

def verify (graph : ModuleGraph codebase) (rules : RuleSet) (points : ExtensionPoints) : Report :=
  .ofFindings ((Rule.all.filter rules.enables).flatMap (graph.findings points))

end ModuleGraph

end ModuleBoundary
