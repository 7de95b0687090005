import ModuleBoundary.ApplicationModule
import ModuleBoundary.NameClash

/-! The modules of a codebase and the dependencies between them.

A class is owned by the module with the most specific base package around it. A module
depends on another if a class owned by the first refers to a class owned by the second.
The references that cross a boundary are collected once, when the graph is built.
-/

set_option autoImplicit false

namespace ModuleBoundary

variable {codebase : Codebase}

/-- A reference from a class owned by one module to a class owned by another. -/
structure ClassDependency (codebase : Codebase) where
  source : ClassDescriptor
  sourceModule : ApplicationModule codebase
  target : ClassDescriptor
  targetModule : ApplicationModule codebase

/-- A module that refers to another, with the number of references. -/
structure ModuleEdge (codebase : Codebase) where
  source : ApplicationModule codebase
  target : ApplicationModule codebase
  weight : Nat

/-- Counts under keys, in the order the keys were first counted. -/
abbrev Tally (κ : Type) := List (κ × Nat)

def Tally.count {κ : Type} [DecidableEq κ] (key : κ) : Tally κ → Tally κ
  | [] => [(key, 1)]
  | (first, number) :: rest =>
    if first = key then (first, number + 1) :: rest else (first, number) :: count key rest

def Tally.of {κ : Type} [DecidableEq κ] (keys : List κ) : Tally κ :=
  keys.foldl (fun tally key => tally.count key) []

namespace ModuleGraph

/-- The module based at one of the packages that the segments, innermost first, stand
for. The innermost such package wins. -/
def ownerOfSegments? (modules : List (ApplicationModule codebase)) :
    List (List Char) → Option (ApplicationModule codebase)
  | [] => none
  | segment :: outer =>
    match modules.find? fun module =>
        Package.segments module.basePackage == (segment :: outer).reverse with
    | some owner => some owner
    | none => ownerOfSegments? modules outer

def ownerOfClass? (modules : List (ApplicationModule codebase)) (descriptor : ClassDescriptor) :
    Option (ApplicationModule codebase) :=
  ownerOfSegments? modules (Package.segments descriptor.package).reverse

/-- The classes with an owner, in the order of the class graph. -/
def ownedClasses (modules : List (ApplicationModule codebase)) :
    List (ClassDescriptor × ApplicationModule codebase) :=
  codebase.classes.classes.filterMap fun descriptor =>
    (ownerOfClass? modules descriptor).map (descriptor, ·)

/-- The crossing that one reference of an owned class stands for. -/
def crossing? (owned : List (ClassDescriptor × ApplicationModule codebase))
    (referrer : ClassDescriptor × ApplicationModule codebase) (reference : String) :
    Option (ClassDependency codebase) :=
  (owned.find? (·.1.name == reference)).bind fun (target, targetModule) =>
    if targetModule.name = referrer.2.name then none
    else some ⟨referrer.1, referrer.2, target, targetModule⟩

/-- The references of owned classes to classes of another owner. -/
def crossings (modules : List (ApplicationModule codebase)) : List (ClassDependency codebase) :=
  let owned := ownedClasses modules
  owned.flatMap fun referrer =>
    referrer.1.references.toList.filterMap (crossing? owned referrer)

end ModuleGraph

structure ModuleGraph (codebase : Codebase) where
  modules : List (ApplicationModule codebase)
  distinct : (modules.map ApplicationModule.name).Nodup
  classDependencies : List (ClassDependency codebase)
  classDependencies_eq : classDependencies = ModuleGraph.crossings modules
  weights : Tally (String × String)
  weights_eq : weights =
    .of (classDependencies.map fun crossing => (crossing.sourceModule.name, crossing.targetModule.name))

namespace ModuleGraph

def ofModules (modules : List (ApplicationModule codebase)) :
    Except ModuleError (ModuleGraph codebase) :=
  match clash : firstClash? ApplicationModule.name [] modules with
  | some (first, second) =>
    .error (.duplicateName second.name first.basePackage second.basePackage)
  | none => .ok {
      modules
      distinct := (firstClash?_eq_none clash).1
      classDependencies := crossings modules
      classDependencies_eq := rfl
      weights := .of _
      weights_eq := rfl }

/-- The graph of some definitions. The first that no module can be built of fails. -/
def ofDefinitions (codebase : Codebase) (definitions : List ModuleDefinition) :
    Except ModuleError (ModuleGraph codebase) := do
  ofModules (← definitions.mapM (ApplicationModule.of codebase))

/-- The packages directly below `base` that classes live in or below. -/
def subPackages (base : String) (classes : List ClassDescriptor) : NameSet :=
  .ofList (classes.filterMap fun descriptor => Package.child? base descriptor.package)

/-- What an override declares, for the module based at a discovered package. -/
def discoveredDefinition (overrides : List (String × ModuleDefinition)) (package : String) :
    ModuleDefinition :=
  match overrides.lookup (Package.lastSegment package) with
  | some declared => { declared with basePackage := package }
  | none => { basePackage := package }

/-- One module for each direct sub-package of `base`, in ascending order. Overrides go
by module name, and their own base packages do not count. -/
def discover (codebase : Codebase) (base : String)
    (overrides : List (String × ModuleDefinition)) : Except ModuleError (ModuleGraph codebase) :=
  match codebase.classes.classesIn base with
  | .error (.notFound package) => .error (.emptyModule package)
  | .error cause => .error (.classes cause)
  | .ok candidates =>
    ofDefinitions codebase
      ((subPackages base candidates).toList.map (discoveredDefinition overrides))

def module? (graph : ModuleGraph codebase) (name : String) : Option (ApplicationModule codebase) :=
  graph.modules.find? (·.name == name)

/-- The module that owns the class of a name. -/
def owner? (graph : ModuleGraph codebase) (className : String) :
    Option (ApplicationModule codebase) :=
  (codebase.classes.get? className).bind (ownerOfClass? graph.modules)

def weight? (graph : ModuleGraph codebase) (source target : String) : Option Nat :=
  graph.weights.lookup (source, target)

def dependsOn (graph : ModuleGraph codebase) (source target : String) : Bool :=
  (graph.weight? source target).isSome

/-- The modules that the named one depends on, in module order. -/
def dependenciesOf (graph : ModuleGraph codebase) (name : String) :
    List (ApplicationModule codebase) :=
  graph.modules.filter fun module => graph.dependsOn name module.name

/-- The edges in module order, by source and then by target. -/
def edges (graph : ModuleGraph codebase) : List (ModuleEdge codebase) :=
  graph.modules.flatMap fun source => graph.modules.filterMap fun target =>
    (graph.weight? source.name target.name).map (⟨source, target, ·⟩)

/-- The class dependencies that cross from one module into another. -/
def between (graph : ModuleGraph codebase) (source target : String) :
    List (ClassDependency codebase) :=
  graph.classDependencies.filter fun crossing =>
    crossing.sourceModule.name == source && crossing.targetModule.name == target

end ModuleGraph

end ModuleBoundary
