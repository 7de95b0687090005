import ModuleBoundary.ClassGraph
import ModuleBoundary.Text.Quoted

/-! Markers give classes their roles.

A class carries a marker by its own name, by an annotation, by a supertype, or
because a predicate accepts it. A marker without any of these marks nothing.
-/

set_option autoImplicit false

namespace ModuleBoundary

structure Marker where
  annotations : NameSet := ∅
  supertypes : NameSet := ∅
  types : NameSet := ∅
  predicates : List (ClassDescriptor → Bool) := []

namespace Marker

def empty : Marker := {}

def isEmpty (marker : Marker) : Bool :=
  marker.annotations.isEmpty && marker.supertypes.isEmpty && marker.types.isEmpty &&
    marker.predicates.isEmpty

/-- The only check there is for a name outside the class graph. -/
def namesType (marker : Marker) (name : String) : Bool := marker.types.contains name

def marks (marker : Marker) (graph : ClassGraph) (descriptor : ClassDescriptor) : Bool :=
  marker.types.contains descriptor.name ||
    descriptor.annotations.toList.any marker.annotations.contains ||
    marker.supertypes.toList.any (graph.isAssignableTo descriptor ·) ||
    marker.predicates.any (· descriptor)

def describeNames (names : NameSet) : String :=
  "\x7b" ++ ", ".intercalate (names.toList.map Text.quote) ++ "\x7d"

/-- The marker on one line, for developers. Of its predicates only the number shows. -/
def describe (marker : Marker) : String :=
  "Marker \x7b annotations: " ++ describeNames marker.annotations ++
    ", supertypes: " ++ describeNames marker.supertypes ++
    ", types: " ++ describeNames marker.types ++
    ", predicates: " ++ toString marker.predicates.length ++ " \x7d"

end Marker

def ClassGraph.matching (graph : ClassGraph) (marker : Marker) : List ClassDescriptor :=
  graph.classes.filter (marker.marks graph)

/-- A method whose calls publish their arguments, of one owner or of any. -/
structure PublishMethod where
  owner : Option String
  method : String
  deriving DecidableEq

namespace PublishMethod

/-- Read `method` or `owner#method`, cut at the first number sign. -/
def ofSpec (spec : String) : PublishMethod :=
  match spec.toList.splitOn '#' with
  | owner :: piece :: rest =>
    ⟨some (String.ofList owner), String.ofList (['#'].intercalate (piece :: rest))⟩
  | _ => ⟨none, spec⟩

def isCalledBy (publish : PublishMethod) (call : CallSite) : Bool :=
  call.method == publish.method && publish.owner.all (· == call.owner)

end PublishMethod

/-- The markers that the derived views of a module ask. Components are exposed. -/
structure MarkerSet where
  aggregateRoot : Marker := {}
  domainEvent : Marker := {}
  component : Marker := {}
  exposed : Marker := {}
  publishMethods : List PublishMethod := []

def MarkerSet.isPublishCall (markers : MarkerSet) (call : CallSite) : Bool :=
  markers.publishMethods.any (·.isCalledBy call)

/-- The classes under analysis with the markers that give them their roles. -/
structure Codebase where
  classes : ClassGraph
  markers : MarkerSet

end ModuleBoundary
