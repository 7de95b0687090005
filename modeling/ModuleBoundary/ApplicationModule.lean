import ModuleBoundary.Marker
import ModuleBoundary.ModuleDefinition

/-! Application modules: a base package with every class underneath it.

A module belongs to a codebase, and all that is said of it is derived from the two:
the types it exposes, its aggregate roots, the events it publishes and the components
it uses.
-/

set_option autoImplicit false

namespace ModuleBoundary

structure ApplicationModule (codebase : Codebase) where
  definition : ModuleDefinition
  valid : Package.isValid definition.basePackage = true
  inhabited : codebase.classes.residents definition.basePackage ≠ []

/-- An event type with the members that publish it, both in the order first met. -/
structure PublishedEvent where
  event : ClassDescriptor
  sources : List ClassDescriptor
  deriving DecidableEq

/-- A component a module uses. One from outside the class graph has no descriptor. -/
structure Bean where
  name : String
  descriptor : Option ClassDescriptor
  external : Bool
  deriving DecidableEq

/-- The beans listed so far, with the names they take. -/
structure BeanScan where
  seen : List String := []
  beans : List Bean := []

namespace BeanScan

def add (scan : BeanScan) (bean : Bean) : BeanScan :=
  if bean.name ∈ scan.seen then scan
  else { seen := bean.name :: scan.seen, beans := scan.beans ++ [bean] }

def offer (scan : BeanScan) : Option Bean → BeanScan
  | some bean => scan.add bean
  | none => scan

end BeanScan

namespace PublishedEvent

def addSource (published : PublishedEvent) (source : ClassDescriptor) : PublishedEvent :=
  if published.sources.any (·.name == source.name) then published
  else { published with sources := published.sources ++ [source] }

/-- Take note that a class publishes an event. -/
def record (source : ClassDescriptor) :
    List PublishedEvent → ClassDescriptor → List PublishedEvent
  | [], event => [⟨event, [source]⟩]
  | first :: rest, event =>
    if first.event.name = event.name then first.addSource source :: rest
    else first :: record source rest event

end PublishedEvent

/-- The events that a class hands to publishing calls, as often as it does. -/
def Codebase.publications (codebase : Codebase) (source : ClassDescriptor) :
    List ClassDescriptor :=
  (((source.calls.filter codebase.markers.isPublishCall).flatMap CallSite.argumentTypes).filterMap
    codebase.classes.get?).filter (codebase.markers.domainEvent.marks codebase.classes)

/-- The component that a class of the module is. -/
def Codebase.ownBean? (codebase : Codebase) (member : ClassDescriptor) : Option Bean :=
  if codebase.markers.component.marks codebase.classes member then
    some ⟨member.name, some member, false⟩
  else none

/-- The component behind a name. Of a name outside the graph only the marker's own
list can tell. -/
def Codebase.externalBean? (codebase : Codebase) (name : String) : Option Bean :=
  match codebase.classes.get? name with
  | some descriptor =>
    if codebase.markers.component.marks codebase.classes descriptor then
      some ⟨name, some descriptor, true⟩
    else none
  | none => if codebase.markers.component.namesType name then some ⟨name, none, true⟩ else none

namespace ApplicationModule

variable {codebase : Codebase}

def of (codebase : Codebase) (definition : ModuleDefinition) :
    Except ModuleError (ApplicationModule codebase) :=
  if valid : Package.isValid definition.basePackage = true then
    match found : codebase.classes.residents definition.basePackage with
    | [] => .error (.emptyModule definition.basePackage)
    | _ :: _ => .ok ⟨definition, valid, by simp [found]⟩
  else .error (.invalidBasePackage definition.basePackage)

def name (module : ApplicationModule codebase) : String := module.definition.name

def basePackage (module : ApplicationModule codebase) : String := module.definition.basePackage

def displayName (module : ApplicationModule codebase) : String := module.definition.shownName

def allows (module other : ApplicationModule codebase) : Bool :=
  module.definition.allows other.definition

def members (module : ApplicationModule codebase) : List ClassDescriptor :=
  codebase.classes.residents module.basePackage

def contains (module : ApplicationModule codebase) (className : String) : Bool :=
  module.members.any (·.name == className)

/-- Public members that live directly in the base package, carry the exposed marker
or are components. -/
def exposedTypes (module : ApplicationModule codebase) : List ClassDescriptor :=
  module.members.filter fun descriptor =>
    descriptor.isPublic &&
      (descriptor.package == module.basePackage ||
        codebase.markers.exposed.marks codebase.classes descriptor ||
        codebase.markers.component.marks codebase.classes descriptor)

def isExposed (module : ApplicationModule codebase) (className : String) : Bool :=
  module.exposedTypes.any (·.name == className)

def aggregateRoots (module : ApplicationModule codebase) : List ClassDescriptor :=
  module.members.filter (codebase.markers.aggregateRoot.marks codebase.classes)

def publishedEvents (module : ApplicationModule codebase) : List PublishedEvent :=
  module.members.foldl
    (fun published source =>
      (codebase.publications source).foldl (PublishedEvent.record source) published)
    []

/-- Components among the members, then those that members refer to. Both share the names that
were listed. -/
def beans (module : ApplicationModule codebase) : List Bean :=
  let own : BeanScan := module.members.foldl
    (fun scan member => scan.offer (codebase.ownBean? member)) {}
  let all : BeanScan := module.members.foldl
    (fun scan member =>
      (member.references.toList.filter (!module.contains ·)).foldl
        (fun scan name => scan.offer (codebase.externalBean? name)) scan)
    own
  all.beans

end ApplicationModule

end ModuleBoundary
