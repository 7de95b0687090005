import ModuleBoundary.Analysis

/-! Configuration of a verification.

Every slot has a preset. A declaration, as a configuration file makes it, may give a
slot anew; the presets of the other slots stay.
-/

set_option autoImplicit false

namespace ModuleBoundary

structure Configuration where
  basePackage : Option String
  settings : AnalysisSettings

/-- Stereotypes and event publication of the frameworks commonly met. -/
def MarkerSet.preset : MarkerSet where
  aggregateRoot := {
    annotations := .ofList ["org.jmolecules.ddd.annotation.AggregateRoot"]
    supertypes := .ofList ["org.jmolecules.ddd.types.AggregateRoot"] }
  domainEvent := {
    annotations := .ofList ["org.jmolecules.event.annotation.DomainEvent"]
    supertypes := .ofList ["org.jmolecules.event.types.DomainEvent"] }
  component := {
    annotations := .ofList [
      "org.springframework.stereotype.Component",
      "org.springframework.stereotype.Service",
      "org.springframework.stereotype.Repository",
      "org.springframework.stereotype.Controller",
      "org.springframework.context.annotation.Configuration"] }
  exposed := {
    annotations := .ofList ["org.springframework.modulith.NamedInterface"] }
  publishMethods := [
    .ofSpec "org.springframework.context.ApplicationEventPublisher#publishEvent",
    .ofSpec "registerEvent"]

def Configuration.preset : Configuration where
  basePackage := none
  settings := {
    markers := .preset
    points := {}
    rules := {}
    overrides := [] }

/-- A marker as it is declared. It has no predicates. -/
structure MarkerDeclaration where
  annotations : List String := []
  supertypes : List String := []
  types : List String := []
  deriving DecidableEq

def MarkerDeclaration.marker (declared : MarkerDeclaration) : Marker where
  annotations := .ofList declared.annotations
  supertypes := .ofList declared.supertypes
  types := .ofList declared.types

structure MarkersDeclaration where
  aggregateRoot : Option MarkerDeclaration := none
  domainEvent : Option MarkerDeclaration := none
  component : Option MarkerDeclaration := none
  exposed : Option MarkerDeclaration := none
  extensionPoint : Option MarkerDeclaration := none
  deriving DecidableEq

structure ModuleDeclaration where
  displayName : Option String := none
  allowedDependencies : Option (List String) := none
  deriving DecidableEq

/-- The base package of a module is not declared but discovered. -/
def ModuleDeclaration.definition (declared : ModuleDeclaration) : ModuleDefinition where
  basePackage := ""
  displayName := declared.displayName
  allowedDependencies := declared.allowedDependencies

structure ConfigurationDeclaration where
  basePackage : Option String := none
  publishMethods : Option (List String) := none
  extensionPoints : Option (List String) := none
  markers : Option MarkersDeclaration := none
  rules : Option RuleSet := none
  modules : Option (List (String × ModuleDeclaration)) := none
  deriving DecidableEq

namespace ConfigurationDeclaration

def declaredMarker (declared : ConfigurationDeclaration)
    (slot : MarkersDeclaration → Option MarkerDeclaration) (preset : Marker) : Marker :=
  ((declared.markers.bind slot).map MarkerDeclaration.marker).getD preset

def configuration (declared : ConfigurationDeclaration) : Configuration :=
  let preset := Configuration.preset
  let markers := preset.settings.markers
  let points := preset.settings.points
  { basePackage := declared.basePackage.or preset.basePackage
    settings := {
      markers := {
        aggregateRoot := declared.declaredMarker (·.aggregateRoot) markers.aggregateRoot
        domainEvent := declared.declaredMarker (·.domainEvent) markers.domainEvent
        component := declared.declaredMarker (·.component) markers.component
        exposed := declared.declaredMarker (·.exposed) markers.exposed
        publishMethods :=
          (declared.publishMethods.map (·.map PublishMethod.ofSpec)).getD markers.publishMethods }
      points := {
        patterns := declared.extensionPoints.getD points.patterns
        marker := declared.declaredMarker (·.extensionPoint) points.marker }
      rules := declared.rules.getD preset.settings.rules
      overrides :=
        (declared.modules.map (·.map fun (name, declaration) => (name, declaration.definition))).getD
          preset.settings.overrides } }

end ConfigurationDeclaration

end ModuleBoundary
