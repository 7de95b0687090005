import ModuleBoundary.Configuration.Template
import ModuleBoundary.Configuration.Toml

/-! Configuration files and what is configured by them. -/

set_option autoImplicit false

namespace ModuleBoundary.Configuration

/-- What the first configuration file declares. -/
def declaredByTemplate : ConfigurationDeclaration where
  publishMethods := some [
    "org.springframework.context.ApplicationEventPublisher#publishEvent",
    "registerEvent"]
  extensionPoints := some []
  markers := some {
    aggregateRoot := some {
      annotations := ["org.jmolecules.ddd.annotation.AggregateRoot"]
      supertypes := ["org.jmolecules.ddd.types.AggregateRoot"] }
    domainEvent := some {
      annotations := ["org.jmolecules.event.annotation.DomainEvent"]
      supertypes := ["org.jmolecules.event.types.DomainEvent"] }
    component := some {
      annotations := [
        "org.springframework.stereotype.Component",
        "org.springframework.stereotype.Service",
        "org.springframework.stereotype.Repository",
        "org.springframework.stereotype.Controller",
        "org.springframework.context.annotation.Configuration"] }
    exposed := some {
      annotations := ["org.springframework.modulith.NamedInterface"] } }
  rules := some {}

theorem declaration_template :
    ConfigurationDeclaration.ofText? template = some declaredByTemplate := by
  simp only [ConfigurationDeclaration.ofText?, Toml.read?, toList_template, lettersOfLines,
    templateLines, List.flatMap_cons, List.flatMap_nil]
  -- The letters of a literal are taken by unification: the kernel would decode it octet by octet.
  simp -index only [String.toList_ofList]
  decide +kernel

/-- Every slot is declared to be what it is where nothing is declared. -/
theorem ofText?_template : ofText? template = some preset := by
  rw [ofText?, declaration_template]
  rfl

end ModuleBoundary.Configuration
