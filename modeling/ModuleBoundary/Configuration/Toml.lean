import ModuleBoundary.Configuration
import ModuleBoundary.Toml.Reader
import ModuleBoundary.Toml.Record

/-! Configuration declarations as TOML documents. -/

set_option autoImplicit false

namespace ModuleBoundary

open Toml (Node)

def MarkerDeclaration.ofNode? (node : Node) : Option MarkerDeclaration := do
  let fields ← node.fields? ["annotations", "supertypes", "types"]
  return {
    annotations := ← fields.withDefault "annotations" [] Node.asTexts?
    supertypes := ← fields.withDefault "supertypes" [] Node.asTexts?
    types := ← fields.withDefault "types" [] Node.asTexts? }

def MarkersDeclaration.ofNode? (node : Node) : Option MarkersDeclaration := do
  let fields ← node.fields?
    ["aggregate_root", "domain_event", "component", "exposed", "extension_point"]
  return {
    aggregateRoot := ← fields.optional "aggregate_root" MarkerDeclaration.ofNode?
    domainEvent := ← fields.optional "domain_event" MarkerDeclaration.ofNode?
    component := ← fields.optional "component" MarkerDeclaration.ofNode?
    exposed := ← fields.optional "exposed" MarkerDeclaration.ofNode?
    extensionPoint := ← fields.optional "extension_point" MarkerDeclaration.ofNode? }

/-- Rules that are not mentioned are applied. -/
def RuleSet.ofNode? (node : Node) : Option RuleSet := do
  let fields ← node.fields? ["cycles", "undeclared_dependencies", "internal_access"]
  return {
    cycles := ← fields.withDefault "cycles" true Node.asBool?
    undeclaredDependencies := ← fields.withDefault "undeclared_dependencies" true Node.asBool?
    internalAccess := ← fields.withDefault "internal_access" true Node.asBool? }

def ModuleDeclaration.ofNode? (node : Node) : Option ModuleDeclaration := do
  let fields ← node.fields? ["display_name", "allowed_dependencies"]
  return {
    displayName := ← fields.optional "display_name" Node.asText?
    allowedDependencies := ← fields.optional "allowed_dependencies" Node.asTexts? }

namespace ConfigurationDeclaration

def ofEntries? (entries : Toml.Entries) : Option ConfigurationDeclaration := do
  let fields : Toml.Fields := ⟨true, entries⟩
  return {
    basePackage := ← fields.optional "base_package" Node.asText?
    publishMethods := ← fields.optional "publish_methods" Node.asTexts?
    extensionPoints := ← fields.optional "extension_points" Node.asTexts?
    markers := ← fields.optional "markers" MarkersDeclaration.ofNode?
    rules := ← fields.optional "rules" RuleSet.ofNode?
    modules := ← fields.optional "modules" (Node.asTableOf? ModuleDeclaration.ofNode?) }

def ofText? (text : String) : Option ConfigurationDeclaration :=
  (Toml.read? text).bind ofEntries?

end ConfigurationDeclaration

def Configuration.ofText? (text : String) : Option Configuration :=
  (ConfigurationDeclaration.ofText? text).map ConfigurationDeclaration.configuration

end ModuleBoundary
