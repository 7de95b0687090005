import ModuleBoundary.Configuration.Template
import ModuleBoundary.Configuration.Toml
import ModuleBoundary.Proofs.Toml.Record

/-! Each key of a configuration file acts on one slot of the configuration.

A slot has the value that is given for it or its preset. What is given elsewhere in the
file does not count.
-/

set_option autoImplicit false

namespace ModuleBoundary

open Toml (Node)

/-- The markers that have tables of their own in a configuration. -/
inductive MarkerKind where
  | aggregateRoot
  | domainEvent
  | component
  | exposed
  | extensionPoint

namespace MarkerKind

def key : MarkerKind → String
  | aggregateRoot => "aggregate_root"
  | domainEvent => "domain_event"
  | component => "component"
  | exposed => "exposed"
  | extensionPoint => "extension_point"

def all : List MarkerKind := [aggregateRoot, domainEvent, component, exposed, extensionPoint]

def declared (markers : MarkersDeclaration) : MarkerKind → Option MarkerDeclaration
  | aggregateRoot => markers.aggregateRoot
  | domainEvent => markers.domainEvent
  | component => markers.component
  | exposed => markers.exposed
  | extensionPoint => markers.extensionPoint

end MarkerKind

/-- The lists of names that make a marker. -/
inductive MarkerPart where
  | annotations
  | supertypes
  | types

namespace MarkerPart

def key : MarkerPart → String
  | annotations => "annotations"
  | supertypes => "supertypes"
  | types => "types"

def all : List MarkerPart := [annotations, supertypes, types]

def declared (marker : MarkerDeclaration) : MarkerPart → List String
  | annotations => marker.annotations
  | supertypes => marker.supertypes
  | types => marker.types

def names (marker : Marker) : MarkerPart → NameSet
  | annotations => marker.annotations
  | supertypes => marker.supertypes
  | types => marker.types

end MarkerPart

def Rule.key : Rule → String
  | .cycle => "cycles"
  | .undeclaredDependency => "undeclared_dependencies"
  | .internalAccess => "internal_access"

/-! Records. -/

theorem MarkerDeclaration.ofNode?_part {node : Node} {declared : MarkerDeclaration}
    (read : MarkerDeclaration.ofNode? node = some declared) (part : MarkerPart) :
    Toml.IsTaken [] Node.asTexts? (node.field? (MarkerPart.all.map MarkerPart.key) part.key)
      (part.declared declared) := by
  simp only [MarkerDeclaration.ofNode?, bind, pure, Option.bind_eq_some_iff,
    Option.some.injEq] at read
  obtain ⟨fields, opened, annotations, atAnnotations, supertypes, atSupertypes, types, atTypes,
    rfl⟩ := read
  rw [Node.field?_eq (show node.fields? (MarkerPart.all.map MarkerPart.key) = _ from opened)]
  cases part with
  | annotations => exact Toml.isTaken_of_withDefault atAnnotations
  | supertypes => exact Toml.isTaken_of_withDefault atSupertypes
  | types => exact Toml.isTaken_of_withDefault atTypes

theorem MarkersDeclaration.ofNode?_kind {node : Node} {declared : MarkersDeclaration}
    (read : MarkersDeclaration.ofNode? node = some declared) (kind : MarkerKind) :
    (node.field? (MarkerKind.all.map MarkerKind.key) kind.key).mapM MarkerDeclaration.ofNode? =
      some (kind.declared declared) := by
  simp only [MarkersDeclaration.ofNode?, bind, pure, Option.bind_eq_some_iff,
    Option.some.injEq] at read
  obtain ⟨fields, opened, aggregateRoot, atAggregateRoot, domainEvent, atDomainEvent, component,
    atComponent, exposed, atExposed, extensionPoint, atExtensionPoint, rfl⟩ := read
  rw [Node.field?_eq (show node.fields? (MarkerKind.all.map MarkerKind.key) = _ from opened)]
  cases kind with
  | aggregateRoot => exact Toml.mapM_of_optional atAggregateRoot
  | domainEvent => exact Toml.mapM_of_optional atDomainEvent
  | component => exact Toml.mapM_of_optional atComponent
  | exposed => exact Toml.mapM_of_optional atExposed
  | extensionPoint => exact Toml.mapM_of_optional atExtensionPoint

theorem RuleSet.ofNode?_rule {node : Node} {rules : RuleSet}
    (read : RuleSet.ofNode? node = some rules) (rule : Rule) :
    Toml.IsTaken true Node.asBool? (node.field? (Rule.all.map Rule.key) rule.key)
      (rules.enables rule) := by
  simp only [RuleSet.ofNode?, bind, pure, Option.bind_eq_some_iff, Option.some.injEq] at read
  obtain ⟨fields, opened, cycles, atCycles, undeclared, atUndeclared, internal, atInternal,
    rfl⟩ := read
  rw [Node.field?_eq (show node.fields? (Rule.all.map Rule.key) = _ from opened)]
  cases rule with
  | cycle => exact Toml.isTaken_of_withDefault atCycles
  | undeclaredDependency => exact Toml.isTaken_of_withDefault atUndeclared
  | internalAccess => exact Toml.isTaken_of_withDefault atInternal

/-! Slots. -/

/-- What a configuration file may set. -/
inductive Slot where
  | basePackage
  | publishMethods
  | extensionPoints
  | marker (kind : MarkerKind)
  | toggle (rule : Rule)
  | modules

namespace Slot

def Value : Slot → Type
  | basePackage => Option String
  | publishMethods => List PublishMethod
  | extensionPoints => List String
  | marker _ => Marker
  | toggle _ => Bool
  | modules => List (String × ModuleDefinition)

/-- Where a file gives the slot. -/
def node? (entries : Toml.Entries) : Slot → Option Node
  | basePackage => entries.lookup "base_package"
  | publishMethods => entries.lookup "publish_methods"
  | extensionPoints => entries.lookup "extension_points"
  | marker kind => (entries.lookup "markers").bind
      (·.field? (MarkerKind.all.map MarkerKind.key) kind.key)
  | toggle rule => (entries.lookup "rules").bind (·.field? (Rule.all.map Rule.key) rule.key)
  | modules => entries.lookup "modules"

/-- What a node means for the slot. -/
def read? : (slot : Slot) → Node → Option slot.Value
  | basePackage, node => node.asText?.map some
  | publishMethods, node => node.asTexts?.map (·.map PublishMethod.ofSpec)
  | extensionPoints, node => node.asTexts?
  | marker _, node => (MarkerDeclaration.ofNode? node).map MarkerDeclaration.marker
  | toggle _, node => node.asBool?
  | modules, node => (node.asTableOf? ModuleDeclaration.ofNode?).map
      (·.map fun (name, declared) => (name, declared.definition))

/-- What a file gives for the slot, if that can be read. -/
def given? (slot : Slot) (entries : Toml.Entries) : Option (Option slot.Value) :=
  (slot.node? entries).mapM slot.read?

end Slot

namespace Configuration

def value (configuration : Configuration) : (slot : Slot) → slot.Value
  | .basePackage => configuration.basePackage
  | .publishMethods => configuration.settings.markers.publishMethods
  | .extensionPoints => configuration.settings.points.patterns
  | .marker .aggregateRoot => configuration.settings.markers.aggregateRoot
  | .marker .domainEvent => configuration.settings.markers.domainEvent
  | .marker .component => configuration.settings.markers.component
  | .marker .exposed => configuration.settings.markers.exposed
  | .marker .extensionPoint => configuration.settings.points.marker
  | .toggle rule => configuration.settings.rules.enables rule
  | .modules => configuration.settings.overrides

end Configuration

namespace ConfigurationDeclaration

/-- What is declared for the slot. Of declared rules each toggle is declared. -/
def given? (declared : ConfigurationDeclaration) : (slot : Slot) → Option slot.Value
  | .basePackage => declared.basePackage.map some
  | .publishMethods => declared.publishMethods.map (·.map PublishMethod.ofSpec)
  | .extensionPoints => declared.extensionPoints
  | .marker kind => (declared.markers.bind kind.declared).map MarkerDeclaration.marker
  | .toggle rule => declared.rules.map (·.enables rule)
  | .modules => declared.modules.map
      (·.map fun (name, declaration) => (name, declaration.definition))

theorem value_configuration (declared : ConfigurationDeclaration) (slot : Slot) :
    declared.configuration.value slot =
      (declared.given? slot).getD (Configuration.preset.value slot) := by
  cases slot with
  | basePackage =>
    simp only [configuration, Configuration.value, given?]
    cases declared.basePackage <;> rfl
  | publishMethods => rfl
  | extensionPoints => rfl
  | marker kind => cases kind <;> rfl
  | toggle rule =>
    simp only [configuration, Configuration.value, given?]
    cases declared.rules <;> rfl
  | modules => rfl

theorem isTaken_given? {entries : Toml.Entries} {declared : ConfigurationDeclaration}
    (decoded : ofEntries? entries = some declared) (slot : Slot) :
    Toml.IsTaken (Configuration.preset.value slot) slot.read? (slot.node? entries)
      ((declared.given? slot).getD (Configuration.preset.value slot)) := by
  simp only [ofEntries?, bind, pure, Option.bind_eq_some_iff, Option.some.injEq] at decoded
  obtain ⟨basePackage, atBasePackage, publishMethods, atPublishMethods, extensionPoints,
    atExtensionPoints, markers, atMarkers, rules, atRules, modules, atModules, rfl⟩ := decoded
  cases slot with
  | basePackage => exact Toml.isTaken_map (Toml.mapM_of_optional atBasePackage) some none
  | publishMethods => exact Toml.isTaken_map (Toml.mapM_of_optional atPublishMethods) _ _
  | extensionPoints => exact ⟨extensionPoints, Toml.mapM_of_optional atExtensionPoints, rfl⟩
  | marker kind =>
    have atKind := Toml.mapM_bind (Toml.mapM_of_optional atMarkers)
      fun _ _ read => MarkersDeclaration.ofNode?_kind read kind
    exact Toml.isTaken_map atKind MarkerDeclaration.marker _
  | toggle rule =>
    -- A table of rules without the toggle and a file without the table agree on the preset.
    have preset : Configuration.preset.value (.toggle rule) = true := by cases rule <;> rfl
    rw [preset]
    exact Toml.isTaken_bind (Toml.mapM_of_optional atRules)
      fun _ _ read => RuleSet.ofNode?_rule read rule
  | modules => exact Toml.isTaken_map (Toml.mapM_of_optional atModules) _ _

end ConfigurationDeclaration

/-- The marker has the names that a table lists for it and no predicate. -/
def Marker.IsListedIn (marker : Marker) (node : Node) : Prop :=
  marker.predicates = [] ∧ ∀ part : MarkerPart, ∃ names,
    Toml.IsTaken [] Node.asTexts? (node.field? (MarkerPart.all.map MarkerPart.key) part.key) names ∧
      part.names marker = .ofList names

/-- The definition has what a table gives for a module, which is not a base package. -/
structure ModuleDefinition.IsGivenIn (definition : ModuleDefinition) (node : Node) : Prop where
  basePackage : definition.basePackage = ""
  displayName : (node.field? ["display_name", "allowed_dependencies"] "display_name").mapM
    Node.asText? = some definition.displayName
  allowedDependencies : (node.field? ["display_name", "allowed_dependencies"]
    "allowed_dependencies").mapM Node.asTexts? = some definition.allowedDependencies

theorem ModuleDeclaration.isGivenIn_definition {node : Node} {declared : ModuleDeclaration}
    (read : ModuleDeclaration.ofNode? node = some declared) :
    declared.definition.IsGivenIn node := by
  simp only [ModuleDeclaration.ofNode?, bind, pure, Option.bind_eq_some_iff,
    Option.some.injEq] at read
  obtain ⟨fields, opened, displayName, atDisplayName, allowed, atAllowed, rfl⟩ := read
  refine ⟨rfl, ?_, ?_⟩
  · rw [Node.field?_eq opened]
    exact Toml.mapM_of_optional atDisplayName
  · rw [Node.field?_eq opened]
    exact Toml.mapM_of_optional atAllowed

namespace Slot

variable {node : Node}

theorem isListedIn_of_read? {kind : MarkerKind} {marker : Marker}
    (read : (Slot.marker kind).read? node = some marker) : marker.IsListedIn node := by
  obtain ⟨declared, readAs, rfl⟩ := Option.map_eq_some_iff.mp read
  refine ⟨rfl, fun part => ⟨part.declared declared, ?_, ?_⟩⟩
  · exact MarkerDeclaration.ofNode?_part readAs part
  · cases part <;> rfl

theorem areGivenIn_of_read? {definitions : List (String × ModuleDefinition)}
    (read : Slot.modules.read? node = some definitions) :
    ∃ origin tables, node = .table origin tables ∧
      List.Forall₂ (fun table named => table.1 = named.1 ∧ named.2.IsGivenIn table.2)
        tables definitions := by
  obtain ⟨modules, readAs, rfl⟩ := Option.map_eq_some_iff.mp read
  obtain ⟨origin, tables, rfl, all⟩ := Toml.forall₂_of_asTableOf? readAs
  refine ⟨origin, tables, rfl, List.forall₂_map_right_iff.mpr (all.imp ?_)⟩
  rintro ⟨key, inner⟩ ⟨name, declared⟩ ⟨same, innerRead⟩
  exact ⟨same, ModuleDeclaration.isGivenIn_definition innerRead⟩

end Slot

namespace Configuration

/-- Every slot has what the file gives for it, or else its preset. -/
structure IsTakenFrom (configuration : Configuration) (entries : Toml.Entries) : Prop where
  slots : ∀ slot : Slot, Toml.IsTaken (preset.value slot) slot.read? (slot.node? entries)
    (configuration.value slot)
  /-- Nothing of a preset stays in a marker that is given. -/
  markers : ∀ kind node, (Slot.marker kind).node? entries = some node →
    Marker.IsListedIn (configuration.value (.marker kind)) node
  modules : ∀ node, Slot.modules.node? entries = some node →
    ∃ origin tables, node = .table origin tables ∧
      List.Forall₂ (fun table named => table.1 = named.1 ∧ named.2.IsGivenIn table.2)
        tables configuration.settings.overrides

theorem isTakenFrom_configuration {entries : Toml.Entries} {declared : ConfigurationDeclaration}
    (decoded : ConfigurationDeclaration.ofEntries? entries = some declared) :
    declared.configuration.IsTakenFrom entries := by
  have slots (slot : Slot) : Toml.IsTaken (preset.value slot) slot.read? (slot.node? entries)
      (declared.configuration.value slot) := by
    rw [declared.value_configuration]
    exact ConfigurationDeclaration.isTaken_given? decoded slot
  have read {slot : Slot} {node : Node} (given : slot.node? entries = some node) :
      slot.read? node = some (declared.configuration.value slot) := by
    have taken := slots slot
    rw [given] at taken
    exact taken.read_eq
  exact {
    slots
    markers := fun _ _ given => Slot.isListedIn_of_read? (read given)
    modules := fun _ given => Slot.areGivenIn_of_read? (read given) }

theorem exists_of_ofText? {text : String} {configuration : Configuration}
    (read : ofText? text = some configuration) :
    ∃ entries declared, Toml.read? text = some entries ∧
      ConfigurationDeclaration.ofEntries? entries = some declared ∧
      configuration = declared.configuration := by
  obtain ⟨declared, decoded, rfl⟩ := Option.map_eq_some_iff.mp read
  obtain ⟨entries, readAs, taken⟩ := Option.bind_eq_some_iff.mp decoded
  exact ⟨entries, declared, readAs, taken, rfl⟩

theorem IsTakenFrom.value_eq {configuration other : Configuration}
    {entries otherEntries : Toml.Entries} (taken : configuration.IsTakenFrom entries)
    (otherTaken : other.IsTakenFrom otherEntries) {slot : Slot}
    (alike : slot.given? entries = slot.given? otherEntries) :
    configuration.value slot = other.value slot :=
  (taken.slots slot).eq (otherTaken.slots slot) alike

/-- A file that can be decoded sets each slot by the key of the slot alone: what is declared
for it stands, wholly, and where nothing is declared the preset stands. Files that give
the same for a slot, or both nothing, have the same value there. -/
theorem keys_set_own_slots {text : String} {declared : ConfigurationDeclaration}
    (decoded : ConfigurationDeclaration.ofText? text = some declared) :
    ∃ entries configuration, Toml.read? text = some entries ∧
      ofText? text = some configuration ∧ configuration.IsTakenFrom entries ∧
      (∀ slot, configuration.value slot = (declared.given? slot).getD (preset.value slot)) ∧
      ∀ other otherEntries otherConfiguration, Toml.read? other = some otherEntries →
        ofText? other = some otherConfiguration →
          ∀ slot : Slot, slot.given? entries = slot.given? otherEntries →
            configuration.value slot = otherConfiguration.value slot := by
  obtain ⟨entries, read, taken⟩ := Option.bind_eq_some_iff.mp decoded
  have takenFrom := isTakenFrom_configuration taken
  refine ⟨entries, declared.configuration, read, by simp [ofText?, decoded], takenFrom,
    declared.value_configuration, ?_⟩
  intro other otherEntries otherConfiguration otherRead otherRuns slot alike
  obtain ⟨found, otherDeclared, foundRead, otherTaken, rfl⟩ := exists_of_ofText? otherRuns
  cases otherRead.symm.trans foundRead
  exact takenFrom.value_eq (isTakenFrom_configuration otherTaken) alike

/-- A file that gives some slots and leaves others. -/
def orderFile : String := String.ofList (lettersOfLines [
  "base_package = \"com.acme\"",
  "[rules]",
  "internal_access = false",
  "[markers.component]",
  "types = [\"javax.sql.DataSource\"]",
  "[modules.order]",
  "allowed_dependencies = [\"inventory\"]"])

def declaredByOrderFile : ConfigurationDeclaration where
  basePackage := some "com.acme"
  markers := some { component := some { types := ["javax.sql.DataSource"] } }
  rules := some { internalAccess := false }
  modules := some [("order", { allowedDependencies := some ["inventory"] })]

theorem declaration_orderFile :
    ConfigurationDeclaration.ofText? orderFile = some declaredByOrderFile := by
  simp only [ConfigurationDeclaration.ofText?, Toml.read?, orderFile, String.toList_ofList,
    lettersOfLines, List.flatMap_cons, List.flatMap_nil]
  simp -index only [String.toList_ofList]
  decide +kernel

theorem slots_of_orderFile :
    ConfigurationDeclaration.ofText? orderFile = some declaredByOrderFile ∧
      ∃ configuration, ofText? orderFile = some configuration ∧
        configuration.value .basePackage = some "com.acme" ∧
        configuration.value .publishMethods = preset.value .publishMethods ∧
        configuration.value (.toggle .cycle) = true ∧
        configuration.value (.toggle .internalAccess) = false ∧
        configuration.value (.marker .component) = { types := .ofList ["javax.sql.DataSource"] } ∧
        configuration.value (.marker .exposed) = preset.value (.marker .exposed) ∧
        configuration.value .modules =
          [("order", { basePackage := "", allowedDependencies := some ["inventory"] })] := by
  obtain ⟨_, configuration, -, read, -, values, -⟩ := keys_set_own_slots declaration_orderFile
  exact ⟨declaration_orderFile, configuration, read, values _, values _, values _, values _,
    values _, values _, values _⟩

end Configuration

end ModuleBoundary
