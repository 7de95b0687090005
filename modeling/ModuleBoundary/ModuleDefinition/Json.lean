import ModuleBoundary.Analysis
import ModuleBoundary.Json.Record

/-! The JSON form of what a module is declared to be, and of what is told of it. -/

set_option autoImplicit false

namespace ModuleBoundary

namespace ModuleDefinition

def toJson (definition : ModuleDefinition) : Json :=
  .object [
    ("base_package", .text definition.basePackage),
    ("display_name", .optional .text definition.displayName),
    ("allowed_dependencies", .optional .texts definition.allowedDependencies)]

def ofJson? (document : Json) : Option ModuleDefinition := do
  let fields ← document.fields? ["base_package", "display_name", "allowed_dependencies"]
  return {
    basePackage := ← fields.required "base_package" Json.asText?
    displayName := ← fields.optional "display_name" Json.asText?
    allowedDependencies := ← fields.optional "allowed_dependencies" Json.asTexts? }

end ModuleDefinition

namespace EventSummary

def toJson (summary : EventSummary) : Json :=
  .object [("event_type", .text summary.eventType), ("sources", .texts summary.sources)]

def ofJson? (document : Json) : Option EventSummary := do
  let fields ← document.fields? ["event_type", "sources"]
  return {
    eventType := ← fields.required "event_type" Json.asText?
    sources := ← fields.required "sources" Json.asTexts? }

end EventSummary

namespace ModuleSummary

def toJson (summary : ModuleSummary) : Json :=
  .object [
    ("name", .text summary.name),
    ("display_name", .text summary.displayName),
    ("base_package", .text summary.basePackage),
    ("class_count", .nat summary.classCount),
    ("exposed_types", .texts summary.exposedTypes),
    ("aggregate_roots", .texts summary.aggregateRoots),
    ("published_events", .list (summary.publishedEvents.map EventSummary.toJson)),
    ("beans", .texts summary.beans),
    ("dependencies", .texts summary.dependencies)]

def fieldNames : List String :=
  ["name", "display_name", "base_package", "class_count", "exposed_types", "aggregate_roots",
    "published_events", "beans", "dependencies"]

def ofJson? (document : Json) : Option ModuleSummary := do
  let fields ← document.fields? fieldNames
  return {
    name := ← fields.required "name" Json.asText?
    displayName := ← fields.required "display_name" Json.asText?
    basePackage := ← fields.required "base_package" Json.asText?
    classCount := ← fields.required "class_count" Json.asNat?
    exposedTypes := ← fields.required "exposed_types" Json.asTexts?
    aggregateRoots := ← fields.required "aggregate_roots" Json.asTexts?
    publishedEvents := ← fields.required "published_events" (Json.asListOf? EventSummary.ofJson?)
    beans := ← fields.required "beans" Json.asTexts?
    dependencies := ← fields.required "dependencies" Json.asTexts? }

end ModuleSummary

end ModuleBoundary
