import ModuleBoundary.Json.Printer
import ModuleBoundary.ModuleDefinition.Json
import ModuleBoundary.Rules.Json

/-! Analyses as JSON documents, one field to a line. Dependencies are listed in the
order of their names.
-/

set_option autoImplicit false

namespace ModuleBoundary

namespace Arrow

def order : Arrow → Arrow → Ordering := compareLex (compareOn source) (compareOn target)

def toJson (arrow : Arrow) : Json :=
  .object [
    ("from", .text arrow.source),
    ("to", .text arrow.target),
    ("references", .nat arrow.weight)]

def ofJson? (document : Json) : Option Arrow := do
  let fields ← document.fields? ["from", "to", "references"]
  return {
    source := ← fields.required "from" Json.asText?
    target := ← fields.required "to" Json.asText?
    weight := ← fields.required "references" Json.asNat? }

end Arrow

namespace Analysis

def sortedArrows (analysis : Analysis) : List Arrow :=
  analysis.dependencyGraph.arrows.mergeSort fun first second => (first.order second).isLE

def toJson (analysis : Analysis) : Json :=
  .object [
    ("project_name", .text analysis.projectName),
    ("base_package", .text analysis.basePackage),
    ("compliant", .bool analysis.violations.isCompliant),
    ("modules", .list (analysis.modules.map ModuleSummary.toJson)),
    ("dependencies", .list (analysis.sortedArrows.map Arrow.toJson)),
    ("violations", analysis.violations.toJson)]

def jsonText (analysis : Analysis) : String := analysis.toJson.pretty ++ "\n"

end Analysis

end ModuleBoundary
