import ModuleBoundary.Analysis.Json
import ModuleBoundary.Proofs.Json.Record
import ModuleBoundary.Proofs.Json.RoundTrip
import ModuleBoundary.Proofs.Report

/-! Analyses read back from their JSON reports.

A report lists the arrows of the dependency graph by name, and all else as the analysis has it.
Nothing is lost or merged: arrows that join the same names stay apart, and so do violations that
repeat.
-/

set_option autoImplicit false

namespace ModuleBoundary

open Json

/-! Parts of a report. -/

theorem EventSummary.ofJson?_toJson (summary : EventSummary) :
    ofJson? summary.toJson = some summary := by
  have fields : summary.toJson.fields? ["event_type", "sources"] = _ :=
    fields?_object rfl (by decide)
  unfold ofJson?
  rw [fields]
  simp [Fields.required, List.lookup_cons, asText?]

theorem ModuleSummary.ofJson?_toJson (summary : ModuleSummary) :
    ofJson? summary.toJson = some summary := by
  have fields : summary.toJson.fields? fieldNames = _ := fields?_object rfl (by decide)
  have events : (Json.list (summary.publishedEvents.map EventSummary.toJson)).asListOf?
      EventSummary.ofJson? = some summary.publishedEvents :=
    asListOf?_map EventSummary.ofJson?_toJson _
  -- Once the fields are found, lists are all there is left to read.
  have lists : ofJson? summary.toJson = (do
      let exposedTypes ← (Json.texts summary.exposedTypes).asTexts?
      let aggregateRoots ← (Json.texts summary.aggregateRoots).asTexts?
      let publishedEvents ← (Json.list (summary.publishedEvents.map EventSummary.toJson)).asListOf?
        EventSummary.ofJson?
      let beans ← (Json.texts summary.beans).asTexts?
      let dependencies ← (Json.texts summary.dependencies).asTexts?
      return { summary with exposedTypes, aggregateRoots, publishedEvents, beans, dependencies }) := by
    unfold ofJson?
    rw [fields]
    rfl
  simp only [lists, asTexts?_texts, events]
  rfl

theorem Arrow.ofJson?_toJson (arrow : Arrow) : ofJson? arrow.toJson = some arrow := by
  have fields : arrow.toJson.fields? ["from", "to", "references"] = _ :=
    fields?_object rfl (by decide)
  unfold ofJson?
  rw [fields]
  simp [Fields.required, List.lookup_cons, asText?, asNat?]

theorem Rule.ofJson?_word (rule : Rule) : ofJson? (.text rule.word) = some rule := by
  cases rule <;> rfl

theorem Violation.ofJson?_toJson (violation : Violation) :
    ofJson? violation.toJson = some violation := by
  have fields : violation.toJson.fields? ["rule", "modules", "source", "target", "message"] = _ :=
    fields?_object rfl (by decide)
  unfold ofJson?
  rw [fields, Option.bind_eq_bind, Option.bind_some,
    Fields.nullable_eq restores_text (by rfl), Fields.nullable_eq restores_text (by rfl)]
  simp [Fields.required, List.lookup_cons, asText?, Rule.ofJson?_word]

theorem Report.ofJson?_toJson (report : Report) : ofJson? report.toJson = some report := by
  have entries : report.toJson.asListOf? Violation.ofJson? = some report.entries :=
    asListOf?_map Violation.ofJson?_toJson _
  rw [ofJson?, entries, Option.map_some]

/-! The whole. -/

/-- What a JSON report tells of an analysis. -/
structure Analysis.Told where
  projectName : String
  basePackage : String
  compliant : Bool
  modules : List ModuleSummary
  dependencies : List Arrow
  violations : Report

namespace Analysis

namespace Told

def fieldNames : List String :=
  ["project_name", "base_package", "compliant", "modules", "dependencies", "violations"]

def ofJson? (document : Json) : Option Told := do
  let fields ← document.fields? fieldNames
  return {
    projectName := ← fields.required "project_name" Json.asText?
    basePackage := ← fields.required "base_package" Json.asText?
    compliant := ← fields.required "compliant" Json.asBool?
    modules := ← fields.required "modules" (Json.asListOf? ModuleSummary.ofJson?)
    dependencies := ← fields.required "dependencies" (Json.asListOf? Arrow.ofJson?)
    violations := ← fields.required "violations" Report.ofJson? }

end Told

/-- What is to be told of an analysis. -/
def told (analysis : Analysis) : Told where
  projectName := analysis.projectName
  basePackage := analysis.basePackage
  compliant := analysis.violations.isCompliant
  modules := analysis.modules
  dependencies := analysis.sortedArrows
  violations := analysis.violations

theorem ofJson?_toJson (analysis : Analysis) : Told.ofJson? analysis.toJson = some analysis.told := by
  have fields : analysis.toJson.fields? Told.fieldNames = _ := fields?_object rfl (by decide)
  have modules : (Json.list (analysis.modules.map ModuleSummary.toJson)).asListOf?
      ModuleSummary.ofJson? = some analysis.modules :=
    asListOf?_map ModuleSummary.ofJson?_toJson _
  have arrows : (Json.list (analysis.sortedArrows.map Arrow.toJson)).asListOf? Arrow.ofJson? =
      some analysis.sortedArrows := asListOf?_map Arrow.ofJson?_toJson _
  unfold Told.ofJson?
  rw [fields]
  simp [Fields.required, List.lookup_cons, asText?, asBool?, modules, arrows, Report.ofJson?_toJson, told]

/-- A report ends with a line break, which no reader minds. -/
theorem ofString?_jsonText (analysis : Analysis) :
    ofString? analysis.jsonText = some analysis.toJson :=
  ofString?_pretty_append analysis.toJson "\n" (by simp [isBlank])

end Analysis

instance : Std.TransCmp Arrow.order := inferInstanceAs (Std.TransCmp (compareLex _ _))

/-- Whether an arrow may stand before another in a report. The source decides, then the target. -/
def Arrow.MayPrecede (first second : Arrow) : Prop :=
  first.source < second.source ∨ first.source = second.source ∧ first.target ≤ second.target

namespace Analysis

/-- A JSON report is one document and tells the analysis as it is. The dependencies are the
arrows of the dependency graph, each as often as it occurs, ordered by their names; the report is
called compliant if there are no violations. -/
theorem report_reads_back (analysis : Analysis) :
    ∃ document told, ofString? analysis.jsonText = some document ∧
      Told.ofJson? document = some told ∧
      told.projectName = analysis.projectName ∧ told.basePackage = analysis.basePackage ∧
      told.modules = analysis.modules ∧ told.violations = analysis.violations ∧
      (told.compliant = true ↔ analysis.violations.entries = []) ∧
      told.dependencies.Perm analysis.dependencyGraph.arrows ∧
      told.dependencies.Pairwise Arrow.MayPrecede := by
  refine ⟨analysis.toJson, analysis.told, analysis.ofString?_jsonText, analysis.ofJson?_toJson,
    rfl, rfl, rfl, rfl, ?_, ?_, ?_⟩
  · exact List.isEmpty_iff
  · exact List.mergeSort_perm ..
  · exact mergeSort_pairwise.imp isLE_compareLex.mp

end Analysis

end ModuleBoundary
