import ModuleBoundary.Json.Record
import ModuleBoundary.Rules

/-! The JSON form of rules, and of the violations and reports that come of them. A report is read in
the order it is written in, with all repetitions.
-/

set_option autoImplicit false

namespace ModuleBoundary

def Rule.ofJson? (document : Json) : Option Rule := document.asWord?.bind ofWord?

namespace RuleSet

/-- Rules that are not mentioned are applied. -/
def ofJson? (document : Json) : Option RuleSet := do
  let fields ← document.fields? ["cycles", "undeclared_dependencies", "internal_access"]
  return {
    cycles := ← fields.withDefault "cycles" true Json.asBool?
    undeclaredDependencies := ← fields.withDefault "undeclared_dependencies" true Json.asBool?
    internalAccess := ← fields.withDefault "internal_access" true Json.asBool? }

end RuleSet

namespace Violation

def toJson (violation : Violation) : Json :=
  .object [
    ("rule", .text violation.rule.word),
    ("modules", .texts violation.modules),
    ("source", .optional .text violation.source),
    ("target", .optional .text violation.target),
    ("message", .text violation.message)]

def ofJson? (document : Json) : Option Violation := do
  let fields ← document.fields? ["rule", "modules", "source", "target", "message"]
  return {
    rule := ← fields.required "rule" Rule.ofJson?
    modules := ← fields.required "modules" Json.asTexts?
    source := ← fields.nullable "source" Json.asText?
    target := ← fields.nullable "target" Json.asText?
    message := ← fields.required "message" Json.asText? }

end Violation

namespace Report

def toJson (report : Report) : Json := .list (report.entries.map Violation.toJson)

def ofJson? (document : Json) : Option Report :=
  (document.asListOf? Violation.ofJson?).map Report.mk

end Report

end ModuleBoundary
