import ModuleBoundary.Analysis

/-! Analyses as Markdown documents, written line by line: the modules, then either that
all is well or the violations under a heading for each rule that has any.
-/

set_option autoImplicit false

namespace ModuleBoundary

def code (name : String) : String := "`" ++ name ++ "`"

def codeList (names : List String) : String := ", ".intercalate (names.map code)

def Rule.heading : Rule → String
  | .cycle => "### 🔴 Dependency Cycles"
  | .undeclaredDependency => "### 🟡 Undeclared Dependencies"
  | .internalAccess => "### 🟡 Internal Access"

namespace ModuleSummary

def headLine (summary : ModuleSummary) : String :=
  s!"- **{summary.displayName}** {code summary.basePackage} ({summary.classCount} classes" ++
    if summary.dependencies.isEmpty then ", no dependencies)"
    else s!") → depends on: [{codeList summary.dependencies}]"

/-- A labelled list, which is left out when it is empty. -/
def listLines (label : String) (names : List String) : List String :=
  if names.isEmpty then [] else [s!"  - {label}: {codeList names}"]

def detailLines (summary : ModuleSummary) : List String :=
  listLines "Exposes" summary.exposedTypes ++
    listLines "Aggregate roots" summary.aggregateRoots ++
    (summary.publishedEvents.map fun published =>
      s!"  - Publishes {code published.eventType} from {codeList published.sources}") ++
    listLines "Beans" summary.beans

end ModuleSummary

/-- A bullet, with the classes below it where both are known. -/
def Violation.lines (violation : Violation) : List String :=
  s!"- {violation.message}" ::
    match violation.source, violation.target with
    | some source, some target => [s!"  → {code source} → {code target}"]
    | _, _ => []

def Report.ruleLines (report : Report) (rule : Rule) : List String :=
  match report.ofRule rule with
  | [] => []
  | found => [rule.heading, ""] ++ found.flatMap Violation.lines ++ [""]

def Report.lines (report : Report) : List String :=
  if report.isCompliant then
    ["", "## No Violations Found", "", "All modules comply with the architecture rules."]
  else
    ["", s!"## Violations Found ({report.size})", ""] ++ Rule.all.flatMap report.ruleLines

namespace Analysis

def markdownLines (analysis : Analysis) (detailed : Bool) : List String :=
  [s!"# Module Verification: {analysis.projectName} ({code analysis.basePackage})", "",
    "## Modules", ""] ++
  (analysis.modules.flatMap fun summary =>
    summary.headLine :: if detailed then summary.detailLines else []) ++
  analysis.violations.lines

/-- Every line ends with a line break. -/
def markdownText (analysis : Analysis) (detailed : Bool) : String :=
  String.join ((analysis.markdownLines detailed).map (· ++ "\n"))

end Analysis

end ModuleBoundary
