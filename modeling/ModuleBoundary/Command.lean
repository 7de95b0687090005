import ModuleBoundary.Analysis.Json
import ModuleBoundary.Analysis.Markdown
import ModuleBoundary.Configuration.Template
import ModuleBoundary.Terminal
import ModuleBoundary.Verification

/-! The commands: verify class metadata, and write a first configuration. -/

set_option autoImplicit false

namespace ModuleBoundary

inductive ReportFormat where
  | markdown
  | json
  deriving DecidableEq

def Analysis.render (analysis : Analysis) : ReportFormat → String
  | .markdown => analysis.markdownText true
  | .json => analysis.jsonText

/-- The report goes to the output channel unless a file is given for it. -/
structure VerifyCommand where
  request : VerificationRequest
  format : ReportFormat := .markdown
  reportFile : Option String := none
  deriving DecidableEq

inductive Command where
  | verify (command : VerifyCommand)
  | init (directory : String)
  deriving DecidableEq

/-- How a command ended: without a violation, with one, or not as asked. -/
inductive ExitStatus where
  | compliant
  | violations
  | failure
  deriving DecidableEq

def ExitStatus.code : ExitStatus → Nat
  | .compliant => 0
  | .violations => 1
  | .failure => 2

structure Outcome where
  status : ExitStatus
  transcript : Transcript
  deriving DecidableEq

namespace Command

variable {m : Type → Type} [Monad m]

def failed (color : Bool) (message : String) : Outcome :=
  ⟨.failure, Terminal.error color message⟩

def summary (color : Bool) (analysis : Analysis) (reportFile : String) : Transcript :=
  Terminal.heading color "Summary" ++
  { output := Terminal.metric color "Modules" (toString analysis.modules.length) ++ "\n" } ++
  { output := Terminal.metric color "Violations" (toString analysis.violations.size) ++ "\n" } ++
  Terminal.status color s!"Report written to {Terminal.path color reportFile}"

/-- A warning for each of the first three violations. -/
def warnings (color : Bool) (report : Report) : Transcript :=
  (report.entries.take 3).foldl
    (fun written violation => written ++ Terminal.warning color
      (Terminal.rule color violation.rule.word ++ " " ++ violation.message))
    {}

/-- The outcome once the report is out. -/
def finished (color : Bool) (report : Report) (written : Transcript) : Outcome :=
  if report.isCompliant then ⟨.compliant, written⟩
  else ⟨.violations, written ++ warnings color report⟩

def runVerify (files : FileSystem m) (color : Bool) (command : VerifyCommand) : m Outcome := do
  match ← ModuleBoundary.verify files command.request with
  | .error e => return failed color e.message
  | .ok analysis =>
    let report := analysis.render command.format
    match command.reportFile with
    | none => return finished color analysis.violations { output := report }
    | some path =>
      match ← files.write path report with
      | .error e => return failed color s!"Failed to write output: {e.message}"
      | .ok () => return finished color analysis.violations (summary color analysis path)

/-- An existing configuration is left as it is. -/
def runInit (files : FileSystem m) (color : Bool) (directory : String) : m Outcome := do
  let path := Path.child directory Configuration.fileName
  if ← files.exists? path then
    return failed color s!"{Configuration.fileName} already exists at {Terminal.path color path}"
  match ← files.write path Configuration.template with
  | .error e => return failed color s!"Failed to write config file: {e.message}"
  | .ok () =>
    return ⟨.compliant,
      Terminal.success color s!"Created {Configuration.fileName} at {Terminal.path color path}" ++
      Terminal.hint color "Set base_package and run `modbound verify <classes.json>`"⟩

def run (files : FileSystem m) (color : Bool) : Command → m Outcome
  | .verify command => runVerify files color command
  | .init directory => runInit files color directory

end Command

end ModuleBoundary
