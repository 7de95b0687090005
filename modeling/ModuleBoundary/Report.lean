import ModuleBoundary.Violation

/-! Reports: the violations found in one verification. An empty report is compliance. -/

set_option autoImplicit false

namespace ModuleBoundary

/-- Drop every item that equals the one before it. -/
def mergeNeighbours {α : Type} [DecidableEq α] : List α → List α
  | first :: second :: rest =>
    if first = second then mergeNeighbours (second :: rest)
    else first :: mergeNeighbours (second :: rest)
  | short => short

structure Report where
  entries : List Violation
  deriving DecidableEq

namespace Report

def empty : Report := ⟨[]⟩

/-- The report of some findings, in report order and without repetitions side by side. -/
def ofFindings (findings : List Violation) : Report :=
  ⟨mergeNeighbours (findings.mergeSort fun a b => (a.order b).isLE)⟩

def isCompliant (report : Report) : Bool := report.entries.isEmpty

def size (report : Report) : Nat := report.entries.length

def ofRule (report : Report) (rule : Rule) : List Violation :=
  report.entries.filter (·.rule = rule)

def text (report : Report) : String :=
  "\n".intercalate (report.entries.map fun violation => "- " ++ violation.text)

end Report

end ModuleBoundary
