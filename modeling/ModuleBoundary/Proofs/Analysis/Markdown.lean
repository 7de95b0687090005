import Mathlib.Data.List.Forall2
import ModuleBoundary.Analysis.Markdown
import ModuleBoundary.Proofs.Report.Grouping

/-! What a Markdown document tells of an analysis.

The lines that tell a report are described first, and then what can be gathered from any such lines:
the kinds of lines have different beginnings, whatever the names in them, so all lines of one kind can
be picked out.
-/

set_option autoImplicit false

namespace ModuleBoundary

/-- A violation is told by a bullet with its message and, where it has a source and a target, a line
below with both. -/
inductive Violation.IsToldBy : Violation → List String → Prop where
  | message {violation : Violation} (incomplete : violation.source = none ∨ violation.target = none) :
      IsToldBy violation ["- " ++ violation.message]
  | classes {violation : Violation} {source target : String} (known : violation.source = some source)
      (knownToo : violation.target = some target) :
      IsToldBy violation
        ["- " ++ violation.message, "  → " ++ code source ++ " → " ++ code target]

/-- A rule is told by its heading and what tells each of the violations below it. -/
def Rule.IsToldBy (rule : Rule) (found : List Violation) (lines : List String) : Prop :=
  ∃ told, List.Forall₂ Violation.IsToldBy found told ∧
    lines = rule.heading :: "" :: (told.flatten ++ [""])

/-- How the heading above a report reads. -/
def Report.verdict (report : Report) : String :=
  if report.entries = [] then "## No Violations Found"
  else s!"## Violations Found ({report.entries.length})"

/-- A report is told by its verdict and what tells each of the rules broken below it, or by a sentence
if there are none. -/
def Report.IsToldBy (report : Report) (lines : List String) : Prop :=
  ∃ told, lines = "" :: report.verdict :: "" :: told ∧
    (report.entries = [] ∧ told = ["All modules comply with the architecture rules."] ∨
      report.entries ≠ [] ∧ ∃ rules, told = rules.flatten ∧
        List.Forall₂ (fun rule => rule.IsToldBy (report.ofRule rule)) report.brokenRules rules)

theorem Violation.isToldBy_lines (violation : Violation) : violation.IsToldBy violation.lines := by
  unfold lines
  split
  · next known knownToo => exact .classes known knownToo
  · next unknown =>
    refine .message ?_
    cases known : violation.source with
    | none => exact .inl rfl
    | some source =>
      cases knownToo : violation.target with
      | none => exact .inr rfl
      | some target => exact absurd knownToo (unknown source target known)

namespace Report

theorem ruleLines_eq {report : Report} {rule : Rule} (broken : report.ofRule rule ≠ []) :
    report.ruleLines rule =
      rule.heading :: "" :: ((report.ofRule rule).flatMap Violation.lines ++ [""]) := by
  unfold ruleLines
  split
  · next none => exact absurd none broken
  · rfl

theorem isToldBy_ruleLines {report : Report} {rule : Rule} (broken : rule ∈ report.brokenRules) :
    rule.IsToldBy (report.ofRule rule) (report.ruleLines rule) := by
  have some : report.ofRule rule ≠ [] := by
    simpa [ofRule_eq_nil_iff] using (List.mem_filter.mp broken).2
  refine ⟨(report.ofRule rule).map Violation.lines, ?_, ?_⟩
  · rw [List.forall₂_map_right_iff, List.forall₂_same]
    intro violation _
    exact violation.isToldBy_lines
  · rw [ruleLines_eq some, List.flatMap_def]

theorem isToldBy_lines (report : Report) : report.IsToldBy report.lines := by
  unfold lines isCompliant
  split
  · next empty =>
    have none := List.isEmpty_iff.mp empty
    exact ⟨_, by rw [verdict, if_pos none], .inl ⟨none, rfl⟩⟩
  · next filled =>
    have some : report.entries ≠ [] := fun none => filled (List.isEmpty_iff.mpr none)
    refine ⟨Rule.all.flatMap report.ruleLines, ?_, .inr ⟨some, report.brokenRules.map report.ruleLines, ?_, ?_⟩⟩
    · rw [verdict, if_neg some]
      rfl
    · rw [← List.flatMap_def, flatMap_brokenRules]
      intro rule none
      rw [ruleLines, none]
    · rw [List.forall₂_map_right_iff, List.forall₂_same]
      intro rule broken
      exact isToldBy_ruleLines broken

end Report

namespace Text

/-- Whether a line begins with a mark. -/
def beginsWith (mark line : String) : Bool := mark.toList.isPrefixOf line.toList

/-- Marks that no line can both begin with. -/
def Apart (mark other : String) : Prop := beginsWith mark other = false ∧ beginsWith other mark = false

instance (mark other : String) : Decidable (Apart mark other) := inferInstanceAs (Decidable (_ ∧ _))

theorem beginsWith_iff {mark line : String} : beginsWith mark line = true ↔ mark.toList <+: line.toList :=
  List.isPrefixOf_iff_prefix

theorem Apart.beginsWith_eq_false {mark other line : String} (apart : Apart mark other)
    (begins : beginsWith mark line = true) : beginsWith other line = false := by
  obtain ⟨before, after⟩ := apart
  rw [← Bool.not_eq_true, beginsWith_iff] at before after ⊢
  intro both
  rcases List.prefix_or_prefix_of_prefix (beginsWith_iff.mp begins) both with first | first
  · exact before first
  · exact after first

/-- What is chosen from all lines is what is chosen from the lines of each item. -/
theorem filter_flatten {α : Type} {tells : α → List String → Prop} {items : List α}
    {told : List (List String)} {chosen : String → Bool} {kept : α → List String}
    (all : List.Forall₂ tells items told)
    (each : ∀ item lines, tells item lines → lines.filter chosen = kept item) :
    told.flatten.filter chosen = items.flatMap kept := by
  induction all with
  | nil => rfl
  | cons tells _ ih => rw [List.flatten_cons, List.filter_append, each _ _ tells, ih, List.flatMap_cons]

end Text

open Text (beginsWith Apart)

theorem Rule.beginsWith_heading (rule : Rule) : beginsWith "### " rule.heading = true := by
  cases rule <;> decide

namespace Violation.IsToldBy

variable {violation : Violation} {lines : List String}

theorem filter_bullets (told : violation.IsToldBy lines) :
    lines.filter (beginsWith "- ") = ["- " ++ violation.message] := by
  cases told <;> simp [beginsWith]

theorem filter_eq_nil {mark : String} (bullet : Apart "- " mark) (arrow : Apart "  → " mark)
    (told : violation.IsToldBy lines) : lines.filter (beginsWith mark) = [] := by
  rw [List.filter_eq_nil_iff]
  intro line member
  rw [Bool.not_eq_true]
  cases told with
  | message _ =>
    rw [List.mem_singleton.mp member]
    exact bullet.beginsWith_eq_false (by simp [beginsWith])
  | classes _ _ =>
    simp only [List.mem_cons, List.not_mem_nil, or_false] at member
    rcases member with rfl | rfl
    · exact bullet.beginsWith_eq_false (by simp [beginsWith])
    · exact arrow.beginsWith_eq_false (by simp [beginsWith])

end Violation.IsToldBy

/-- What begins with another mark than headings do is gathered from the violations. -/
theorem Rule.IsToldBy.filter_lines {rule : Rule} {found : List Violation} {lines : List String}
    {mark : String} {kept : Violation → List String} (told : rule.IsToldBy found lines)
    (filled : beginsWith mark "" = false) (unheaded : Apart "### " mark)
    (each : ∀ (violation : Violation) (lines : List String), violation.IsToldBy lines →
      lines.filter (beginsWith mark) = kept violation) :
    lines.filter (beginsWith mark) = found.flatMap kept := by
  obtain ⟨told, all, rfl⟩ := told
  have heading := unheaded.beginsWith_eq_false rule.beginsWith_heading
  simp only [List.filter_cons, List.filter_append, List.filter_nil, heading, filled, Bool.false_eq_true,
    if_false, List.append_nil]
  exact Text.filter_flatten all each

namespace Report

theorem verdict_eq_iff {report : Report} :
    report.verdict = "## No Violations Found" ↔ report.entries = [] := by
  unfold verdict
  split
  · next none => simp [none]
  · next some =>
    refine iff_of_false (fun same => ?_) some
    simpa [toString] using congrArg String.toList same

theorem beginsWith_verdict (report : Report) : beginsWith "## " report.verdict = true := by
  unfold verdict
  split <;> simp [beginsWith, toString]

variable {report : Report} {lines : List String}

/-- What begins with another mark than the headings of rules do is the verdict or is gathered from the
violations. -/
theorem IsToldBy.filter_lines {mark : String} {kept : Violation → List String}
    (told : report.IsToldBy lines) (filled : beginsWith mark "" = false)
    (unsaid : beginsWith mark "All modules comply with the architecture rules." = false)
    (unheaded : Apart "### " mark)
    (each : ∀ (violation : Violation) (lines : List String), violation.IsToldBy lines →
      lines.filter (beginsWith mark) = kept violation) :
    lines.filter (beginsWith mark) =
      [report.verdict].filter (beginsWith mark) ++ report.grouped.flatMap kept := by
  obtain ⟨told, rfl, below⟩ := told
  have gathered : told.filter (beginsWith mark) = report.grouped.flatMap kept := by
    rcases below with ⟨none, rfl⟩ | ⟨-, rules, rfl, all⟩
    · have nothing := report.grouped_perm
      rw [none] at nothing
      rw [nothing.eq_nil]
      simp [unsaid]
    · rw [grouped, List.flatMap_assoc]
      exact Text.filter_flatten all fun rule lines told => told.filter_lines filled unheaded each
  rw [List.filter_cons_of_neg (by simp [filled]), List.filter_cons, List.filter_cons_of_neg (by simp [filled]),
    gathered, List.filter_cons, List.filter_nil]
  split <;> rfl

theorem IsToldBy.filter_verdict (told : report.IsToldBy lines) :
    lines.filter (beginsWith "## ") = [report.verdict] := by
  rw [told.filter_lines (by decide) (by decide) (by decide) fun _ _ told =>
    told.filter_eq_nil (by decide) (by decide)]
  simp [report.beginsWith_verdict]

theorem IsToldBy.filter_bullets (told : report.IsToldBy lines) :
    lines.filter (beginsWith "- ") = report.grouped.map ("- " ++ ·.message) := by
  have plain : Apart "## " "- " := by decide
  rw [told.filter_lines (by decide) (by decide) (by decide) fun _ _ told => told.filter_bullets,
    List.map_eq_flatMap]
  simp [plain.beginsWith_eq_false report.beginsWith_verdict]

theorem IsToldBy.filter_details (told : report.IsToldBy lines) :
    lines.filter (beginsWith "  - ") = [] := by
  have plain : Apart "## " "  - " := by decide
  rw [told.filter_lines (by decide) (by decide) (by decide) fun _ _ told =>
    told.filter_eq_nil (by decide) (by decide)]
  simp [plain.beginsWith_eq_false report.beginsWith_verdict]

end Report

namespace ModuleSummary

variable {label line : String} {names : List String}

theorem beginsWith_headLine (summary : ModuleSummary) : beginsWith "- " summary.headLine = true := by
  simp [headLine, beginsWith, toString]

theorem beginsWith_listLines (listed : line ∈ listLines label names) :
    beginsWith "  - " line = true := by
  unfold listLines at listed
  split at listed
  · cases listed
  · rw [List.mem_singleton.mp listed]
    simp [beginsWith, toString]

theorem beginsWith_detailLines {summary : ModuleSummary} (listed : line ∈ summary.detailLines) :
    beginsWith "  - " line = true := by
  simp only [detailLines, List.mem_append, List.mem_map] at listed
  rcases listed with ((listed | listed) | ⟨published, _, rfl⟩) | listed
  · exact beginsWith_listLines listed
  · exact beginsWith_listLines listed
  · simp [beginsWith, toString]
  · exact beginsWith_listLines listed

theorem filter_detailLines (summary : ModuleSummary) :
    summary.detailLines.filter (beginsWith "  - ") = summary.detailLines :=
  List.filter_eq_self.mpr fun _ => beginsWith_detailLines

theorem filter_detailLines_eq_nil {mark : String} (apart : Apart "  - " mark) (summary : ModuleSummary) :
    summary.detailLines.filter (beginsWith mark) = [] := by
  rw [List.filter_eq_nil_iff]
  intro line listed
  simp [apart.beginsWith_eq_false (beginsWith_detailLines listed)]

/-- What is written of a module, with or without its details. -/
def lines (summary : ModuleSummary) (detailed : Bool) : List String :=
  summary.headLine :: if detailed then summary.detailLines else []

theorem filter_heads (summary : ModuleSummary) (detailed : Bool) :
    (summary.lines detailed).filter (beginsWith "- ") = [summary.headLine] := by
  rw [lines, List.filter_cons_of_pos summary.beginsWith_headLine]
  cases detailed with
  | false => rfl
  | true => exact congrArg (summary.headLine :: ·) (filter_detailLines_eq_nil (by decide) summary)

theorem filter_lines {mark : String} (apart : Apart "- " mark) (summary : ModuleSummary)
    (detailed : Bool) :
    (summary.lines detailed).filter (beginsWith mark) =
      (if detailed then summary.detailLines else []).filter (beginsWith mark) :=
  List.filter_cons_of_neg (by simp [apart.beginsWith_eq_false summary.beginsWith_headLine])

theorem filter_headings (summary : ModuleSummary) (detailed : Bool) :
    (summary.lines detailed).filter (beginsWith "## ") = [] := by
  rw [filter_lines (by decide)]
  cases detailed with
  | false => rfl
  | true => exact filter_detailLines_eq_nil (by decide) summary

theorem filter_details (summary : ModuleSummary) :
    (summary.lines true).filter (beginsWith "  - ") = summary.detailLines := by
  rw [filter_lines (by decide)]
  exact summary.filter_detailLines

/-- Without the details there is nothing but the bullet. -/
theorem filter_brief (summary : ModuleSummary) :
    (summary.lines true).filter (!beginsWith "  - " ·) = summary.lines false := by
  have bullet : Apart "- " "  - " := by decide
  rw [lines, List.filter_cons_of_pos (by simp [bullet.beginsWith_eq_false summary.beginsWith_headLine])]
  refine congrArg (summary.headLine :: ·) (List.filter_eq_nil_iff.mpr ?_)
  intro line listed
  simp [beginsWith_detailLines listed]

end ModuleSummary

namespace Analysis

def titleLines (analysis : Analysis) : List String :=
  [s!"# Module Verification: {analysis.projectName} ({code analysis.basePackage})", "",
    "## Modules", ""]

/-- What stands above the report: a title and the modules, with or without their details. -/
def frontLines (analysis : Analysis) (detailed : Bool) : List String :=
  analysis.titleLines ++ analysis.modules.flatMap (·.lines detailed)

/-- What the lines of a document tell of an analysis, in detail or not. The headings of the second
level are that of the modules and the verdict, the bullets are those of the modules and of the
violations, and details are told of modules only and only in detail. -/
structure IsToldBy (analysis : Analysis) (document : (detailed : Bool) → List String) : Prop where
  report : ∀ detailed, ∃ lines, document detailed = analysis.frontLines detailed ++ lines ∧
    analysis.violations.IsToldBy lines
  headings : ∀ detailed, (document detailed).filter (beginsWith "## ") =
    ["## Modules", analysis.violations.verdict]
  compliant : ∀ detailed, "## No Violations Found" ∈ document detailed ↔ analysis.violations.entries = []
  bullets : ∀ detailed, (document detailed).filter (beginsWith "- ") =
    analysis.modules.map ModuleSummary.headLine ++ analysis.violations.grouped.map ("- " ++ ·.message)
  details : (document true).filter (beginsWith "  - ") = analysis.modules.flatMap ModuleSummary.detailLines
  brief : document false = (document true).filter (!beginsWith "  - " ·)

theorem filter_markdownLines (analysis : Analysis) {detailed : Bool} {chosen : String → Bool}
    {kept : ModuleSummary → List String}
    (each : ∀ summary : ModuleSummary, (summary.lines detailed).filter chosen = kept summary) :
    (analysis.markdownLines detailed).filter chosen =
      analysis.titleLines.filter chosen ++ analysis.modules.flatMap kept ++
        analysis.violations.lines.filter chosen := by
  have parts : analysis.markdownLines detailed =
      analysis.frontLines detailed ++ analysis.violations.lines := rfl
  rw [parts, frontLines, List.filter_append, List.filter_append, List.filter_flatMap]
  simp only [each]

theorem headings_markdownLines (analysis : Analysis) (detailed : Bool) :
    (analysis.markdownLines detailed).filter (beginsWith "## ") =
      ["## Modules", analysis.violations.verdict] := by
  rw [analysis.filter_markdownLines (ModuleSummary.filter_headings · detailed),
    analysis.violations.isToldBy_lines.filter_verdict]
  simp [titleLines, beginsWith, toString]

theorem bullets_markdownLines (analysis : Analysis) (detailed : Bool) :
    (analysis.markdownLines detailed).filter (beginsWith "- ") =
      analysis.modules.map ModuleSummary.headLine ++
        analysis.violations.grouped.map ("- " ++ ·.message) := by
  rw [analysis.filter_markdownLines (ModuleSummary.filter_heads · detailed),
    analysis.violations.isToldBy_lines.filter_bullets, ← List.map_eq_flatMap]
  simp [titleLines, beginsWith, toString]

theorem details_markdownLines (analysis : Analysis) :
    (analysis.markdownLines true).filter (beginsWith "  - ") =
      analysis.modules.flatMap ModuleSummary.detailLines := by
  rw [analysis.filter_markdownLines ModuleSummary.filter_details,
    analysis.violations.isToldBy_lines.filter_details]
  simp [titleLines, beginsWith, toString]

theorem brief_markdownLines (analysis : Analysis) :
    analysis.markdownLines false = (analysis.markdownLines true).filter (!beginsWith "  - " ·) := by
  have title : analysis.titleLines.filter (!beginsWith "  - " ·) = analysis.titleLines :=
    List.filter_eq_self.mpr (by simp [titleLines, beginsWith, toString, List.isPrefixOf])
  have report : analysis.violations.lines.filter (!beginsWith "  - " ·) = analysis.violations.lines := by
    have none := List.filter_eq_nil_iff.mp analysis.violations.isToldBy_lines.filter_details
    exact List.filter_eq_self.mpr fun line listed => by simpa using none line listed
  rw [analysis.filter_markdownLines ModuleSummary.filter_brief, title, report]
  rfl

theorem mem_markdownLines_iff (analysis : Analysis) (detailed : Bool) :
    "## No Violations Found" ∈ analysis.markdownLines detailed ↔ analysis.violations.entries = [] := by
  -- No name and no message can be taken for the sentence: it would be a heading of its level.
  have heading : beginsWith "## " "## No Violations Found" = true := by decide
  rw [← Report.verdict_eq_iff, ← and_iff_left heading (a := _ ∈ _), ← List.mem_filter,
    headings_markdownLines]
  simp [eq_comm]

/-- A Markdown document tells every entry of a report once, under the heading of its rule, and all of
them in the order of the report if that was made of findings. It says that there are none only if
there are none, and the brief document is the detailed one without the details of the modules. -/
theorem markdown_tells_each_violation_once (analysis : Analysis) :
    analysis.IsToldBy analysis.markdownLines ∧
    (∀ detailed, analysis.markdownText detailed =
      String.join ((analysis.markdownLines detailed).map (· ++ "\n"))) ∧
    analysis.violations.grouped.Perm analysis.violations.entries ∧
    ∀ findings, analysis.violations = .ofFindings findings →
      analysis.violations.grouped = analysis.violations.entries := by
  refine ⟨?_, fun _ => rfl, analysis.violations.grouped_perm, ?_⟩
  · exact {
      report := fun _ => ⟨analysis.violations.lines, rfl, analysis.violations.isToldBy_lines⟩
      headings := analysis.headings_markdownLines
      compliant := analysis.mem_markdownLines_iff
      bullets := analysis.bullets_markdownLines
      details := analysis.details_markdownLines
      brief := analysis.brief_markdownLines }
  · intro findings made
    rw [made]
    exact Report.grouped_ofFindings findings

end Analysis

end ModuleBoundary
