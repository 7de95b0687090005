import ModuleBoundary.Proofs.Report.Canonical

/-! The entries of a report rule by rule.

Whoever takes them from the report once for each rule takes every entry once, in whatever order they
stand; and a report that is in order by rule already keeps its order.
-/

set_option autoImplicit false

namespace ModuleBoundary

namespace Report

/-- The rules that some violation is reported of, by their weight. -/
def brokenRules (report : Report) : List Rule :=
  Rule.all.filter fun rule => ∃ violation ∈ report.entries, violation.rule = rule

/-- The entries rule by rule, those of one rule as they stand. -/
def grouped (report : Report) : List Violation := report.brokenRules.flatMap report.ofRule

variable {report : Report}

theorem mem_ofRule {rule : Rule} {violation : Violation} :
    violation ∈ report.ofRule rule ↔ violation ∈ report.entries ∧ violation.rule = rule := by
  simp [ofRule]

theorem ofRule_eq_nil_iff {rule : Rule} :
    report.ofRule rule = [] ↔ ¬ ∃ violation ∈ report.entries, violation.rule = rule := by
  simp [List.eq_nil_iff_forall_not_mem, mem_ofRule]

/-- Rules without violations add nothing. -/
theorem flatMap_brokenRules {β : Type} {told : Rule → List β}
    (silent : ∀ rule, report.ofRule rule = [] → told rule = []) :
    report.brokenRules.flatMap told = Rule.all.flatMap told := by
  unfold brokenRules
  induction Rule.all with
  | nil => rfl
  | cons rule rest ih =>
    rw [List.filter_cons, List.flatMap_cons, ← ih]
    split
    · rw [List.flatMap_cons]
    · next unbroken =>
      rw [silent rule (ofRule_eq_nil_iff.mpr (by simpa using unbroken)), List.nil_append]

theorem grouped_eq (report : Report) : report.grouped = Rule.all.flatMap report.ofRule :=
  flatMap_brokenRules fun _ => id

theorem ofRule_grouped (report : Report) (rule : Rule) :
    report.grouped.filter (·.rule = rule) = report.ofRule rule := by
  have apart (other : Rule) : (report.ofRule other).filter (·.rule = rule) =
      if other = rule then report.ofRule rule else [] := by
    split
    · next same =>
      rw [same, List.filter_eq_self]
      intro violation member
      exact decide_eq_true (mem_ofRule.mp member).2
    · next different =>
      rw [List.filter_eq_nil_iff]
      intro violation member wanted
      exact different ((mem_ofRule.mp member).2.symm.trans (of_decide_eq_true wanted))
  have distinct : Rule.all.Nodup := by decide
  rw [grouped_eq, List.filter_flatMap]
  simp only [apart, flatMap_only distinct, Rule.mem_all, if_true]

theorem grouped_perm (report : Report) : report.grouped.Perm report.entries := by
  rw [List.perm_iff_count]
  intro violation
  -- A violation occurs among those of its own rule only, and these stand as in the report.
  have level (entries : List Violation) :
      (entries.filter (·.rule = violation.rule)).count violation = entries.count violation :=
    List.count_filter (by simp)
  rw [← level report.grouped, ofRule_grouped, ofRule, level]

/-- Violations by the weight of their rules. -/
def byRule : Violation → Violation → Ordering := compareOn (·.rule.priority)

instance : Std.TransCmp byRule := inferInstanceAs (Std.TransCmp (compareOn _))

theorem byRule_eq_iff {first second : Violation} :
    byRule first second = .eq ↔ second.rule = first.rule := by
  simp only [byRule, compareOn, Nat.compare_eq_eq]
  cases first.rule <;> cases second.rule <;> simp [Rule.priority]

theorem grouped_ordered (report : Report) :
    report.grouped.Pairwise fun first second => (byRule first second).isLE := by
  rw [grouped_eq, List.pairwise_flatMap]
  constructor
  · intro rule _
    refine List.pairwise_of_forall_mem_list fun first member second other => ?_
    have same : second.rule = first.rule :=
      (mem_ofRule.mp other).2.trans (mem_ofRule.mp member).2.symm
    exact Ordering.isLE_of_eq_eq (byRule_eq_iff.mpr same)
  · have ascending : Rule.all.Pairwise fun rule other => rule.priority ≤ other.priority := by decide
    refine ascending.imp fun {rule other} below first member second memberToo => ?_
    simpa [byRule, compareOn, Nat.isLE_compare, (mem_ofRule.mp member).2, (mem_ofRule.mp memberToo).2]
      using below

/-- What is in order by rule already stays as it is. -/
theorem grouped_eq_entries
    (ordered : report.entries.Pairwise fun first second => (byRule first second).isLE) :
    report.grouped = report.entries := by
  apply eq_of_filter_level_eq report.grouped_ordered ordered
  intro violation
  simp only [byRule_eq_iff]
  exact report.ofRule_grouped violation.rule

theorem grouped_ofFindings (findings : List Violation) :
    (ofFindings findings).grouped = (ofFindings findings).entries := by
  apply grouped_eq_entries
  refine (entries_ordered findings).imp fun {first second} ordered => ?_
  rcases Violation.mayPrecede_of_order ordered with before | ⟨same, -⟩
  · simpa [byRule, compareOn, Nat.isLE_compare] using Nat.le_of_lt before
  · exact Ordering.isLE_of_eq_eq (byRule_eq_iff.mpr same.symm)

end Report

end ModuleBoundary
