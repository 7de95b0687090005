import ModuleBoundary.Proofs.Sorting
import ModuleBoundary.Report

/-! Reports as arrangements of findings.

A report of distinct findings is a permutation of them. Which permutation it is depends on the
findings and not on the order in which they were found, as long as findings that the report
order cannot tell apart are found in one order.
-/

set_option autoImplicit false

namespace ModuleBoundary

theorem mergeNeighbours_of_nodup {α : Type} [DecidableEq α] {items : List α}
    (distinct : items.Nodup) : mergeNeighbours items = items := by
  fun_induction mergeNeighbours items with
  | case1 item rest ih => simp at distinct
  | case2 first second rest different ih => rw [ih distinct.of_cons]
  | case3 short => rfl

/-- A sublist of distinct items leaves out what it does not contain, and nothing else. -/
theorem eq_filter_of_sublist {α : Type} [DecidableEq α] {part items : List α}
    (distinct : items.Nodup) (inside : part.Sublist items) : part = items.filter (· ∈ part) := by
  have kept : part.filter (· ∈ part) = part := List.filter_eq_self.mpr (by simp)
  have fits := inside.filter (· ∈ part)
  rw [kept] at fits
  apply fits.eq_of_length
  apply List.Perm.length_eq
  rw [List.perm_ext_iff_of_nodup (distinct.sublist inside) (distinct.filter _)]
  intro item
  rw [List.mem_filter, decide_eq_true_eq]
  exact ⟨fun listed => ⟨inside.subset listed, listed⟩, And.right⟩

theorem flatMap_only {α β : Type} [DecidableEq α] {items : List α} (distinct : items.Nodup)
    (item : α) (found : List β) :
    items.flatMap (fun other => if other = item then found else []) =
      if item ∈ items then found else [] := by
  induction items with
  | nil => rfl
  | cons head rest ih =>
    obtain ⟨fresh, distinct⟩ := List.nodup_cons.mp distinct
    rw [List.flatMap_cons, ih distinct]
    by_cases same : head = item
    · subst same
      simp [fresh]
    · simp [same, Ne.symm same]

theorem Rule.mem_all (rule : Rule) : rule ∈ Rule.all := by
  cases rule <;> decide

theorem compare_string_eq_lt {first second : String} :
    compare first second = .lt ↔ first < second :=
  compareOfLessAndEq_eq_lt

theorem isLE_compare_string {first second : String} :
    (compare first second).isLE ↔ first ≤ second := by
  rw [Ordering.isLE_iff_eq_lt_or_eq_eq, compare_string_eq_lt, Std.compare_eq_iff_eq]
  constructor
  · rintro (before | rfl)
    · exact String.not_lt.mp (String.lt_asymm before)
    · exact String.le_refl _
  · intro ordered
    by_cases before : first < second
    · exact .inl before
    · exact .inr (String.le_antisymm ordered (String.not_lt.mp before))

/-- Two keys compared one after the other. -/
theorem isLE_compareLex {α : Type} {key next : α → String} {first second : α} :
    (compareLex (compareOn key) (compareOn next) first second).isLE ↔
      key first < key second ∨ key first = key second ∧ next first ≤ next second := by
  simp only [compareLex, compareOn, Ordering.isLE_then_iff_or, compare_string_eq_lt,
    Std.compare_eq_iff_eq, isLE_compare_string]

namespace Violation

/-- Whether a violation may stand before another in a report. The rule decides, then the first
module, then the source and then the target. -/
def MayPrecede (first second : Violation) : Prop :=
  first.rule.priority < second.rule.priority ∨ first.rule = second.rule ∧
    (first.firstModule < second.firstModule ∨ first.firstModule = second.firstModule ∧
      (first.source.getD "" < second.source.getD "" ∨
        first.source.getD "" = second.source.getD "" ∧
          first.target.getD "" ≤ second.target.getD ""))

instance : Std.TransCmp order := inferInstanceAs (Std.TransCmp (compareLex _ _))

variable {first second : Violation}

theorem mayPrecede_of_order (ordered : (first.order second).isLE) : first.MayPrecede second := by
  have priority_inj : first.rule.priority = second.rule.priority → first.rule = second.rule := by
    cases first.rule <;> cases second.rule <;> simp [Rule.priority]
  simp only [order, compareLex, compareOn, Ordering.isLE_then_iff_or, compare_string_eq_lt,
    Std.compare_eq_iff_eq, Nat.compare_eq_lt] at ordered
  rcases ordered with rule | ⟨rule, module | ⟨module, source | ⟨source, target | ⟨target, -⟩⟩⟩⟩
  · exact .inl rule
  · exact .inr ⟨priority_inj rule, .inl module⟩
  · exact .inr ⟨priority_inj rule, .inr ⟨module, .inl source⟩⟩
  · exact .inr ⟨priority_inj rule, .inr ⟨module, .inr ⟨source, String.not_lt.mp (String.lt_asymm target)⟩⟩⟩
  · exact .inr ⟨priority_inj rule, .inr ⟨module, .inr ⟨source, target ▸ String.le_refl _⟩⟩⟩

theorem firstModule_eq_of_order_eq (level : first.order second = .eq) :
    first.firstModule = second.firstModule := by
  simp only [order, compareLex, compareOn, Ordering.then_eq_eq, Std.compare_eq_iff_eq] at level
  exact level.2.1

theorem classes_eq_of_order_eq (level : first.order second = .eq) :
    first.source.getD "" = second.source.getD "" ∧ first.target.getD "" = second.target.getD "" := by
  simp only [order, compareLex, compareOn, Ordering.then_eq_eq, Std.compare_eq_iff_eq] at level
  exact ⟨level.2.2.1, level.2.2.2.1⟩

end Violation

namespace Report

variable {findings others : List Violation}

theorem ofFindings_entries (distinct : findings.Nodup) :
    (ofFindings findings).entries = findings.mergeSort fun a b => (a.order b).isLE :=
  mergeNeighbours_of_nodup ((List.mergeSort_perm ..).nodup_iff.mpr distinct)

theorem entries_perm (distinct : findings.Nodup) : (ofFindings findings).entries.Perm findings := by
  rw [ofFindings_entries distinct]
  exact List.mergeSort_perm ..

theorem entries_pairwise (distinct : findings.Nodup) :
    (ofFindings findings).entries.Pairwise Violation.MayPrecede := by
  rw [ofFindings_entries distinct]
  exact mergeSort_pairwise.imp Violation.mayPrecede_of_order

/-- A report of chosen findings holds what is chosen of the whole report. -/
theorem entries_filter (distinct : findings.Nodup) (chosen : Violation → Bool) :
    (ofFindings (findings.filter chosen)).entries = (ofFindings findings).entries.filter chosen := by
  rw [ofFindings_entries distinct, ofFindings_entries (distinct.filter chosen), mergeSort_filter]

theorem entries_sublist (distinct : findings.Nodup) (fewer : others.Sublist findings) :
    (ofFindings others).entries.Sublist (ofFindings findings).entries := by
  rw [eq_filter_of_sublist distinct fewer, entries_filter distinct]
  exact List.filter_sublist

theorem ofFindings_eq_of_level
    (level : ∀ violation : Violation,
      findings.filter (violation.order · = .eq) = others.filter (violation.order · = .eq)) :
    ofFindings findings = ofFindings others := by
  unfold ofFindings
  rw [mergeSort_eq_mergeSort level]

end Report

end ModuleBoundary
