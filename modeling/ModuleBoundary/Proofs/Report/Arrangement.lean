import Mathlib.Data.Prod.Lex
import ModuleBoundary.Proofs.Report.Canonical

/-! What a report makes of its findings, whatever they are.

The key that findings are sorted by leaves some of them level that differ. On each level they stay
as they were found, without their repetitions side by side; and as a level is one stretch of the
sorted list, nothing from another level separates what is repeated.
-/

set_option autoImplicit false

namespace ModuleBoundary

section
variable {α : Type} [DecidableEq α] {compared : α → α → Ordering} [Std.TransCmp compared]
  {items : List α}

omit [DecidableEq α] in
/-- In a sorted list a level ends with the first item after it. -/
theorem filter_level_eq_nil {item first : α}
    (ascending : (first :: items).Pairwise fun one other => (compared one other).isLE)
    (before : compared item first = .lt) : items.filter (compared item · = .eq) = [] := by
  rw [List.filter_eq_nil_iff]
  intro other member level
  have after := Std.TransCmp.lt_of_lt_of_isLE before (List.rel_of_pairwise_cons ascending member)
  rw [of_decide_eq_true level] at after
  cases after

/-- Repetitions side by side are the same on one level and in the whole list. -/
theorem filter_mergeNeighbours (item : α)
    (ascending : items.Pairwise fun one other => (compared one other).isLE) :
    (mergeNeighbours items).filter (compared item · = .eq) =
      mergeNeighbours (items.filter (compared item · = .eq)) := by
  fun_induction mergeNeighbours items with
  | case1 first rest ih =>
    rw [ih ascending.of_cons]
    by_cases level : compared item first = .eq <;> simp [level, mergeNeighbours]
  | case2 first second rest different ih =>
    rw [List.filter_cons, ih ascending.of_cons]
    by_cases level : compared item first = .eq
    · by_cases next : compared item second = .eq
      · simp [level, next, mergeNeighbours, different]
      · -- The level ends here, so the first item is not brought next to one that equals it.
        have after : compared item second = .lt := by
          have upward := List.rel_of_pairwise_cons ascending List.mem_cons_self
          have notBefore := Std.TransCmp.isLE_trans (Ordering.isLE_of_eq_eq level) upward
          exact (Ordering.isLE_iff_eq_lt_or_eq_eq.mp notBefore).resolve_right next
        have ended := filter_level_eq_nil ascending.of_cons after
        simp [level, next, ended, mergeNeighbours]
    · simp [level]
  | case3 short isShort =>
    cases short with
    | nil => rfl
    | cons first rest =>
      cases rest with
      | nil => by_cases level : compared item first = .eq <;> simp [level, mergeNeighbours]
      | cons second rest => exact absurd rfl (isShort first second rest)

end

namespace Violation

/-- What violations are sorted by: rule, first module, source, target and message. -/
def sortKey (violation : Violation) : Nat ×ₗ String ×ₗ String ×ₗ String ×ₗ String :=
  toLex (violation.rule.priority, toLex (violation.firstModule,
    toLex (violation.source.getD "", toLex (violation.target.getD "", violation.message))))

theorem order_isLE_iff {first second : Violation} :
    (first.order second).isLE ↔ first.sortKey ≤ second.sortKey := by
  simp only [order, compareLex, compareOn, Ordering.isLE_then_iff_or, compare_string_eq_lt,
    Std.compare_eq_iff_eq, Nat.compare_eq_lt, isLE_compare_string, sortKey, Prod.Lex.toLex_le_toLex]

theorem order_eq_iff {first second : Violation} :
    first.order second = .eq ↔ first.sortKey = second.sortKey := by
  simp only [order, compareLex, compareOn, Ordering.then_eq_eq, Std.compare_eq_iff_eq, sortKey,
    EmbeddingLike.apply_eq_iff_eq, Prod.mk.injEq]

instance (first second : Violation) : Decidable (first.sortKey = second.sortKey) :=
  decidable_of_iff _ order_eq_iff

end Violation

namespace Report

theorem size_ofFindings_le (findings : List Violation) : (ofFindings findings).size ≤ findings.length := by
  have fewer := (List.destutter_sublist (· ≠ ·)
    (findings.mergeSort fun first second => (first.order second).isLE)).length_le
  rwa [← mergeNeighbours_eq_destutter, List.length_mergeSort] at fewer

/-- What is reported on one level is what was found on it, without repetitions side by side. -/
theorem filter_entries (findings : List Violation) (violation : Violation) :
    (ofFindings findings).entries.filter (violation.order · = .eq) =
      (findings.filter (violation.order · = .eq)).destutter (· ≠ ·) := by
  rw [ofFindings, filter_mergeNeighbours violation mergeSort_pairwise, filter_level_mergeSort,
    mergeNeighbours_eq_destutter]

/-- A report is sorted by the key and holds just what was found, nothing twice side by side; what
has the same key stands as it was found. There is nothing left to arrange in it. -/
theorem ofFindings_arranges (findings : List Violation) :
    (ofFindings findings).entries.Pairwise (fun first second => first.sortKey ≤ second.sortKey) ∧
    (∀ violation, violation ∈ (ofFindings findings).entries ↔ violation ∈ findings) ∧
    (ofFindings findings).entries.IsChain (· ≠ ·) ∧
    (ofFindings findings).size ≤ findings.length ∧
    (∀ violation : Violation,
      (ofFindings findings).entries.filter (fun other => violation.sortKey = other.sortKey) =
        (findings.filter fun other => violation.sortKey = other.sortKey).destutter (· ≠ ·)) ∧
    ofFindings (ofFindings findings).entries = ofFindings findings := by
  have ordered := entries_ordered findings
  have apart := entries_isChain findings
  refine ⟨?_, fun _ => mem_entries, apart, size_ofFindings_le findings, ?_, ?_⟩
  · exact ordered.imp Violation.order_isLE_iff.mp
  · intro violation
    simp only [← Violation.order_eq_iff]
    exact filter_entries findings violation
  · exact congrArg Report.mk (entries_eq_self ordered apart)

end Report

end ModuleBoundary
