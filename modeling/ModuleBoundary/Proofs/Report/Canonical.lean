import Mathlib.Data.List.Destutter
import ModuleBoundary.Proofs.Report

/-! When a report depends on nothing but which violations were found.

Violations that the report order cannot tell apart stay as they were found, and between them a
repetition is not noticed. Where there are no such violations, the report is the ascending list of
what was found; where there are, the order in which they were found shows in it.
-/

set_option autoImplicit false

namespace ModuleBoundary

section
variable {α : Type} [DecidableEq α] {items chosen : List α}

theorem mergeNeighbours_eq_destutter (items : List α) :
    mergeNeighbours items = items.destutter (· ≠ ·) := by
  fun_induction mergeNeighbours items with
  | case1 item rest ih => rw [ih, List.destutter_cons_cons, if_neg (by simp), List.destutter_cons']
  | case2 first second rest different ih =>
    rw [ih, List.destutter_cons_cons, if_pos different, List.destutter_cons']
  | case3 short isShort =>
    cases short with
    | nil => rfl
    | cons item rest =>
      cases rest with
      | nil => rfl
      | cons next rest => exact absurd rfl (isShort item next rest)

/-- What is looked for is found as the same item first. -/
theorem find?_mergeNeighbours (wanted : α → Bool) (items : List α) :
    (mergeNeighbours items).find? wanted = items.find? wanted := by
  fun_induction mergeNeighbours items with
  | case1 item rest ih =>
    rw [ih]
    cases chosen : wanted item <;> simp [chosen]
  | case2 first second rest different ih => rw [List.find?_cons, ih, ← List.find?_cons]
  | case3 short isShort => rfl

theorem mem_mergeNeighbours {item : α} : item ∈ mergeNeighbours items ↔ item ∈ items := by
  have found (items : List α) : item ∈ items ↔ (items.find? (· == item)).isSome := by
    simp
  rw [found, found, find?_mergeNeighbours]

/-- Items that are merged stand side by side. -/
theorem sublist_mergeNeighbours (inside : chosen.Sublist items)
    (apart : chosen.IsChain (· ≠ ·)) : chosen.Sublist (mergeNeighbours items) := by
  fun_induction mergeNeighbours items generalizing chosen with
  | case1 item rest ih =>
    cases inside with
    | cons _ inside => exact ih inside apart
    | cons_cons _ inside =>
      -- The item is chosen once, and it may as well be the second of the two.
      cases inside with
      | cons _ inside => exact ih (inside.cons_cons item) apart
      | cons_cons _ inside => exact absurd rfl (List.isChain_cons_cons.mp apart).1
  | case2 first second rest different ih =>
    cases inside with
    | cons _ inside => exact (ih inside apart).cons first
    | cons_cons _ inside => exact (ih inside apart.tail).cons_cons first
  | case3 short isShort => exact inside

end

section
variable {α : Type} {compared : α → α → Ordering} [Std.TransCmp compared] {first second : List α}

/-- Where no two different items are level, sorted items repeat only side by side. -/
theorem pairwise_lt_of_isChain_ne
    (apart : ∀ one ∈ first, ∀ other ∈ first, compared one other = .eq → one = other)
    (ascending : first.Pairwise fun one other => (compared one other).isLE)
    (different : first.IsChain (· ≠ ·)) :
    first.Pairwise fun one other => compared one other = .lt := by
  induction first with
  | nil => exact .nil
  | cons head rest ih =>
    have apartLater : ∀ one ∈ rest, ∀ other ∈ rest, compared one other = .eq → one = other := by
      intro one member other memberToo
      exact apart one (List.mem_cons_of_mem _ member) other (List.mem_cons_of_mem _ memberToo)
    refine List.pairwise_cons.mpr ⟨?_, ih apartLater ascending.of_cons different.tail⟩
    intro item member
    have before := List.rel_of_pairwise_cons ascending member
    cases level : compared head item with
    | lt => rfl
    | gt => simp [level] at before
    | eq =>
      -- The head would come again, and so it would stand beside itself.
      cases apart head List.mem_cons_self item (List.mem_cons_of_mem _ member) level
      cases rest with
      | nil => cases member
      | cons next more =>
        have upward := List.rel_of_pairwise_cons ascending List.mem_cons_self
        have downward := head_isLE ascending.of_cons member
        have tied : compared head next = .eq := Std.OrientedCmp.isLE_antisymm upward downward
        have same := apart head List.mem_cons_self next (by simp) tied
        exact absurd same (List.isChain_cons_cons.mp different).1

/-- There is one strictly ascending list of some items. -/
theorem eq_of_pairwise_lt (same : ∀ item, item ∈ first ↔ item ∈ second)
    (ascending : first.Pairwise fun one other => compared one other = .lt)
    (ascendingToo : second.Pairwise fun one other => compared one other = .lt) :
    first = second := by
  have distinct {items : List α} (ascends : items.Pairwise fun one other => compared one other = .lt) :
      items.Nodup := by
    refine ascends.imp fun {one other} before equal => ?_
    have level : compared other other = .eq := Std.ReflCmp.compare_self
    rw [equal, level] at before
    cases before
  have perm : first.Perm second :=
    (List.perm_ext_iff_of_nodup (distinct ascending) (distinct ascendingToo)).mpr same
  refine perm.eq_of_pairwise ?_ ascending ascendingToo
  intro one other _ _ before after
  have opposite := Std.OrientedCmp.gt_of_lt before
  rw [after] at opposite
  cases opposite

end

/-- The report order tells apart whatever differs. -/
def Violation.ToldApart (findings : List Violation) : Prop :=
  ∀ first ∈ findings, ∀ second ∈ findings, first.order second = .eq → first = second

namespace Report

variable {findings others chosen : List Violation}

theorem mem_entries {violation : Violation} :
    violation ∈ (ofFindings findings).entries ↔ violation ∈ findings := by
  rw [ofFindings, mem_mergeNeighbours, List.mem_mergeSort]

theorem entries_ordered (findings : List Violation) :
    (ofFindings findings).entries.Pairwise fun first second => (first.order second).isLE := by
  rw [ofFindings, mergeNeighbours_eq_destutter]
  exact mergeSort_pairwise.sublist (List.destutter_sublist ..)

theorem entries_isChain (findings : List Violation) :
    (ofFindings findings).entries.IsChain (· ≠ ·) := by
  rw [ofFindings, mergeNeighbours_eq_destutter]
  exact List.isChain_destutter ..

theorem entries_ascending (apart : Violation.ToldApart findings) :
    (ofFindings findings).entries.Pairwise fun first second => first.order second = .lt := by
  apply pairwise_lt_of_isChain_ne _ (entries_ordered findings) (entries_isChain findings)
  intro first member second other level
  exact apart first (mem_entries.mp member) second (mem_entries.mp other) level

/-- Findings in report order, no two of them the same side by side, are reported as they are. -/
theorem entries_eq_self (ordered : findings.Pairwise fun first second => (first.order second).isLE)
    (apart : findings.IsChain (· ≠ ·)) : (ofFindings findings).entries = findings := by
  rw [ofFindings, List.mergeSort_of_pairwise ordered, mergeNeighbours_eq_destutter]
  exact List.destutter_of_isChain _ _ apart

/-- Of the violations on one level, the report begins with the one that was found first. -/
theorem find?_entries (findings : List Violation) (violation : Violation) :
    (ofFindings findings).entries.find? (violation.order · = .eq) =
      findings.find? (violation.order · = .eq) := by
  rw [ofFindings, find?_mergeNeighbours, ← List.head?_filter, filter_level_mergeSort,
    List.head?_filter]

/-- Violations on one level are not merged across each other. -/
theorem sublist_entries (violation : Violation) (inside : chosen.Sublist findings)
    (level : ∀ other ∈ chosen, violation.order other = .eq) (apart : chosen.IsChain (· ≠ ·)) :
    chosen.Sublist (ofFindings findings).entries := by
  apply sublist_mergeNeighbours _ apart
  have all : chosen.filter (violation.order · = .eq) = chosen := by
    simpa using level
  have sorted := inside.filter (violation.order · = .eq)
  rw [all, ← filter_level_mergeSort] at sorted
  exact sorted.trans List.filter_sublist

theorem ofFindings_eq (apart : Violation.ToldApart findings)
    (same : ∀ violation, violation ∈ others ↔ violation ∈ findings) :
    ofFindings others = ofFindings findings := by
  have apartToo : Violation.ToldApart others := by
    intro first member second other level
    exact apart first ((same first).mp member) second ((same second).mp other) level
  have listed : (ofFindings others).entries = (ofFindings findings).entries := by
    apply eq_of_pairwise_lt _ (entries_ascending apartToo) (entries_ascending apart)
    intro violation
    rw [mem_entries, mem_entries, same]
  exact congrArg Report.mk listed

theorem count_entries (apart : Violation.ToldApart findings) {violation : Violation}
    (member : violation ∈ findings) : (ofFindings findings).entries.count violation = 1 := by
  apply List.count_eq_one_of_mem _ (mem_entries.mpr member)
  refine (entries_ascending apart).imp fun {first second} before equal => ?_
  have level : second.order second = .eq := Std.ReflCmp.compare_self
  rw [equal, level] at before
  cases before

theorem mem_append_known {known : List Violation} (member : ∀ violation ∈ known, violation ∈ findings)
    (violation : Violation) : violation ∈ known ++ findings ↔ violation ∈ findings := by
  rw [List.mem_append]
  exact or_iff_right_of_imp (member violation)

/-- If the order of the findings does not show, the first of two on one level cannot either. -/
theorem toldApart_of_ofFindings_eq
    (canonical : ∀ others, (∀ violation, violation ∈ others ↔ violation ∈ findings) →
      ofFindings others = ofFindings findings) : Violation.ToldApart findings := by
  intro first member second other level
  have one : ofFindings ([first, second] ++ findings) = ofFindings findings :=
    canonical _ (mem_append_known (by simp [member, other]))
  have another : ofFindings ([second, first] ++ findings) = ofFindings findings :=
    canonical _ (mem_append_known (by simp [member, other]))
  have begins := find?_entries ([first, second] ++ findings) first
  have beginsToo := find?_entries ([second, first] ++ findings) first
  have self : first.order first = .eq := Std.ReflCmp.compare_self
  rw [one, List.cons_append, List.find?_cons_of_pos (by simpa using self)] at begins
  rw [another, List.cons_append, List.find?_cons_of_pos (by simpa using level), begins] at beginsToo
  exact Option.some.inj beginsToo

/-- If nothing is reported twice, nothing different stands between two findings on one level. -/
theorem toldApart_of_count_entries
    (once : ∀ others, (∀ violation, violation ∈ others ↔ violation ∈ findings) →
      ∀ violation ∈ others, (ofFindings others).entries.count violation = 1) :
    Violation.ToldApart findings := by
  intro first member second other level
  by_contra different
  have reported := once ([first, second, first] ++ findings)
    (mem_append_known (by simp [member, other])) first List.mem_cons_self
  have self : first.order first = .eq := Std.ReflCmp.compare_self
  have inside : [first, second, first].Sublist
      (ofFindings ([first, second, first] ++ findings)).entries := by
    apply sublist_entries first (List.sublist_append_left ..)
    · simp [self, level]
    · simp [different, Ne.symm different]
  have twice := inside.count_le first
  rw [reported] at twice
  simp [List.count_cons] at twice

/-- A report says nothing of the order and the repetitions in which its violations were found
exactly where the report order tells all of them apart; and exactly there each is reported once. -/
theorem canonical_iff_toldApart (findings : List Violation) :
    ((∀ others, (∀ violation, violation ∈ others ↔ violation ∈ findings) →
      ofFindings others = ofFindings findings) ↔ Violation.ToldApart findings) ∧
    ((∀ others, (∀ violation, violation ∈ others ↔ violation ∈ findings) →
      ∀ violation ∈ others, (ofFindings others).entries.count violation = 1) ↔
        Violation.ToldApart findings) := by
  refine ⟨⟨toldApart_of_ofFindings_eq, ?_⟩, ⟨toldApart_of_count_entries, ?_⟩⟩
  · intro apart others same
    exact ofFindings_eq apart same
  · intro apart others same violation member
    rw [ofFindings_eq apart same]
    exact count_entries apart ((same violation).mp member)

/-- A cycle through a module whose name reads like two. -/
def cycleOfTwo : Violation := .cycle ["a", "b -> c"]

def cycleOfThree : Violation := .cycle ["a", "b", "c"]

/-- Cycles that read alike are level, and one of them is reported on both sides of the other. -/
theorem level_cycles_repeated :
    (∀ violation, violation ∈ [cycleOfTwo, cycleOfThree, cycleOfTwo] ↔
      violation ∈ [cycleOfTwo, cycleOfThree]) ∧
    ofFindings [cycleOfTwo, cycleOfThree, cycleOfTwo] ≠ ofFindings [cycleOfTwo, cycleOfThree] ∧
    (ofFindings [cycleOfTwo, cycleOfThree, cycleOfTwo]).entries.count cycleOfTwo = 2 := by
  have repeated : (ofFindings [cycleOfTwo, cycleOfThree, cycleOfTwo]).entries =
      [cycleOfTwo, cycleOfThree, cycleOfTwo] := entries_eq_self (by decide) (by decide)
  have single : (ofFindings [cycleOfTwo, cycleOfThree]).entries = [cycleOfTwo, cycleOfThree] :=
    entries_eq_self (by decide) (by decide)
  refine ⟨?_, ?_, ?_⟩
  · intro violation
    simp only [List.mem_cons, List.not_mem_nil, or_false]
    tauto
  · intro same
    rw [same, single] at repeated
    cases repeated
  · rw [repeated]
    decide

end Report

end ModuleBoundary
