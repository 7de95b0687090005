import Mathlib.Data.List.Nodup

/-! Sorting by a comparison, and what it leaves in place.

The sort is stable: items that are level with each other stay as they stood. Where no two
items are level there is one sorted list only, whatever the order was before.
-/

set_option autoImplicit false

namespace ModuleBoundary

section
variable {α : Type} {compared : α → α → Ordering} [Std.TransCmp compared] {items sorted : List α}

theorem isLE_total (first second : α) :
    (compared first second).isLE || (compared second first).isLE := by
  have swapped : compared second first = (compared first second).swap := Std.OrientedCmp.eq_swap
  rw [swapped]
  cases compared first second <;> rfl

theorem mergeSort_pairwise :
    (items.mergeSort fun first second => (compared first second).isLE).Pairwise
      fun first second => (compared first second).isLE :=
  List.pairwise_mergeSort (fun _ _ _ => Std.TransCmp.isLE_trans) isLE_total items

theorem mergeSort_eq
    (apart : ∀ first ∈ items, ∀ second ∈ items, compared first second = .eq → first = second)
    (same : sorted.Perm items)
    (ascending : sorted.Pairwise fun first second => (compared first second).isLE) :
    (items.mergeSort fun first second => (compared first second).isLE) = sorted := by
  refine List.Perm.eq_of_pairwise ?_ mergeSort_pairwise ascending
    ((List.mergeSort_perm ..).trans same.symm)
  intro first second member other before after
  refine apart first (List.mem_mergeSort.mp member) second (same.mem_iff.mp other) ?_
  exact Std.OrientedCmp.isLE_antisymm before after

-- What is already sorted stays a sublist, and nothing is lost or added.
theorem filter_mergeSort {chosen : α → Bool}
    (level : ∀ first second, chosen first → chosen second → (compared first second).isLE) :
    (items.mergeSort fun first second => (compared first second).isLE).filter chosen =
      items.filter chosen := by
  have tied : (items.filter chosen).Pairwise fun first second => (compared first second).isLE :=
    (List.pairwise_of_forall_mem_list fun first member second other =>
      level first second (List.of_mem_filter member) (List.of_mem_filter other))
  have inside := (List.sublist_mergeSort (fun _ _ _ => Std.TransCmp.isLE_trans) isLE_total tied
    List.filter_sublist).filter chosen
  simp only [List.filter_filter, Bool.and_self] at inside
  exact (inside.eq_of_length ((List.mergeSort_perm ..).filter chosen).length_eq.symm).symm

/-- Items on one level are sorted into the order in which they stood. -/
theorem filter_level_mergeSort (item : α) :
    (items.mergeSort fun first second => (compared first second).isLE).filter
        (compared item · = .eq) = items.filter (compared item · = .eq) := by
  refine filter_mergeSort fun other another same equal => ?_
  have opposite := Std.OrientedCmp.eq_symm (of_decide_eq_true same)
  exact Ordering.isLE_of_eq_eq (Std.TransCmp.eq_trans opposite (of_decide_eq_true equal))

/-- A pair that is level stands in the sorted list as it stood before. -/
theorem pair_sublist_of_mergeSort {first second : α} (level : compared first second = .eq)
    (pair : [first, second].Sublist
      (items.mergeSort fun first second => (compared first second).isLE)) :
    [first, second].Sublist items := by
  have both : [first, second].filter (compared first · = .eq) = [first, second] := by
    simp [level, Std.ReflCmp.compare_self]
  have inside := pair.filter (compared first · = .eq)
  rw [both, filter_level_mergeSort] at inside
  exact inside.trans List.filter_sublist

theorem head_isLE {head item : α} {rest : List α}
    (ascending : (head :: rest).Pairwise fun first second => (compared first second).isLE)
    (member : item ∈ head :: rest) : (compared head item).isLE := by
  rcases List.mem_cons.mp member with rfl | member
  · simp [Std.ReflCmp.compare_self]
  · exact List.rel_of_pairwise_cons ascending member

/-- The place of an item in a sorted list: behind everything that does not come after it. -/
theorem exists_place (item : α)
    (ascending : items.Pairwise fun first second => (compared first second).isLE) :
    ∃ earlier later, items = earlier ++ later ∧
      (∀ other ∈ earlier, (compared other item).isLE) ∧
      ∀ other ∈ later, compared item other = .lt := by
  induction items with
  | nil => exact ⟨[], [], rfl, by simp, by simp⟩
  | cons head rest ih =>
    by_cases before : (compared head item).isLE
    · obtain ⟨earlier, later, rfl, notAfter, after⟩ := ih ascending.of_cons
      exact ⟨head :: earlier, later, rfl, List.forall_mem_cons.mpr ⟨before, notAfter⟩, after⟩
    · refine ⟨[], head :: rest, rfl, by simp, ?_⟩
      intro other member
      have swapped : compared item head = (compared head item).swap := Std.OrientedCmp.eq_swap
      have first : compared item head = .lt := by
        cases order : compared head item <;> simp_all
      exact Std.TransCmp.lt_of_lt_of_isLE first (head_isLE ascending member)

omit [Std.TransCmp compared] in
theorem pairwise_placed {earlier later : List α} {item : α}
    (ascending : (earlier ++ later).Pairwise fun first second => (compared first second).isLE)
    (notAfter : ∀ other ∈ earlier, (compared other item).isLE)
    (after : ∀ other ∈ later, compared item other = .lt) :
    (earlier ++ item :: later).Pairwise fun first second => (compared first second).isLE := by
  obtain ⟨first, second, across⟩ := List.pairwise_append.mp ascending
  refine List.pairwise_append.mpr ⟨first, List.pairwise_cons.mpr ⟨?_, second⟩, ?_⟩
  · intro other member
    simp [after other member]
  · intro one member other memberToo
    rcases List.mem_cons.mp memberToo with rfl | memberToo
    · exact notAfter one member
    · exact across one member other memberToo

section
variable {first second : List α}

theorem mem_of_filter_level_eq
    (level : ∀ item, first.filter (compared item · = .eq) = second.filter (compared item · = .eq))
    {item : α} (member : item ∈ first) : item ∈ second := by
  have found : item ∈ first.filter (compared item · = .eq) := by
    simp [member, Std.ReflCmp.compare_self]
  rw [level] at found
  exact List.mem_of_mem_filter found

/-- Two sorted lists with the same items on every level, in the same order, are one list. -/
theorem eq_of_filter_level_eq
    (ascending : first.Pairwise fun first second => (compared first second).isLE)
    (ascendingToo : second.Pairwise fun first second => (compared first second).isLE)
    (level : ∀ item, first.filter (compared item · = .eq) = second.filter (compared item · = .eq)) :
    first = second := by
  induction first generalizing second with
  | nil =>
    cases second with
    | nil => rfl
    | cons head rest =>
      have member := mem_of_filter_level_eq (fun item => (level item).symm) List.mem_cons_self
      cases member
  | cons head rest ih =>
    cases second with
    | nil =>
      have member := mem_of_filter_level_eq level List.mem_cons_self
      cases member
    | cons other later =>
      -- Each head occurs in the other list as well, so neither of them comes after the other.
      have tied : compared head other = .eq := by
        apply Std.OrientedCmp.isLE_antisymm
        · apply head_isLE ascending
          exact mem_of_filter_level_eq (fun item => (level item).symm) List.mem_cons_self
        · apply head_isLE ascendingToo
          exact mem_of_filter_level_eq level List.mem_cons_self
      have heads := level head
      rw [List.filter_cons_of_pos (by simp [Std.ReflCmp.compare_self]),
        List.filter_cons_of_pos (by simp [tied])] at heads
      cases (List.cons.inj heads).1
      refine congrArg (head :: ·) (ih ascending.of_cons ascendingToo.of_cons fun item => ?_)
      have both := level item
      rw [List.filter_cons, List.filter_cons] at both
      split at both
      · exact (List.cons.inj both).2
      · exact both

theorem mergeSort_eq_mergeSort
    (level : ∀ item, first.filter (compared item · = .eq) = second.filter (compared item · = .eq)) :
    (first.mergeSort fun first second => (compared first second).isLE) =
      second.mergeSort fun first second => (compared first second).isLE := by
  refine eq_of_filter_level_eq mergeSort_pairwise mergeSort_pairwise fun item => ?_
  rw [filter_level_mergeSort, filter_level_mergeSort, level]

/-- Items that are chosen from a list and those chosen when it is sorted are sorted alike. -/
theorem mergeSort_filter (chosen : α → Bool) (items : List α) :
    ((items.filter chosen).mergeSort fun first second => (compared first second).isLE) =
      (items.mergeSort fun first second => (compared first second).isLE).filter chosen := by
  refine eq_of_filter_level_eq mergeSort_pairwise (mergeSort_pairwise.filter chosen) fun item => ?_
  have swapped (items : List α) : (items.filter chosen).filter (compared item · = .eq) =
      (items.filter (compared item · = .eq)).filter chosen := List.filter_comm ..
  rw [filter_level_mergeSort, swapped, swapped, filter_level_mergeSort]

/-- Where no two different items are level, the order in which a list stood has no bearing on
any level. -/
theorem filter_level_eq_of_perm
    (apart : ∀ one ∈ first, ∀ other ∈ first, compared one other = .eq → one = other)
    (same : first.Perm second) (item : α) :
    first.filter (compared item · = .eq) = second.filter (compared item · = .eq) := by
  have alone {items : List α} (known : ∀ one ∈ items, one ∈ first) :
      (items.filter (compared item · = .eq)).Pairwise (· = ·) := by
    refine List.pairwise_of_forall_mem_list fun one member other memberToo => ?_
    obtain ⟨listed, level⟩ := List.mem_filter.mp member
    obtain ⟨listedToo, levelToo⟩ := List.mem_filter.mp memberToo
    have opposite := Std.OrientedCmp.eq_symm (of_decide_eq_true level)
    exact apart one (known one listed) other (known other listedToo)
      (Std.TransCmp.eq_trans opposite (of_decide_eq_true levelToo))
  refine List.Perm.eq_of_pairwise (fun _ _ _ _ same _ => same) (alone fun _ => id)
    (alone fun _ => same.mem_iff.mpr) (same.filter _)

end

end

end ModuleBoundary
