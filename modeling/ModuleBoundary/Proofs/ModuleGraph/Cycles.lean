import ModuleBoundary.Proofs.Cycle.Search
import ModuleBoundary.Proofs.ModuleGraph.Dependencies
import ModuleBoundary.Proofs.Text.Utf8

/-! The cycle findings of a module graph are its elementary cycles. -/

set_option autoImplicit false

namespace ModuleBoundary.ModuleGraph

variable {codebase : Codebase}

theorem modules_cycleViolations (graph : ModuleGraph codebase) :
    graph.cycleViolations.map Violation.modules = graph.cycles := by
  rw [cycleViolations, List.map_map]
  exact List.map_id _

theorem mem_sortedNames (graph : ModuleGraph codebase) {name : String} :
    name ∈ graph.sortedNames ↔ ∃ module ∈ graph.modules, module.name = name := by
  rw [sortedNames, List.mem_mergeSort, names, List.mem_map]

theorem mem_searchOrder (graph : ModuleGraph codebase) (name : String) :
    name ∈ graph.searchOrder ↔ name ∈ graph.sortedNames := by
  rw [searchOrder, Cycle.mem_leaving, sortedNames, List.mem_mergeSort]

theorem sortedNames_nodup (graph : ModuleGraph codebase) : graph.sortedNames.Nodup :=
  (List.mergeSort_perm _ _).nodup_iff.mpr graph.distinct

theorem sortedNames_ascending (graph : ModuleGraph codebase) :
    graph.sortedNames.Pairwise (· ≤ ·) := by
  have sorted : graph.sortedNames.Pairwise fun first second => decide (first ≤ second) = true := by
    apply List.pairwise_mergeSort
    · intro first second third left right
      exact decide_eq_true (String.le_trans (of_decide_eq_true left) (of_decide_eq_true right))
    · intro first second
      simp [String.le_total first second]
  exact sorted.imp of_decide_eq_true

theorem dependsOn_self (graph : ModuleGraph codebase) (name : String) :
    graph.dependsOn name name = false := by
  refine Bool.eq_false_iff.mpr fun depends => ?_
  obtain ⟨first, known, second, other, named, same, different⟩ := graph.modules_of_dependsOn depends
  exact different (graph.eq_of_name_eq known other (named.trans same.symm))

theorem isElementary_of_mem (graph : ModuleGraph codebase) {cycle : List String}
    (found : cycle ∈ graph.cycles) :
    2 ≤ cycle.length ∧ Cycle.IsElementary graph.dependsOn cycle ∧
      ∀ name ∈ cycle, cycle.headD "" ≤ name := by
  obtain ⟨before, start, later, rest, split, rfl, inside, elementary⟩ :=
    (Cycle.mem_elementary graph.dependsOn_self graph.sortedNames_nodup graph.mem_searchOrder).mp found
  refine ⟨?_, elementary, ?_⟩
  · cases rest with
    | nil =>
      -- A cycle of one module would be a dependency of the module on itself.
      have back : graph.dependsOn start start = true := by simpa using elementary.closed
      rw [dependsOn_self] at back
      cases back
    | cons next rest => simp
  · have ascending := graph.sortedNames_ascending
    rw [split] at ascending
    obtain ⟨after, _⟩ := List.pairwise_cons.mp (List.pairwise_append.mp ascending).2.1
    intro name member
    rcases List.mem_cons.mp member with rfl | member
    · exact String.le_refl _
    · exact after name (inside member)

theorem exists_reported (graph : ModuleGraph codebase) {cycle : List String} (some : cycle ≠ [])
    (elementary : Cycle.IsElementary graph.dependsOn cycle) :
    ∃ reported ∈ graph.cycles, reported ~r cycle := by
  refine Cycle.exists_mem_elementary graph.dependsOn_self graph.sortedNames_nodup
    graph.mem_searchOrder elementary some ?_
  intro name member
  obtain ⟨next, depends⟩ := elementary.exists_related member
  obtain ⟨module, known, _, _, named, _⟩ := graph.modules_of_dependsOn depends
  exact graph.mem_sortedNames.mpr ⟨module, known, named⟩

/-- Two turns of one cycle that both begin with its smallest name are the same. -/
theorem eq_of_smallest_isRotated {first second : List String} (distinct : first.Nodup)
    (smallest : ∀ name ∈ first, first.headD "" ≤ name)
    (smallestToo : ∀ name ∈ second, second.headD "" ≤ name) (turned : first ~r second) :
    first = second := by
  cases first with
  | nil => exact (List.isRotated_nil_iff'.mp turned)
  | cons start rest =>
    cases second with
    | nil => exact List.isRotated_nil_iff.mp turned
    | cons start' other =>
      have same : start = start' := String.le_antisymm
        (smallest start' (turned.mem_iff.mpr List.mem_cons_self))
        (smallestToo start (turned.mem_iff.mp List.mem_cons_self))
      subst same
      exact Cycle.eq_of_isRotated distinct turned

theorem eq_of_reported_isRotated (graph : ModuleGraph codebase) {first second : List String}
    (left : first ∈ graph.cycles)
    (right : second ∈ graph.cycles)
    (turned : first ~r second) : first = second := by
  obtain ⟨-, elementary, smallest⟩ := graph.isElementary_of_mem left
  obtain ⟨-, -, smallestToo⟩ := graph.isElementary_of_mem right
  exact eq_of_smallest_isRotated elementary.distinct smallest smallestToo turned

theorem mem_cycles_iff (graph : ModuleGraph codebase) {cycle : List String} :
    cycle ∈ graph.cycles ↔
      2 ≤ cycle.length ∧ Cycle.IsElementary graph.dependsOn cycle ∧
        ∀ name ∈ cycle, cycle.headD "" ≤ name := by
  refine ⟨graph.isElementary_of_mem, ?_⟩
  rintro ⟨long, elementary, smallest⟩
  have some : cycle ≠ [] := List.ne_nil_of_length_pos (by omega)
  obtain ⟨reported, found, turned⟩ := graph.exists_reported some elementary
  obtain ⟨-, -, smallestToo⟩ := graph.isElementary_of_mem found
  rwa [eq_of_smallest_isRotated elementary.distinct smallest smallestToo turned.symm]

theorem cycles_nodup (graph : ModuleGraph codebase) : graph.cycles.Nodup :=
  Cycle.elementary_nodup _ graph.sortedNames_nodup fun name => (graph.mem_searchOrder name).mp

/-- The cycle findings are the elementary cycles of the module relation: each is one, told
from the name whose octets are smallest; each cycle is found in one of its turns, and no list
is found twice. -/
theorem cycleViolations_exact (graph : ModuleGraph codebase) :
    (∀ violation ∈ graph.cycleViolations, violation = Violation.cycle violation.modules ∧
      2 ≤ violation.modules.length ∧ Cycle.IsElementary graph.dependsOn violation.modules ∧
      ∀ name ∈ violation.modules,
        Text.toUtf8 violation.firstModule ≤ Text.toUtf8 name) ∧
    (∀ cycle : List String, 2 ≤ cycle.length → Cycle.IsElementary graph.dependsOn cycle →
      ∃! reported, reported ∈ graph.cycleViolations.map Violation.modules ∧ reported ~r cycle) ∧
    (graph.cycleViolations.map Violation.modules).Nodup := by
  rw [modules_cycleViolations]
  refine ⟨?_, ?_, graph.cycles_nodup⟩
  · intro violation member
    obtain ⟨cycle, found, rfl⟩ := List.mem_map.mp member
    obtain ⟨long, elementary, smallest⟩ := graph.isElementary_of_mem found
    refine ⟨rfl, long, elementary, fun name inside => ?_⟩
    exact Text.toUtf8_le_iff.mpr (smallest name inside)
  · intro cycle long elementary
    have some : cycle ≠ [] := List.ne_nil_of_length_pos (by omega)
    obtain ⟨reported, found, turned⟩ := graph.exists_reported some elementary
    refine ⟨reported, ⟨found, turned⟩, ?_⟩
    rintro other ⟨otherFound, otherTurned⟩
    exact graph.eq_of_reported_isRotated otherFound found (otherTurned.trans turned.symm)

end ModuleBoundary.ModuleGraph
