import ModuleBoundary.Proofs.ModuleGraph.Cycles
import ModuleBoundary.Proofs.Report

/-! What the rules find in a module graph.

Findings of one rule are told apart by what they name: cycles by their modules, undeclared
dependencies by the two modules, accesses to internals by the two classes. No finding is made
twice, so a report loses none when it merges equal neighbours.
-/

set_option autoImplicit false

namespace ModuleBoundary

theorem RuleSet.enabled_nodup (rules : RuleSet) : (Rule.all.filter rules.enables).Nodup :=
  List.Nodup.filter _ (by decide)

namespace ModuleGraph

variable {codebase : Codebase} {points : ExtensionPoints} {violation : Violation}

/-- Pairs of class names, by source and then by target. -/
def pairOrder : String × String → String × String → Ordering :=
  compareLex (compareOn Prod.fst) (compareOn Prod.snd)

instance : Std.TransCmp pairOrder := inferInstanceAs (Std.TransCmp (compareLex _ _))

theorem eq_of_pairOrder_eq {first second : String × String}
    (level : pairOrder first second = .eq) : first = second := by
  simp only [pairOrder, compareLex, compareOn, Ordering.then_eq_eq, Std.compare_eq_iff_eq] at level
  exact Prod.ext level.1 level.2

/-- The class names of the crossings between two modules, in ascending order. -/
def evidence (graph : ModuleGraph codebase) (source target : String) : List (String × String) :=
  ((graph.between source target).map ends).mergeSort fun first second =>
    (pairOrder first second).isLE

theorem undeclaredEdge?_eq (graph : ModuleGraph codebase) (edge : ModuleEdge codebase) :
    graph.undeclaredEdge? edge =
      if edge.source.allows edge.target then none
      else
        let pairs := graph.evidence edge.source.name edge.target.name
        pairs.head?.map fun pair =>
          .undeclaredDependency edge.source.name edge.target.name pair.1 pair.2 pairs.length := by
  have sorted : ((graph.between edge.source.name edge.target.name).mergeSort fun first second =>
      (evidenceOrder first second).isLE).map ends =
        graph.evidence edge.source.name edge.target.name :=
    List.map_mergeSort fun _ _ _ _ => rfl
  simp only [undeclaredEdge?, ← sorted, List.head?_map, Option.map_map, List.length_map]
  rfl

theorem evidence_perm (graph : ModuleGraph codebase) (source target : String) :
    (graph.evidence source target).Perm ((graph.between source target).map ends) :=
  List.mergeSort_perm ..

theorem evidence_nodup (graph : ModuleGraph codebase) (source target : String) :
    (graph.evidence source target).Nodup :=
  (graph.evidence_perm source target).nodup_iff.mpr
    (graph.classDependencies_distinct.sublist (List.filter_sublist.map ends))

/-- The first piece of evidence. -/
theorem head_evidence_isLE (graph : ModuleGraph codebase) {source target : String}
    {first pair : String × String} (found : (graph.evidence source target).head? = some first)
    (listed : pair ∈ graph.evidence source target) : (pairOrder first pair).isLE := by
  obtain ⟨rest, pairs⟩ := List.head?_eq_some_iff.mp found
  have ascending : (graph.evidence source target).Pairwise fun first second =>
      (pairOrder first second).isLE := mergeSort_pairwise
  rw [pairs] at ascending listed
  exact head_isLE ascending listed

/-- A finding that is about one crossing names its classes and their owners. -/
structure IsAbout (violation : Violation) (crossing : ClassDependency codebase) : Prop where
  modules : violation.modules = [crossing.sourceModule.name, crossing.targetModule.name]
  source : violation.source = some crossing.source.name
  target : violation.target = some crossing.target.name

theorem mem_undeclaredViolations (graph : ModuleGraph codebase) :
    violation ∈ graph.undeclaredViolations ↔
      ∃ edge ∈ graph.edges, graph.undeclaredEdge? edge = some violation :=
  List.mem_filterMap

theorem modules_of_undeclaredEdge? {graph : ModuleGraph codebase} {edge : ModuleEdge codebase}
    (found : graph.undeclaredEdge? edge = some violation) :
    violation.modules = [edge.source.name, edge.target.name] := by
  rw [undeclaredEdge?_eq] at found
  split at found
  · cases found
  · obtain ⟨pair, _, rfl⟩ := Option.map_eq_some_iff.mp found
    rfl

theorem exists_crossing_of_undeclared (graph : ModuleGraph codebase)
    (found : violation ∈ graph.undeclaredViolations) :
    ∃ crossing ∈ graph.classDependencies, IsAbout violation crossing := by
  obtain ⟨edge, _, found⟩ := graph.mem_undeclaredViolations.mp found
  rw [undeclaredEdge?_eq] at found
  split at found
  · cases found
  · obtain ⟨pair, first, rfl⟩ := Option.map_eq_some_iff.mp found
    have listed := (graph.evidence_perm _ _).mem_iff.mp (List.mem_of_head? first)
    obtain ⟨crossing, member, rfl⟩ := List.mem_map.mp listed
    obtain ⟨known, named⟩ := List.mem_filter.mp member
    obtain ⟨source, target⟩ := Bool.and_eq_true_iff.mp named
    refine ⟨crossing, known, ?_, rfl, rfl⟩
    rw [beq_iff_eq.mp source, beq_iff_eq.mp target]
    rfl

theorem mem_internalViolations (graph : ModuleGraph codebase) :
    violation ∈ graph.internalViolations points ↔
      ∃ crossing, graph.IsCrossing crossing ∧
        crossing.targetModule.isExposed crossing.target.name = false ∧
        points.include codebase.classes crossing.target.name = false ∧
        violation = .internalAccess crossing.sourceModule.name crossing.targetModule.name
          crossing.source.name crossing.target.name := by
  simp only [internalViolations, List.mem_map, List.mem_filter, mem_classDependencies,
    Bool.and_eq_true, Bool.not_eq_true', and_assoc]
  constructor
  · rintro ⟨crossing, crossed, hidden, closed, rfl⟩
    exact ⟨crossing, crossed, hidden, closed, rfl⟩
  · rintro ⟨crossing, crossed, hidden, closed, rfl⟩
    exact ⟨crossing, crossed, hidden, closed, rfl⟩

theorem exists_crossing_of_internal (graph : ModuleGraph codebase)
    (found : violation ∈ graph.internalViolations points) :
    ∃ crossing ∈ graph.classDependencies, IsAbout violation crossing := by
  obtain ⟨crossing, crossed, -, -, rfl⟩ := graph.mem_internalViolations.mp found
  exact ⟨crossing, graph.mem_classDependencies.mpr crossed, rfl, rfl, rfl⟩

/-! Findings are told apart. -/

theorem edges_named_once (graph : ModuleGraph codebase) :
    (graph.edges.map fun edge => (edge.source.name, edge.target.name)).Nodup := by
  have named := graph.arrows_distinct
  rw [toNamedGraph, List.map_map] at named
  exact named

theorem undeclaredViolations_once (graph : ModuleGraph codebase) :
    (graph.undeclaredViolations.map Violation.modules).Nodup := by
  rw [undeclaredViolations, List.map_filterMap]
  refine List.pairwise_filterMap.mpr ((List.pairwise_map.mp graph.edges_named_once).imp ?_)
  intro edge other different modules named modulesToo namedToo same
  -- What is found on an edge names its ends, and no two edges have both ends in common.
  obtain ⟨violation, found, rfl⟩ := Option.map_eq_some_iff.mp named
  obtain ⟨violationToo, foundToo, rfl⟩ := Option.map_eq_some_iff.mp namedToo
  rw [modules_of_undeclaredEdge? found, modules_of_undeclaredEdge? foundToo] at same
  simp only [List.cons.injEq, and_true] at same
  exact different (Prod.ext same.1 same.2)

theorem internalViolations_once (graph : ModuleGraph codebase) (points : ExtensionPoints) :
    ((graph.internalViolations points).map fun violation =>
      (violation.source, violation.target)).Nodup := by
  have listed : ((graph.internalViolations points).map fun violation =>
      (violation.source, violation.target)) =
      ((graph.classDependencies.filter fun crossing =>
        !crossing.targetModule.isExposed crossing.target.name &&
          !points.include codebase.classes crossing.target.name).map ends).map
        fun (source, target) => (some source, some target) := by
    simp only [internalViolations, List.map_map]
    rfl
  rw [listed]
  refine List.Nodup.map ?_ (graph.classDependencies_distinct.sublist (List.filter_sublist.map ends))
  rintro ⟨source, target⟩ ⟨sourceToo, targetToo⟩ same
  simpa using same

theorem findings_nodup (graph : ModuleGraph codebase) (points : ExtensionPoints) (rule : Rule) :
    (graph.findings points rule).Nodup := by
  cases rule with
  | cycle =>
    have distinct := graph.cycles_nodup
    rw [← graph.modules_cycleViolations] at distinct
    exact distinct.of_map
  | undeclaredDependency => exact graph.undeclaredViolations_once.of_map
  | internalAccess => exact (graph.internalViolations_once points).of_map

theorem exists_crossing_of_mem_findings (graph : ModuleGraph codebase) {rule : Rule}
    (crosses : rule ≠ .cycle) (found : violation ∈ graph.findings points rule) :
    ∃ crossing ∈ graph.classDependencies, IsAbout violation crossing := by
  cases rule with
  | cycle => exact absurd rfl crosses
  | undeclaredDependency => exact graph.exists_crossing_of_undeclared found
  | internalAccess => exact graph.exists_crossing_of_internal found

/-- The report order tells findings of one rule apart, other than cycles. Two cycles may have
one message, if a name of a module reads like a piece of it. -/
theorem findings_apart (graph : ModuleGraph codebase) {rule : Rule} (crosses : rule ≠ .cycle)
    {first second : Violation} (found : first ∈ graph.findings points rule)
    (foundToo : second ∈ graph.findings points rule) (level : first.order second = .eq) :
    first = second := by
  obtain ⟨crossing, member, about⟩ := graph.exists_crossing_of_mem_findings crosses found
  obtain ⟨other, memberToo, aboutToo⟩ := graph.exists_crossing_of_mem_findings crosses foundToo
  obtain ⟨source, target⟩ := Violation.classes_eq_of_order_eq level
  rw [about.source, aboutToo.source] at source
  rw [about.target, aboutToo.target] at target
  -- Findings that are level name the same two classes, which only one crossing joins.
  have same : crossing = other :=
    List.inj_on_of_nodup_map graph.classDependencies_distinct member memberToo
      (Prod.ext source target)
  subst same
  cases rule with
  | cycle => exact absurd rfl crosses
  | undeclaredDependency =>
    refine List.inj_on_of_nodup_map graph.undeclaredViolations_once found foundToo ?_
    rw [about.modules, aboutToo.modules]
  | internalAccess =>
    refine List.inj_on_of_nodup_map (graph.internalViolations_once points) found foundToo ?_
    rw [about.source, about.target, aboutToo.source, aboutToo.target]

theorem rule_of_mem_findings (graph : ModuleGraph codebase) {rule : Rule}
    (found : violation ∈ graph.findings points rule) : violation.rule = rule := by
  cases rule with
  | cycle =>
    obtain ⟨cycle, _, rfl⟩ := List.mem_map.mp found
    rfl
  | undeclaredDependency =>
    obtain ⟨edge, _, found⟩ := graph.mem_undeclaredViolations.mp found
    rw [undeclaredEdge?_eq] at found
    split at found
    · cases found
    · obtain ⟨pair, _, rfl⟩ := Option.map_eq_some_iff.mp found
      rfl
  | internalAccess =>
    obtain ⟨crossing, -, -, -, rfl⟩ := graph.mem_internalViolations.mp found
    rfl

/-- What the enabled rules find, rule by rule. -/
def enabledFindings (graph : ModuleGraph codebase) (rules : RuleSet) (points : ExtensionPoints) :
    List Violation :=
  (Rule.all.filter rules.enables).flatMap (graph.findings points)

theorem enabledFindings_eq (graph : ModuleGraph codebase) (rules : RuleSet)
    (points : ExtensionPoints) :
    graph.enabledFindings rules points =
      (if rules.cycles then graph.cycleViolations else []) ++
      (if rules.undeclaredDependencies then graph.undeclaredViolations else []) ++
      (if rules.internalAccess then graph.internalViolations points else []) := by
  obtain ⟨cycles, undeclared, internal⟩ := rules
  cases cycles <;> cases undeclared <;> cases internal <;>
    simp [enabledFindings, Rule.all, List.filter_cons, RuleSet.enables, findings]

theorem enabledFindings_nodup (graph : ModuleGraph codebase) (rules : RuleSet)
    (points : ExtensionPoints) : (graph.enabledFindings rules points).Nodup := by
  rw [enabledFindings, List.nodup_flatMap]
  refine ⟨fun rule _ => graph.findings_nodup points rule, ?_⟩
  refine rules.enabled_nodup.imp fun different violation found foundToo => different ?_
  rw [← graph.rule_of_mem_findings found, ← graph.rule_of_mem_findings foundToo]

theorem findings_filter (graph : ModuleGraph codebase) (points : ExtensionPoints)
    (chosen : Rule → Bool) (rule : Rule) :
    (graph.findings points rule).filter (chosen ·.rule) =
      if chosen rule then graph.findings points rule else [] := by
  split
  · next kept =>
    rw [List.filter_eq_self]
    intro violation found
    rw [graph.rule_of_mem_findings found, kept]
  · next left =>
    rw [List.filter_eq_nil_iff]
    intro violation found
    rw [graph.rule_of_mem_findings found]
    exact left

theorem enabledFindings_filter (graph : ModuleGraph codebase) (rules : RuleSet)
    (points : ExtensionPoints) (rule : Rule) :
    (graph.enabledFindings rules points).filter (·.rule = rule) =
      if rules.enables rule then graph.findings points rule else [] := by
  have apart (other : Rule) : (graph.findings points other).filter (·.rule = rule) =
      if other = rule then graph.findings points rule else [] := by
    rw [graph.findings_filter points (· = rule)]
    by_cases same : other = rule <;> simp [same]
  rw [enabledFindings, List.filter_flatMap]
  simp only [apart, flatMap_only rules.enabled_nodup, List.mem_filter, Rule.mem_all, true_and]

/-- What a report tells of a rule is what that rule finds, if it is enabled. -/
theorem ofRule_verify (graph : ModuleGraph codebase) (rules : RuleSet) (points : ExtensionPoints)
    (rule : Rule) :
    (graph.verify rules points).ofRule rule =
      if rules.enables rule then (Report.ofFindings (graph.findings points rule)).entries else [] := by
  change (Report.ofFindings (graph.enabledFindings rules points)).entries.filter (·.rule = rule) = _
  rw [← Report.entries_filter (graph.enabledFindings_nodup rules points), enabledFindings_filter]
  split
  · rfl
  · simp [Report.ofFindings, mergeNeighbours]

/-- The enabled rules find what is found of them when every rule is applied. -/
theorem enabledFindings_eq_filter (graph : ModuleGraph codebase) (rules : RuleSet)
    (points : ExtensionPoints) :
    graph.enabledFindings rules points =
      (graph.enabledFindings {} points).filter (rules.enables ·.rule) := by
  have all : Rule.all.filter (RuleSet.enables {}) = Rule.all := by decide
  rw [enabledFindings, enabledFindings, all, List.filter_flatMap]
  simp only [findings_filter]
  induction Rule.all with
  | nil => rfl
  | cons rule rest ih =>
    rw [List.flatMap_cons, ← ih, List.filter_cons]
    split <;> simp

/-- Rules can be switched off one by one: the report loses their violations, and those of the
other rules stay as they are and where they are. -/
theorem verify_eq_filter_of_all (graph : ModuleGraph codebase) (rules : RuleSet)
    (points : ExtensionPoints) :
    (graph.verify rules points).entries =
      (graph.verify {} points).entries.filter (rules.enables ·.rule) := by
  change (Report.ofFindings (graph.enabledFindings rules points)).entries =
    (Report.ofFindings (graph.enabledFindings {} points)).entries.filter _
  rw [enabledFindings_eq_filter, Report.entries_filter (graph.enabledFindings_nodup {} points)]

/-- A report holds what the enabled rules find, each finding once, by rule, first module,
source and target. -/
theorem verify_holds_findings_once (graph : ModuleGraph codebase) (rules : RuleSet)
    (points : ExtensionPoints) :
    (graph.verify rules points).entries.Perm
      ((if rules.cycles then graph.cycleViolations else []) ++
      (if rules.undeclaredDependencies then graph.undeclaredViolations else []) ++
      (if rules.internalAccess then graph.internalViolations points else [])) ∧
    (graph.verify rules points).entries.Nodup ∧
    (graph.verify rules points).entries.Pairwise Violation.MayPrecede := by
  have distinct := graph.enabledFindings_nodup rules points
  have all : (graph.verify rules points).entries.Perm (graph.enabledFindings rules points) :=
    Report.entries_perm distinct
  rw [← enabledFindings_eq]
  exact ⟨all, all.nodup_iff.mpr distinct, Report.entries_pairwise distinct⟩

end ModuleGraph

end ModuleBoundary
