import ModuleBoundary.Proofs.ModuleGraph.Findings

/-! Dependencies that a module does not declare.

Edges are found by counting references, and what an edge is blamed with is found by sorting the
same references. An edge counts one at least, so there always is a first one to blame it with.
-/

set_option autoImplicit false

namespace ModuleBoundary

variable {codebase : Codebase}

theorem forall₂_filter_filterMap {α β : Type} {related : α → β → Prop} {chosen : α → Bool}
    {make : α → Option β} {items : List α}
    (made : ∀ item ∈ items, chosen item = true → ∃ other, make item = some other ∧ related item other)
    (left : ∀ item ∈ items, chosen item = false → make item = none) :
    List.Forall₂ related (items.filter chosen) (items.filterMap make) := by
  induction items with
  | nil => exact .nil
  | cons item rest ih =>
    obtain ⟨madeFirst, made⟩ := List.forall_mem_cons.mp made
    obtain ⟨leftFirst, left⟩ := List.forall_mem_cons.mp left
    cases picked : chosen item with
    | true =>
      obtain ⟨other, found, holds⟩ := madeFirst picked
      rw [List.filter_cons_of_pos picked, List.filterMap_cons_some found]
      exact .cons holds (ih made left)
    | false =>
      rw [List.filter_cons_of_neg (Bool.eq_false_iff.mp picked),
        List.filterMap_cons_none (leftFirst picked)]
      exact ih made left

/-- The module that an edge comes from has a list of allowed dependencies, and the module it leads
to is in it neither by name nor by base package. -/
def ModuleEdge.IsForbidden (edge : ModuleEdge codebase) : Prop :=
  ∃ allowed, edge.source.definition.allowedDependencies = some allowed ∧
    edge.target.name ∉ allowed ∧ edge.target.basePackage ∉ allowed

theorem ModuleEdge.allows_eq_false_iff {edge : ModuleEdge codebase} :
    edge.source.allows edge.target = false ↔ edge.IsForbidden := by
  unfold ApplicationModule.allows ModuleDefinition.allows IsForbidden
  cases edge.source.definition.allowedDependencies with
  | none => simp
  | some allowed =>
    simp only [Option.all_some, List.any_eq_false, Bool.or_eq_true, beq_iff_eq, not_or,
      Option.some.injEq, exists_eq_left']
    constructor
    · intro others
      exact ⟨fun named => (others _ named).1 rfl, fun based => (others _ based).2 rfl⟩
    · rintro ⟨named, based⟩ entry member
      constructor
      · rintro rfl
        exact named member
      · rintro rfl
        exact based member

instance (edge : ModuleEdge codebase) : Decidable edge.IsForbidden :=
  decidable_of_iff _ ModuleEdge.allows_eq_false_iff

namespace ModuleGraph

/-- The first of some pairs, by source and then by target. -/
structure IsFirst (pairs : Set (String × String)) (pair : String × String) : Prop where
  mem : pair ∈ pairs
  le : ∀ other ∈ pairs, pair.1 < other.1 ∨ pair.1 = other.1 ∧ pair.2 ≤ other.2

/-- A finding that blames an edge tells the first of its references and their number. -/
inductive Blames (graph : ModuleGraph codebase) (edge : ModuleEdge codebase) : Violation → Prop where
  | intro {source target : String} :
      IsFirst (graph.referencePairs edge.source edge.target) (source, target) →
      Blames graph edge (.undeclaredDependency edge.source.name edge.target.name source target
        edge.weight)

theorem mem_evidence (graph : ModuleGraph codebase) {source target : ApplicationModule codebase}
    (known : source ∈ graph.modules) (other : target ∈ graph.modules) {pair : String × String} :
    pair ∈ graph.evidence source.name target.name ↔ pair ∈ graph.referencePairs source target := by
  rw [(graph.evidence_perm source.name target.name).mem_iff, graph.mem_ends_between known other]

theorem length_evidence (graph : ModuleGraph codebase) (source target : String) :
    (graph.evidence source target).length = (graph.between source target).length := by
  rw [(graph.evidence_perm source target).length_eq, List.length_map]

theorem exists_blames_of_isForbidden (graph : ModuleGraph codebase) {edge : ModuleEdge codebase}
    (member : edge ∈ graph.edges) (forbidden : edge.IsForbidden) :
    ∃ violation, graph.undeclaredEdge? edge = some violation ∧ graph.Blames edge violation := by
  obtain ⟨known, other, weighed⟩ := graph.mem_edges.mp member
  obtain ⟨positive, counted⟩ := graph.weight?_eq_some.mp weighed
  rw [← graph.length_evidence] at counted
  -- The weight counts the evidence, so there is some.
  obtain ⟨⟨source, target⟩, first⟩ : ∃ pair,
      (graph.evidence edge.source.name edge.target.name).head? = some pair := by
    rw [counted, Nat.one_le_iff_ne_zero, List.length_eq_zero_iff.ne] at positive
    exact Option.isSome_iff_exists.mp (List.isSome_head?.mpr positive)
  refine ⟨.undeclaredDependency edge.source.name edge.target.name source target edge.weight, ?_,
    .intro ⟨?_, ?_⟩⟩
  · rw [undeclaredEdge?_eq, ModuleEdge.allows_eq_false_iff.mpr forbidden, counted]
    exact Option.map_eq_some_iff.mpr ⟨(source, target), first, rfl⟩
  · exact (graph.mem_evidence known other).mp (List.mem_of_head? first)
  · intro later listed
    rw [← graph.mem_evidence known other] at listed
    exact isLE_compareLex.mp (graph.head_evidence_isLE first listed)

/-- Of the edges, those that are forbidden are blamed, each in one violation and in the order of
the edges, and nothing else is. An edge carries the number of its references, and there is one at
least. -/
theorem undeclaredViolations_exact (graph : ModuleGraph codebase) :
    List.Forall₂ graph.Blames (graph.edges.filter (·.IsForbidden)) graph.undeclaredViolations ∧
    (∀ edge, edge ∈ graph.edges ↔ edge.source ∈ graph.modules ∧ edge.target ∈ graph.modules ∧
      1 ≤ edge.weight ∧ edge.weight = (graph.referencePairs edge.source edge.target).ncard) ∧
    (graph.edges.map fun edge => (edge.source, edge.target)).Nodup := by
  refine ⟨forall₂_filter_filterMap ?_ ?_, fun _ => graph.mem_edges_iff_references,
    graph.edges_distinct⟩
  · intro edge member forbidden
    exact graph.exists_blames_of_isForbidden member (of_decide_eq_true forbidden)
  · intro edge _ permitted
    have allowed := mt ModuleEdge.allows_eq_false_iff.mp (of_decide_eq_false permitted)
    rw [undeclaredEdge?_eq, Bool.eq_true_of_not_eq_false allowed]
    rfl

end ModuleGraph

end ModuleBoundary
