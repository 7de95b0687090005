import ModuleBoundary.Proofs.ClassGraph.Agreement
import ModuleBoundary.Proofs.ModuleGraph.Comparison
import ModuleBoundary.Proofs.Report.Canonical

/-! Classes that refer to more.

References decide which crossings there are, and nothing else. With more of them no crossing is
lost, so that every cycle stays a cycle, every access to internals stays one, and whatever a module
is blamed for it is blamed for still, with more evidence and none of it later than the first.
-/

set_option autoImplicit false

namespace ModuleBoundary

/-- A finding names its modules and classes, and its message tells the count. -/
theorem Violation.undeclaredDependency_inj
    {module dependency source target module' dependency' source' target' : String}
    {occurrences occurrences' : Nat} :
    undeclaredDependency module dependency source target occurrences =
      undeclaredDependency module' dependency' source' target' occurrences' ↔
    module = module' ∧ dependency = dependency' ∧ source = source' ∧ target = target' ∧
      occurrences = occurrences' := by
  constructor
  · intro same
    simp only [undeclaredDependency, mk.injEq, List.cons.injEq, Option.some.injEq, and_true,
      true_and] at same
    obtain ⟨⟨rfl, rfl⟩, rfl, rfl, message⟩ := same
    have digits : Nat.toDigits 10 occurrences = Nat.toDigits 10 occurrences' := by
      simpa [String.toList_append] using congrArg String.toList message
    have count : occurrences = occurrences' :=
      calc occurrences
        _ = Nat.ofDigitChars 10 (Nat.toDigits 10 occurrences) 0 := Nat.ofDigitChars_ten_toDigits.symm
        _ = Nat.ofDigitChars 10 (Nat.toDigits 10 occurrences') 0 := by rw [digits]
        _ = occurrences' := Nat.ofDigitChars_ten_toDigits
    exact ⟨rfl, rfl, rfl, rfl, count⟩
  · rintro ⟨rfl, rfl, rfl, rfl, rfl⟩
    rfl

/-- A report that tells whatever another does. Undeclared dependencies may be told with more
references and with an earlier one for an example. -/
structure Report.Outdoes (after before : Report) : Prop where
  cycles : before.ofRule .cycle ⊆ after.ofRule .cycle
  accesses : before.ofRule .internalAccess ⊆ after.ofRule .internalAccess
  counted : ∀ violation ∈ before.ofRule .undeclaredDependency,
    ∃ module dependency source target occurrences,
      violation = .undeclaredDependency module dependency source target occurrences
  undeclared : ∀ {module dependency source target occurrences},
    .undeclaredDependency module dependency source target occurrences ∈
        before.ofRule .undeclaredDependency →
      ∃ source' target' occurrences',
        .undeclaredDependency module dependency source' target' occurrences' ∈
          after.ofRule .undeclaredDependency ∧
        occurrences ≤ occurrences' ∧ (source' < source ∨ source' = source ∧ target' ≤ target)

/-- A class differs from another in nothing but further references. -/
inductive ClassDescriptor.RefersMore (descriptor : ClassDescriptor) : ClassDescriptor → Prop where
  | intro (references : NameSet)
      (kept : ∀ reference ∈ descriptor.references, reference ∈ references) :
      RefersMore descriptor { descriptor with references }

namespace ClassDescriptor

theorem refersMore_self (descriptor : ClassDescriptor) : descriptor.RefersMore descriptor :=
  .intro descriptor.references fun _ => id

theorem refersMore_withReference (descriptor : ClassDescriptor) (target : String) :
    descriptor.RefersMore (descriptor.withReference target) :=
  .intro _ fun _ listed => NameSet.mem_insert.mpr (.inr listed)

end ClassDescriptor

theorem find?_of_forall₂ {α β : Type} {related : α → β → Prop} {wanted : α → Bool}
    {wantedToo : β → Bool} (agree : ∀ item other, related item other → wanted item = wantedToo other)
    {items : List α} {others : List β} (pairs : List.Forall₂ related items others) :
    Option.Rel related (items.find? wanted) (others.find? wantedToo) := by
  induction pairs with
  | nil => exact .none
  | cons pair _ ih =>
    rw [List.find?_cons, List.find?_cons, agree _ _ pair]
    split
    · exact .some pair
    · exact ih

/-- The same classes in the same order, of which some refer to more. -/
def ClassGraph.Enriches (classes richer : ClassGraph) : Prop :=
  List.Forall₂ ClassDescriptor.RefersMore classes.classes richer.classes

namespace ClassGraph.Enriches

variable {classes richer : ClassGraph} (enriches : Enriches classes richer)
include enriches

theorem get? (name : String) :
    Option.Rel ClassDescriptor.RefersMore (classes.get? name) (richer.get? name) := by
  rw [get?_eq_find?, get?_eq_find?]
  exact find?_of_forall₂ (fun _ _ more => by cases more; rfl) enriches

theorem exists_get? {name : String} {descriptor : ClassDescriptor}
    (found : classes.get? name = some descriptor) :
    ∃ counterpart, richer.get? name = some counterpart ∧ descriptor.RefersMore counterpart := by
  have pair := enriches.get? name
  rw [found] at pair
  generalize richer.get? name = answer at pair ⊢
  cases pair with
  | some more => exact ⟨_, rfl, more⟩

theorem packages (base : String) :
    (classes.residents base).map ClassDescriptor.package =
      (richer.residents base).map ClassDescriptor.package := by
  have all : classes.classes.map ClassDescriptor.package =
      richer.classes.map ClassDescriptor.package := by
    rw [← List.forall₂_eq_eq_eq, List.forall₂_map_left_iff, List.forall₂_map_right_iff]
    exact List.Forall₂.imp (fun _ _ more => by cases more; rfl) enriches
  have chosen := congrArg (List.filter (Package.contains base)) all
  rwa [List.filter_map, List.filter_map] at chosen

theorem agreesOn : AgreesOn (fun _ => True) classes richer where
  supertypes name _ := by
    have pair := enriches.get? name
    generalize classes.get? name = answer, richer.get? name = answerToo at pair ⊢
    cases pair with
    | none => rfl
    | some more =>
      cases more
      rfl
  closed _ _ _ _ _ _ := trivial

theorem marks_eq {descriptor counterpart : ClassDescriptor}
    (more : descriptor.RefersMore counterpart) {marker : Marker} (plain : marker.predicates = []) :
    marker.marks classes descriptor = marker.marks richer counterpart := by
  cases more
  exact enriches.agreesOn.marks_eq rfl rfl rfl (fun _ _ => trivial) (by simp [plain])

end ClassGraph.Enriches

namespace ModuleGraph

variable {codebase : Codebase}

section
variable {classes richer : ClassGraph} {markers : MarkerSet} {points : ExtensionPoints}
  {graph : ModuleGraph ⟨classes, markers⟩} {other : ModuleGraph ⟨richer, markers⟩}
  (enriches : classes.Enriches richer) (defined : graph.definitions = other.definitions)
include enriches defined

theorem embedsIn_of_enriches : graph.EmbedsIn other where
  classes name descriptor found := by
    obtain ⟨counterpart, foundToo, ⟨references, kept⟩⟩ := enriches.exists_get? found
    exact ⟨_, foundToo, kept⟩
  owners name owner owned := by
    obtain ⟨descriptor, found, owned⟩ := Option.bind_eq_some_iff.mp owned
    obtain ⟨counterpart, foundToo, more⟩ := enriches.exists_get? found
    have housed : descriptor.package = counterpart.package := by
      cases more
      rfl
    have same := ownerOfClass?_definition defined housed
    rw [owned, Option.map_some, eq_comm, Option.map_eq_some_iff] at same
    obtain ⟨ownerToo, ownedToo, same⟩ := same
    exact ⟨ownerToo, Option.bind_eq_some_iff.mpr ⟨counterpart, foundToo, ownedToo⟩, same⟩

theorem evidence_subset (source target : String) :
    graph.evidence source target ⊆ other.evidence source target := by
  have outlines := (embedsIn_of_enriches enriches defined).outlines_subset
  intro pair listed
  rw [(graph.evidence_perm source target).mem_iff, ends_between] at listed
  rw [(other.evidence_perm source target).mem_iff, ends_between]
  exact List.map_subset _ (List.filter_subset _ outlines) listed

theorem dependsOn_of_enriches {source target : String}
    (depends : graph.dependsOn source target = true) : other.dependsOn source target = true := by
  obtain ⟨pair, listed⟩ := graph.dependsOn_iff_evidence.mp depends
  exact other.dependsOn_iff_evidence.mpr ⟨pair, evidence_subset enriches defined _ _ listed⟩

theorem cycleViolations_subset : graph.cycleViolations ⊆ other.cycleViolations := by
  apply List.map_subset
  intro cycle found
  obtain ⟨long, elementary, smallest⟩ := graph.mem_cycles_iff.mp found
  have closed := elementary.closed.imp fun _ _ => dependsOn_of_enriches enriches defined
  exact other.mem_cycles_iff.mpr ⟨long, ⟨elementary.distinct, closed⟩, smallest⟩

theorem internalViolations_subset (exposed : markers.exposed.predicates = [])
    (component : markers.component.predicates = []) (extension : points.marker.predicates = []) :
    graph.internalViolations points ⊆ other.internalViolations points := by
  have agrees : graph.AgreesOnTargets ⟨richer, markers⟩ points := by
    intro crossing member
    obtain ⟨counterpart, found, more⟩ :=
      enriches.exists_get? (graph.mem_classDependencies.mp member).target
    refine ⟨counterpart, found, ?_, ?_, enriches.marks_eq more exposed,
      enriches.marks_eq more component, enriches.marks_eq more extension⟩
    · cases more
      rfl
    · cases more
      rfl
  have outlines := (embedsIn_of_enriches enriches defined).outlines_subset
  rw [internalViolations_outlines, internalViolations_outlines,
    List.filter_congr fun _ => agrees.isClosed_eq]
  exact List.map_subset _ (List.filter_subset _ outlines)

theorem exists_undeclared_of_enriches {module dependency source target : String} {occurrences : Nat}
    (found : .undeclaredDependency module dependency source target occurrences ∈
      graph.undeclaredViolations) :
    ∃ source' target' occurrences',
      .undeclaredDependency module dependency source' target' occurrences' ∈
        other.undeclaredViolations ∧
      occurrences ≤ occurrences' ∧ (source' < source ∨ source' = source ∧ target' ≤ target) := by
  obtain ⟨blamed, known, needed, knownToo, forbidden, pair, first, same⟩ :=
    graph.mem_undeclaredViolations_iff.mp found
  obtain ⟨rfl, rfl, rfl, rfl, rfl⟩ := Violation.undeclaredDependency_inj.mp same
  rw [defined] at known knownToo
  -- The evidence is still there, behind whatever comes first now.
  have kept := evidence_subset enriches defined blamed.name needed.name
  have listed := kept (List.mem_of_head? first)
  obtain ⟨earliest, firstToo⟩ : ∃ earliest,
      (other.evidence blamed.name needed.name).head? = some earliest :=
    Option.isSome_iff_exists.mp (List.isSome_head?.mpr (List.ne_nil_of_mem listed))
  refine ⟨earliest.1, earliest.2, (other.evidence blamed.name needed.name).length,
    other.mem_undeclaredViolations_iff.mpr
      ⟨blamed, known, needed, knownToo, forbidden, earliest, firstToo, rfl⟩, ?_, ?_⟩
  · exact (List.subperm_of_subset (graph.evidence_nodup _ _) kept).length_le
  · exact isLE_compareLex.mp (other.head_evidence_isLE firstToo listed)

end

theorem mem_ofRule_verify (graph : ModuleGraph codebase) {rules : RuleSet} {points : ExtensionPoints}
    {rule : Rule} {violation : Violation} :
    violation ∈ (graph.verify rules points).ofRule rule ↔
      rules.enables rule = true ∧ violation ∈ graph.findings points rule := by
  rw [ofRule_verify]
  split
  · next enabled => rw [Report.mem_entries, and_iff_right enabled]
  · next disabled => simp [disabled]

theorem verify_outdoes {classes richer : ClassGraph} {markers : MarkerSet} {points : ExtensionPoints}
    {graph : ModuleGraph ⟨classes, markers⟩} {other : ModuleGraph ⟨richer, markers⟩}
    (enriches : classes.Enriches richer) (defined : graph.definitions = other.definitions)
    (exposed : markers.exposed.predicates = []) (component : markers.component.predicates = [])
    (extension : points.marker.predicates = []) (rules : RuleSet) :
    (other.verify rules points).Outdoes (graph.verify rules points) where
  cycles violation reported := by
    obtain ⟨enabled, found⟩ := graph.mem_ofRule_verify.mp reported
    exact other.mem_ofRule_verify.mpr ⟨enabled, cycleViolations_subset enriches defined found⟩
  accesses violation reported := by
    obtain ⟨enabled, found⟩ := graph.mem_ofRule_verify.mp reported
    exact other.mem_ofRule_verify.mpr
      ⟨enabled, internalViolations_subset enriches defined exposed component extension found⟩
  counted violation reported := by
    obtain ⟨-, found⟩ := graph.mem_ofRule_verify.mp reported
    obtain ⟨_, _, _, _, _, _, _, rfl⟩ := graph.mem_undeclaredViolations_iff.mp found
    exact ⟨_, _, _, _, _, rfl⟩
  undeclared reported := by
    obtain ⟨enabled, found⟩ := graph.mem_ofRule_verify.mp reported
    obtain ⟨source, target, occurrences, foundToo, outdone⟩ :=
      exists_undeclared_of_enriches enriches defined found
    exact ⟨source, target, occurrences, other.mem_ofRule_verify.mpr ⟨enabled, foundToo⟩, outdone⟩

end ModuleGraph

/-- A new reference hides no violation. Where classes come to refer to more, the modules are
discovered as before or fail for the same cause, and the report tells whatever it told before.
Predicates of markers see references, and so there must be none. -/
theorem more_references_hide_no_violation {classes richer : ClassGraph}
    (enriches : classes.Enriches richer) (markers : MarkerSet) (points : ExtensionPoints)
    (exposed : markers.exposed.predicates = []) (component : markers.component.predicates = [])
    (extension : points.marker.predicates = []) (base : String)
    (overrides : List (String × ModuleDefinition)) (rules : RuleSet) :
    (∃ cause, ModuleGraph.discover ⟨classes, markers⟩ base overrides = .error cause ∧
      ModuleGraph.discover ⟨richer, markers⟩ base overrides = .error cause) ∨
    ∃ graph other, ModuleGraph.discover ⟨classes, markers⟩ base overrides = .ok graph ∧
      ModuleGraph.discover ⟨richer, markers⟩ base overrides = .ok other ∧
      (other.verify rules points).Outdoes (graph.verify rules points) := by
  refine (ModuleGraph.discover_cases (.of_eq (enriches.packages base))).imp id ?_
  rintro ⟨graph, other, discovered, discoveredToo, defined⟩
  exact ⟨graph, other, discovered, discoveredToo,
    ModuleGraph.verify_outdoes enriches defined exposed component extension rules⟩

/-- An order and a shelf that reach for each other, and a pallet. -/
def shelvedOrder : ClassGraph :=
  (ClassGraph.ofList [
    (ClassDescriptor.named "shop.order.Order").withReference "shop.stock.room.Shelf",
    (ClassDescriptor.named "shop.stock.room.Shelf").withReference "shop.order.Order",
    .named "shop.stock.hall.Pallet"]).toOption.get (by decide +kernel)

/-- The order reaches for the pallet too, and the pallet for the order. -/
def palletOrder : ClassGraph :=
  (ClassGraph.ofList [
    ((ClassDescriptor.named "shop.order.Order").withReference "shop.stock.room.Shelf").withReference
      "shop.stock.hall.Pallet",
    (ClassDescriptor.named "shop.stock.room.Shelf").withReference "shop.order.Order",
    (ClassDescriptor.named "shop.stock.hall.Pallet").withReference "shop.order.Order"]).toOption.get (by decide +kernel)

theorem report_of_pallet_order :
    let overrides : List (String × ModuleDefinition) :=
      [("order", { basePackage := "", allowedDependencies := some [] })]
    let found (classes : ClassGraph) :=
      (ModuleGraph.discover ⟨classes, {}⟩ "shop" overrides).map fun graph =>
        (graph.edges.map ModuleEdge.named, (graph.internalViolations {}).map (·.target))
    shelvedOrder.Enriches palletOrder ∧
    found shelvedOrder = .ok ([("order", "stock", 1), ("stock", "order", 1)],
      [some "shop.stock.room.Shelf"]) ∧
    found palletOrder = .ok ([("order", "stock", 2), ("stock", "order", 2)],
      [some "shop.stock.hall.Pallet", some "shop.stock.room.Shelf"]) ∧
    ∃ graph other, ModuleGraph.discover ⟨shelvedOrder, {}⟩ "shop" overrides = .ok graph ∧
      ModuleGraph.discover ⟨palletOrder, {}⟩ "shop" overrides = .ok other ∧
      (other.verify {} {}).Outdoes (graph.verify {} {}) := by
  intro overrides found
  have enriches : shelvedOrder.Enriches palletOrder :=
    .cons (ClassDescriptor.refersMore_withReference ..) <|
      .cons (ClassDescriptor.refersMore_self _) <|
        .cons (ClassDescriptor.refersMore_withReference ..) .nil
  refine ⟨enriches, by decide +kernel, by decide +kernel, ?_⟩
  have clear : ModuleGraph.obstacle? ⟨shelvedOrder, {}⟩ "shop" = none := by decide +kernel
  obtain ⟨_, discovered⟩ := ModuleGraph.exists_discover.mpr clear
  rcases more_references_hide_no_violation enriches {} {} rfl rfl rfl "shop" overrides {} with
    ⟨cause, failed, -⟩ | hidden
  · rw [discovered] at failed
    cases failed
  · exact hidden

end ModuleBoundary
