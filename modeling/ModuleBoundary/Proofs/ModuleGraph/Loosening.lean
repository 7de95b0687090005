import ModuleBoundary.Proofs.ClassGraph.Inheritance
import ModuleBoundary.Proofs.ModuleGraph.Declarations

/-! Settings that forbid less.

A marker, a list of extension points or a list of allowed dependencies may be added to, and a
list of allowed dependencies may be dropped. Modules, edges and cycles stay. More classes are
marked and more edges allowed, so that every finding of the looser settings is one of the
stricter, and their report tells it in the same place.
-/

set_option autoImplicit false

namespace ModuleBoundary

/-- Names and predicates are only added to a marker. -/
structure Marker.WidensTo (marker wider : Marker) : Prop where
  annotations : ∀ name ∈ marker.annotations, name ∈ wider.annotations
  supertypes : ∀ name ∈ marker.supertypes, name ∈ wider.supertypes
  types : ∀ name ∈ marker.types, name ∈ wider.types
  predicates : ∀ predicate ∈ marker.predicates, predicate ∈ wider.predicates

theorem Marker.WidensTo.refl (marker : Marker) : marker.WidensTo marker :=
  ⟨fun _ => id, fun _ => id, fun _ => id, fun _ => id⟩

theorem Marker.marks_of_widensTo {marker wider : Marker} (widens : marker.WidensTo wider)
    {classes : ClassGraph} {descriptor : ClassDescriptor}
    (marked : marker.marks classes descriptor = true) : wider.marks classes descriptor = true := by
  rw [marks_iff] at marked ⊢
  rcases marked with named | ⟨carried, member, asked⟩ | ⟨supertype, asked, inherited⟩ |
    ⟨predicate, asked, accepted⟩
  · exact .inl (widens.types _ named)
  · exact .inr (.inl ⟨carried, member, widens.annotations _ asked⟩)
  · exact .inr (.inr (.inl ⟨supertype, widens.supertypes _ asked, inherited⟩))
  · exact .inr (.inr (.inr ⟨predicate, widens.predicates _ asked, accepted⟩))

/-- Patterns are only added to extension points, and their marker only widens. -/
structure ExtensionPoints.WidensTo (points wider : ExtensionPoints) : Prop where
  patterns : points.patterns ⊆ wider.patterns
  marker : points.marker.WidensTo wider.marker

theorem ExtensionPoints.WidensTo.refl (points : ExtensionPoints) : points.WidensTo points :=
  ⟨fun _ => id, .refl _⟩

theorem ExtensionPoints.include_of_widensTo {points wider : ExtensionPoints}
    (widens : points.WidensTo wider) {classes : ClassGraph} {typeName : String}
    (included : points.include classes typeName = true) :
    wider.include classes typeName = true := by
  simp only [ExtensionPoints.include, Bool.or_eq_true, List.any_eq_true, Option.any_eq_true]
    at included ⊢
  rcases included with ⟨pattern, listed, matched⟩ | ⟨descriptor, found, marked⟩
  · exact .inl ⟨pattern, widens.patterns listed, matched⟩
  · exact .inr ⟨descriptor, found, Marker.marks_of_widensTo widens.marker marked⟩

namespace ModuleGraph

/-- Whoever has a list of allowed dependencies had one before, and each of its entries is kept. -/
def AllowsMore (overrides looser : List (String × ModuleDefinition)) : Prop :=
  ∀ name allowed, allowance looser name = some allowed →
    ∃ before, allowance overrides name = some before ∧ before ⊆ allowed

theorem allowsMore_of_eq {overrides looser : List (String × ModuleDefinition)}
    (same : ∀ name, allowance overrides name = allowance looser name) :
    AllowsMore overrides looser :=
  fun name allowed listed => ⟨allowed, (same name).trans listed, fun _ => id⟩

theorem permits_of_allowsMore {overrides looser : List (String × ModuleDefinition)}
    (more : AllowsMore overrides looser) {codebase : Codebase} {edge : ModuleEdge codebase}
    (permitted : permits overrides edge = true) : permits looser edge = true := by
  unfold permits at permitted ⊢
  cases listed : allowance looser edge.source.name with
  | none => rfl
  | some allowed =>
    -- There was a list before, and what it allowed is still listed.
    obtain ⟨before, listedBefore, kept⟩ := more _ _ listed
    rw [listedBefore] at permitted
    obtain ⟨entry, member, names⟩ := List.any_eq_true.mp permitted
    exact List.any_eq_true.mpr ⟨entry, kept member, names⟩

section
variable {classes : ClassGraph} {markers others : MarkerSet}

theorem exposes_of_widensTo (exposed : markers.exposed.WidensTo others.exposed)
    (component : markers.component.WidensTo others.component) {base className : String}
    (shown : exposes ⟨classes, markers⟩ base className = true) :
    exposes ⟨classes, others⟩ base className = true := by
  simp only [exposes, List.any_eq_true, Bool.and_eq_true, Bool.or_eq_true] at shown ⊢
  obtain ⟨descriptor, member, ⟨isPublic, (direct | marked) | marked⟩, named⟩ := shown
  · exact ⟨descriptor, member, ⟨isPublic, .inl (.inl direct)⟩, named⟩
  · exact ⟨descriptor, member, ⟨isPublic, .inl (.inr (Marker.marks_of_widensTo exposed marked))⟩, named⟩
  · exact ⟨descriptor, member, ⟨isPublic, .inr (Marker.marks_of_widensTo component marked)⟩, named⟩

variable {graph : ModuleGraph ⟨classes, markers⟩} {other : ModuleGraph ⟨classes, others⟩}
  {points wider : ExtensionPoints}

theorem internalViolations_sublist (same : graph.bare = other.bare)
    (exposed : markers.exposed.WidensTo others.exposed)
    (component : markers.component.WidensTo others.component) (widens : points.WidensTo wider) :
    (other.internalViolations wider).Sublist (graph.internalViolations points) := by
  -- Both sides choose among the crossings of one bare graph.
  rw [internalViolations_eq, internalViolations_eq, same]
  apply List.Sublist.map
  apply List.monotone_filter_right
  intro crossing hidden
  simp only [Bool.and_eq_true, Bool.not_eq_true', ← Bool.not_eq_true] at hidden ⊢
  exact ⟨mt (exposes_of_widensTo exposed component) hidden.1,
    mt (ExtensionPoints.include_of_widensTo widens) hidden.2⟩

theorem internalViolations_eq_of_markers_eq (same : graph.bare = other.bare)
    (exposed : markers.exposed = others.exposed) (component : markers.component = others.component)
    (points : ExtensionPoints) :
    graph.internalViolations points = other.internalViolations points := by
  -- Equal markers widen to each other.
  apply List.Sublist.antisymm
  · exact internalViolations_sublist same.symm (exposed ▸ .refl _) (component ▸ .refl _) (.refl _)
  · exact internalViolations_sublist same (exposed ▸ .refl _) (component ▸ .refl _) (.refl _)

variable {base : String} {overrides looser : List (String × ModuleDefinition)}

theorem undeclaredViolations_sublist
    (discovered : discover ⟨classes, markers⟩ base overrides = .ok graph)
    (discoveredToo : discover ⟨classes, others⟩ base looser = .ok other)
    (more : AllowsMore overrides looser) :
    other.undeclaredViolations.Sublist graph.undeclaredViolations := by
  rw [undeclaredViolations_of_discover discovered, undeclaredViolations_of_discover discoveredToo,
    bare_eq_of_discover discovered discoveredToo]
  apply List.Sublist.filterMap
  apply List.monotone_filter_right
  intro edge forbidden
  rw [Bool.not_eq_true', ← Bool.not_eq_true] at forbidden ⊢
  exact mt (permits_of_allowsMore more) forbidden

theorem undeclaredViolations_eq_of_allowance_eq
    (discovered : discover ⟨classes, markers⟩ base overrides = .ok graph)
    (discoveredToo : discover ⟨classes, others⟩ base looser = .ok other)
    (same : ∀ name, allowance overrides name = allowance looser name) :
    graph.undeclaredViolations = other.undeclaredViolations := by
  apply List.Sublist.antisymm
  · exact undeclaredViolations_sublist discoveredToo discovered
      (allowsMore_of_eq fun name => (same name).symm)
  · exact undeclaredViolations_sublist discovered discoveredToo (allowsMore_of_eq same)

end

end ModuleGraph

/-- Settings that only forbid less. The markers of aggregate roots and of events, what publishes
events and how modules are shown have no part in a verdict. -/
structure AnalysisSettings.LoosensTo (settings looser : AnalysisSettings) : Prop where
  rules : settings.rules = looser.rules
  exposed : settings.markers.exposed.WidensTo looser.markers.exposed
  component : settings.markers.component.WidensTo looser.markers.component
  points : settings.points.WidensTo looser.points
  overrides : ModuleGraph.AllowsMore settings.overrides looser.overrides

section
variable {classes : ClassGraph} {basePackage : String} {settings looser : AnalysisSettings}
  {graph : ModuleGraph ⟨classes, settings.markers⟩} {other : ModuleGraph ⟨classes, looser.markers⟩}

theorem ModuleGraph.findings_sublist
    (discovered : discover ⟨classes, settings.markers⟩ basePackage settings.overrides = .ok graph)
    (discoveredToo : discover ⟨classes, looser.markers⟩ basePackage looser.overrides = .ok other)
    (loosens : settings.LoosensTo looser) (rule : Rule) :
    (other.findings looser.points rule).Sublist (graph.findings settings.points rule) := by
  have bare : graph.bare = other.bare := bare_eq_of_discover discovered discoveredToo
  cases rule with
  | cycle => rw [findings, findings, cycleViolations_eq_of_bare_eq bare]
  | undeclaredDependency =>
    exact undeclaredViolations_sublist discovered discoveredToo loosens.overrides
  | internalAccess =>
    exact internalViolations_sublist bare loosens.exposed loosens.component loosens.points

theorem ModuleGraph.verify_sublist
    (discovered : discover ⟨classes, settings.markers⟩ basePackage settings.overrides = .ok graph)
    (discoveredToo : discover ⟨classes, looser.markers⟩ basePackage looser.overrides = .ok other)
    (loosens : settings.LoosensTo looser) :
    (other.verify looser.rules looser.points).entries.Sublist
      (graph.verify settings.rules settings.points).entries := by
  rw [← loosens.rules]
  apply Report.entries_sublist (graph.enabledFindings_nodup settings.rules settings.points)
  apply List.Sublist.flatMap_right
  intro rule _
  exact findings_sublist discovered discoveredToo loosens rule

theorem analyze_eq_error {cause : ModuleError} (projectName : String)
    (obstacle : ModuleGraph.obstacle? ⟨classes, settings.markers⟩ basePackage = some cause) :
    analyze projectName classes basePackage settings = .error cause := by
  rw [analyze, ModuleGraph.discover_eq_error.mpr obstacle]
  rfl

theorem exists_analyze (projectName : String)
    (clear : ModuleGraph.obstacle? ⟨classes, settings.markers⟩ basePackage = none) :
    ∃ graph analysis,
      ModuleGraph.discover ⟨classes, settings.markers⟩ basePackage settings.overrides = .ok graph ∧
      analyze projectName classes basePackage settings = .ok analysis ∧
      analysis.violations = graph.verify settings.rules settings.points := by
  obtain ⟨graph, discovered⟩ := ModuleGraph.exists_discover.mpr clear
  rw [analyze, discovered]
  exact ⟨graph, _, rfl, rfl, rfl⟩

end

/-- Loosening adds no violation. The modules are discovered as before or fail for the same cause.
The report keeps its order and loses no cycle, no access to internals where only more
dependencies are allowed, and no undeclared dependency where no more are. -/
theorem loosening_adds_no_violation (projectName : String) (classes : ClassGraph)
    (basePackage : String) {settings looser : AnalysisSettings}
    (loosens : settings.LoosensTo looser) :
    (∃ cause, analyze projectName classes basePackage settings = .error cause ∧
      analyze projectName classes basePackage looser = .error cause) ∨
    ∃ before after, analyze projectName classes basePackage settings = .ok before ∧
      analyze projectName classes basePackage looser = .ok after ∧
      after.violations.entries.Sublist before.violations.entries ∧
      before.violations.ofRule .cycle = after.violations.ofRule .cycle ∧
      (settings.markers.exposed = looser.markers.exposed →
        settings.markers.component = looser.markers.component → settings.points = looser.points →
        ∀ rule ≠ .undeclaredDependency,
          before.violations.ofRule rule = after.violations.ofRule rule) ∧
      ((∀ name, ModuleGraph.allowance settings.overrides name =
          ModuleGraph.allowance looser.overrides name) →
        ∀ rule ≠ .internalAccess,
          before.violations.ofRule rule = after.violations.ofRule rule) := by
  cases obstacle : ModuleGraph.obstacle? ⟨classes, settings.markers⟩ basePackage with
  | some cause =>
    exact .inl ⟨cause, analyze_eq_error projectName obstacle, analyze_eq_error projectName obstacle⟩
  | none =>
    -- What stands in the way of discovery does not depend on the settings.
    have obstacleToo : ModuleGraph.obstacle? ⟨classes, looser.markers⟩ basePackage = none := obstacle
    obtain ⟨graph, before, discovered, analyzed, violations⟩ := exists_analyze projectName obstacle
    obtain ⟨other, after, discoveredToo, analyzedToo, violationsToo⟩ :=
      exists_analyze projectName obstacleToo
    have bare : graph.bare = other.bare := ModuleGraph.bare_eq_of_discover discovered discoveredToo
    have kept (rule : Rule)
        (same : graph.findings settings.points rule = other.findings looser.points rule) :
        before.violations.ofRule rule = after.violations.ofRule rule := by
      rw [violations, violationsToo, ModuleGraph.ofRule_verify, ModuleGraph.ofRule_verify,
        loosens.rules, same]
    have cycles := kept .cycle (ModuleGraph.cycleViolations_eq_of_bare_eq bare)
    refine .inr ⟨before, after, analyzed, analyzedToo, ?_, cycles, ?_, ?_⟩
    · rw [violations, violationsToo]
      exact ModuleGraph.verify_sublist discovered discoveredToo loosens
    · intro exposed component points rule different
      cases rule with
      | cycle => exact cycles
      | undeclaredDependency => exact absurd rfl different
      | internalAccess =>
        apply kept
        rw [← points]
        exact ModuleGraph.internalViolations_eq_of_markers_eq bare exposed component _
    · intro allowances rule different
      cases rule with
      | cycle => exact cycles
      | undeclaredDependency =>
        apply kept
        exact ModuleGraph.undeclaredViolations_eq_of_allowance_eq discovered discoveredToo allowances
      | internalAccess => exact absurd rfl different

/-- An order that reaches into the store rooms of the stock. -/
def storeRooms : ClassGraph :=
  (ClassGraph.ofList [
    (ClassDescriptor.named "shop.order.Order").withReference "shop.stock.room.Shelf",
    .named "shop.stock.room.Shelf"]).toOption.get (by decide +kernel)

/-- Settings under which orders depend on nothing but what is listed. -/
def orderSettings (allowed patterns : List String) : AnalysisSettings where
  markers := {}
  points := { patterns }
  rules := {}
  overrides := [("order", { basePackage := "", allowedDependencies := some allowed })]

theorem orderSettings_loosensTo {allowed more patterns others : List String}
    (longer : allowed ⊆ more) (added : patterns ⊆ others) :
    (orderSettings allowed patterns).LoosensTo (orderSettings more others) where
  rules := rfl
  exposed := .refl _
  component := .refl _
  points := ⟨added, .refl _⟩
  overrides := by
    have listed (entries patterns : List String) (name : String) :
        ModuleGraph.allowance (orderSettings entries patterns).overrides name =
          if name == "order" then some entries else none := by
      simp only [ModuleGraph.allowance, ModuleGraph.declared, orderSettings, List.lookup_cons]
      cases name == "order" <;> rfl
    intro name entries found
    rw [listed] at found
    split at found
    · next ordered =>
      cases found
      exact ⟨allowed, by rw [listed, if_pos ordered], longer⟩
    · cases found

/-- The dependency of orders on the stock is allowed. The store rooms stay closed. -/
theorem report_of_orders_allowed_stock :
    let settings := orderSettings [] []
    let looser := orderSettings ["stock"] ["shop.order.*"]
    let found (settings : AnalysisSettings) :=
      (ModuleGraph.discover ⟨storeRooms, {}⟩ "shop" settings.overrides).map fun graph =>
        (graph.undeclaredViolations.length, (graph.internalViolations settings.points).length)
    settings.LoosensTo looser ∧ found settings = .ok (1, 1) ∧ found looser = .ok (0, 1) ∧
    ∃ before after, analyze "shop" storeRooms "shop" settings = .ok before ∧
      analyze "shop" storeRooms "shop" looser = .ok after ∧
      after.violations.entries.Sublist before.violations.entries := by
  intro settings looser found
  have loosens : settings.LoosensTo looser := orderSettings_loosensTo (by simp) (by simp)
  refine ⟨loosens, by decide +kernel, by decide +kernel, ?_⟩
  have clear : ModuleGraph.obstacle? ⟨storeRooms, settings.markers⟩ "shop" = none := by
    decide +kernel
  obtain ⟨_, _, _, analyzed, _⟩ := exists_analyze "shop" clear
  rcases loosening_adds_no_violation "shop" storeRooms "shop" loosens with
    ⟨cause, failed, -⟩ | ⟨before, after, first, second, fewer, -⟩
  · rw [analyzed] at failed
    cases failed
  · exact ⟨before, after, first, second, fewer⟩

end ModuleBoundary
