import ModuleBoundary.Proofs.ClassGraph.Rearrangement
import ModuleBoundary.Proofs.ModuleGraph.Comparison

/-! Module graphs that differ in the order of their classes and modules only.

Owners, references and findings are said by name and do not show the order. It shows in the
order in which findings are made, but a report sorts them: findings it cannot tell apart are
cycles, and those are searched for by name.
-/

set_option autoImplicit false

namespace ModuleBoundary

variable {codebase rearranged : Codebase}

namespace ModuleGraph

/-- The same classes and the same modules, in whatever order. -/
structure Rearranges (graph : ModuleGraph codebase) (other : ModuleGraph rearranged) : Prop where
  classes : codebase.classes.classes.Perm rearranged.classes.classes
  markers : codebase.markers = rearranged.markers
  definitions : graph.definitions.Perm other.definitions

namespace Rearranges

variable {graph : ModuleGraph codebase} {other : ModuleGraph rearranged}

theorem symm (rearranges : graph.Rearranges other) : other.Rearranges graph :=
  ⟨rearranges.classes.symm, rearranges.markers.symm, rearranges.definitions.symm⟩

theorem exists_module (rearranges : graph.Rearranges other) {module : ApplicationModule codebase}
    (known : module ∈ graph.modules) :
    ∃ counterpart ∈ other.modules, counterpart.definition = module.definition := by
  have listed : module.definition ∈ graph.definitions := List.mem_map_of_mem known
  exact List.mem_map.mp (rearranges.definitions.mem_iff.mp listed)

theorem exists_mostSpecific (rearranges : graph.Rearranges other) {package : String}
    {owner : ApplicationModule codebase} (specific : IsMostSpecific graph.modules package owner) :
    ∃ counterpart, IsMostSpecific other.modules package counterpart ∧
      counterpart.definition = owner.definition := by
  obtain ⟨counterpart, known, same⟩ := rearranges.exists_module specific.member
  have base : counterpart.basePackage = owner.basePackage :=
    congrArg ModuleDefinition.basePackage same
  refine ⟨counterpart, ⟨known, base ▸ specific.contains, ?_⟩, same⟩
  -- A rival among the modules of one graph has a counterpart that is a rival in the other.
  intro rival listed different within
  obtain ⟨original, member, sameToo⟩ := rearranges.symm.exists_module listed
  have baseToo : original.basePackage = rival.basePackage :=
    congrArg ModuleDefinition.basePackage sameToo
  have apart : original ≠ owner := by
    rintro rfl
    exact different (ApplicationModule.eq_of_definition_eq (sameToo.symm.trans same.symm))
  rw [base, ← baseToo]
  exact specific.longest original member apart (baseToo ▸ within)

theorem embedsIn (rearranges : graph.Rearranges other) : graph.EmbedsIn other where
  classes name descriptor found :=
    ⟨descriptor, ClassGraph.get?_eq_of_perm rearranges.classes name ▸ found, fun _ => id⟩
  owners name owner owned := by
    obtain ⟨descriptor, found, owned⟩ := Option.bind_eq_some_iff.mp owned
    obtain ⟨counterpart, specific, same⟩ :=
      rearranges.exists_mostSpecific (graph.ownerOfClass?_eq_some.mp owned)
    rw [ClassGraph.get?_eq_of_perm rearranges.classes] at found
    exact ⟨counterpart, Option.bind_eq_some_iff.mpr
      ⟨descriptor, found, other.ownerOfClass?_eq_some.mpr specific⟩, same⟩

theorem alike (rearranges : graph.Rearranges other) : graph.Alike other where
  definitions := rearranges.definitions
  outlines := (List.perm_ext_iff_of_nodup graph.outlines_nodup other.outlines_nodup).mpr fun _ =>
    ⟨(rearranges.embedsIn.outlines_subset ·), (rearranges.symm.embedsIn.outlines_subset ·)⟩

theorem agreesOnTargets (rearranges : graph.Rearranges other) (points : ExtensionPoints) :
    graph.AgreesOnTargets rearranged points := by
  intro crossing member
  have found := (graph.mem_classDependencies.mp member).target
  rw [ClassGraph.get?_eq_of_perm rearranges.classes] at found
  have marks (marker : Marker) :
      marker.marks codebase.classes crossing.target = marker.marks rearranged.classes crossing.target := by
    rw [marker.marks_eq_of_perm rearranges.classes]
  refine ⟨crossing.target, found, ⟨rfl, rfl, ?_, ?_, marks _⟩⟩
  · rw [← rearranges.markers, marks]
  · rw [← rearranges.markers, marks]

theorem verify_eq (rearranges : graph.Rearranges other) (rules : RuleSet)
    (points : ExtensionPoints) : graph.verify rules points = other.verify rules points :=
  rearranges.alike.verify_eq (rearranges.agreesOnTargets points) rules

end Rearranges

end ModuleGraph

/-! What the order of the input leaves as it is. -/

/-- One module in two codebases. -/
structure ApplicationModule.IsCounterpart (module : ApplicationModule codebase)
    (other : ApplicationModule rearranged) : Prop where
  name : module.name = other.name
  basePackage : module.basePackage = other.basePackage
  members : module.members.Perm other.members

namespace ModuleGraph

/-- The same modules and edges in the same order, and the same reports. -/
structure SameVerdict (graph : ModuleGraph codebase) (other : ModuleGraph rearranged) : Prop where
  modules : List.Forall₂ ApplicationModule.IsCounterpart graph.modules other.modules
  edges : graph.edges.map ModuleEdge.named = other.edges.map ModuleEdge.named
  verify : ∀ rules points, graph.verify rules points = other.verify rules points

/-- Discovery fails with one error in both codebases, or comes to the same verdict. -/
def DiscoversAlike (codebase rearranged : Codebase) (base : String)
    (overrides : List (String × ModuleDefinition)) : Prop :=
  (∃ cause, discover codebase base overrides = .error cause ∧
    discover rearranged base overrides = .error cause) ∨
  ∃ graph other, discover codebase base overrides = .ok graph ∧
    discover rearranged base overrides = .ok other ∧ graph.SameVerdict other

theorem Rearranges.sameVerdict {graph : ModuleGraph codebase} {other : ModuleGraph rearranged}
    (rearranges : graph.Rearranges other) (defined : graph.definitions = other.definitions) :
    graph.SameVerdict other where
  modules := by
    refine (forall₂_of_definitions defined).imp fun module other same => ?_
    have base : module.basePackage = other.basePackage :=
      congrArg ModuleDefinition.basePackage same
    refine ⟨congrArg ModuleDefinition.name same, base, ?_⟩
    rw [ApplicationModule.members, ApplicationModule.members, base]
    exact ClassGraph.residents_perm rearranges.classes _
  edges := by simp only [edges_named, defined, rearranges.alike.weight?_eq]
  verify := rearranges.verify_eq

theorem discoversAlike {classes others : ClassGraph} (same : classes.classes.Perm others.classes)
    (markers : MarkerSet) (base : String) (overrides : List (String × ModuleDefinition)) :
    DiscoversAlike ⟨classes, markers⟩ ⟨others, markers⟩ base overrides := by
  refine (discover_cases ((ClassGraph.residents_perm same base).map _)).imp id ?_
  rintro ⟨graph, other, discovered, discoveredToo, defined⟩
  have rearranges : graph.Rearranges other := ⟨same, rfl, .of_eq defined⟩
  exact ⟨graph, other, discovered, discoveredToo, rearranges.sameVerdict defined⟩

/-- Module lists that are permutations of each other are both refused, for a name that two
modules bear, or have the same reports. -/
theorem reports_of_permuted_modules {modules reordered : List (ApplicationModule codebase)}
    (same : reordered.Perm modules) :
    (∃ cause other, ofModules modules = .error cause ∧ ofModules reordered = .error other) ∨
    ∃ graph other, ofModules modules = .ok graph ∧ ofModules reordered = .ok other ∧
      ∀ rules points, graph.verify rules points = other.verify rules points := by
  cases first : ofModules modules with
  | error cause =>
    cases second : ofModules reordered with
    | error other => exact .inl ⟨cause, other, rfl, rfl⟩
    | ok other =>
      have distinct := other.distinct
      rw [ofModules_eq_ok.mp second] at distinct
      obtain ⟨graph, built⟩ := exists_ofModules ((same.map _).nodup_iff.mp distinct)
      rw [first] at built
      cases built
  | ok graph =>
    have distinct := graph.distinct
    rw [ofModules_eq_ok.mp first] at distinct
    obtain ⟨other, second⟩ := exists_ofModules ((same.map _).nodup_iff.mpr distinct)
    have rearranges : graph.Rearranges other := by
      refine ⟨.refl _, rfl, ?_⟩
      rw [definitions, definitions, ofModules_eq_ok.mp first, ofModules_eq_ok.mp second]
      exact (same.map _).symm
    exact .inr ⟨graph, other, rfl, second, rearranges.verify_eq⟩

end ModuleGraph

/-- The order in which classes and modules are listed has no bearing on the verdict. -/
theorem verdict_independent_of_order {descriptors permuted : List ClassDescriptor}
    (same : permuted.Perm descriptors)
    (distinct : (descriptors.map ClassDescriptor.name).Nodup) :
    ∃ classes rearranged, ClassGraph.ofList descriptors = .ok classes ∧
      ClassGraph.ofList permuted = .ok rearranged ∧ ∀ markers : MarkerSet,
        (∀ base overrides,
          ModuleGraph.DiscoversAlike ⟨classes, markers⟩ ⟨rearranged, markers⟩ base overrides) ∧
        ∀ modules reordered : List (ApplicationModule ⟨classes, markers⟩),
          reordered.Perm modules →
            (∃ cause other, ModuleGraph.ofModules modules = .error cause ∧
              ModuleGraph.ofModules reordered = .error other) ∨
            ∃ graph other, ModuleGraph.ofModules modules = .ok graph ∧
              ModuleGraph.ofModules reordered = .ok other ∧
              ∀ rules points, graph.verify rules points = other.verify rules points := by
  obtain ⟨classes, built, listed⟩ := ClassGraph.exists_ofList distinct
  have distinctToo : (permuted.map ClassDescriptor.name).Nodup :=
    (same.map _).nodup_iff.mpr distinct
  obtain ⟨rearranged, builtToo, listedToo⟩ := ClassGraph.exists_ofList distinctToo
  have reordered : classes.classes.Perm rearranged.classes := by
    rw [listed, listedToo]
    exact (same.map _).symm
  refine ⟨classes, rearranged, built, builtToo, fun markers => ⟨?_, ?_⟩⟩
  · intro base overrides
    exact ModuleGraph.discoversAlike reordered markers base overrides
  · intro modules others permutes
    exact ModuleGraph.reports_of_permuted_modules permutes

/-- Two classes of different modules that refer to each other. -/
def mutualClasses : List ClassDescriptor := [
  (ClassDescriptor.named "shop.order.Order").withReference "shop.stock.Stock",
  (ClassDescriptor.named "shop.stock.Stock").withReference "shop.order.Order"]

theorem verdict_of_mutual_classes_reversed :
    mutualClasses.reverse.Perm mutualClasses ∧
    (mutualClasses.map ClassDescriptor.name).Nodup ∧
    ∃ classes rearranged, ClassGraph.ofList mutualClasses = .ok classes ∧
      ClassGraph.ofList mutualClasses.reverse = .ok rearranged ∧
      ModuleGraph.DiscoversAlike ⟨classes, {}⟩ ⟨rearranged, {}⟩ "shop" [] := by
  have distinct : (mutualClasses.map ClassDescriptor.name).Nodup := by decide
  obtain ⟨classes, rearranged, built, builtToo, alike⟩ :=
    verdict_independent_of_order (List.reverse_perm mutualClasses) distinct
  exact ⟨List.reverse_perm _, distinct, classes, rearranged, built, builtToo,
    (alike {}).1 "shop" []⟩

end ModuleBoundary
