import ModuleBoundary.Proofs.ClassGraph.Agreement
import ModuleBoundary.Proofs.ModuleGraph.Comparison

/-! Classes outside the base have no part in a verdict.

No module owns a class that lives outside the base, so no reference from it or to it crosses a
boundary. Walks along supertypes do not meet it either, as long as no other class extends or
implements it. It may be referred to, and it may refer to whatever it likes.
-/

set_option autoImplicit false

namespace ModuleBoundary

theorem ClassDescriptor.supertypes_withDerivedPackage (descriptor : ClassDescriptor) :
    descriptor.withDerivedPackage.supertypes = descriptor.supertypes := by
  unfold withDerivedPackage
  split <;> rfl

variable {base : String} {classes wider : ClassGraph}

namespace ClassGraph

/-- A name that no added class bears. -/
def IsFamiliar (classes wider : ClassGraph) (name : String) : Prop :=
  ∀ added ∈ wider.classes, added ∉ classes.classes → added.name ≠ name

/-- A wider graph has more classes. They live outside the base, and no other class extends or
implements them. -/
structure AddsOutsiders (base : String) (classes wider : ClassGraph) : Prop where
  kept : classes.classes.Sublist wider.classes
  outside : ∀ added ∈ wider.classes, added ∉ classes.classes →
    Package.contains base added.package = false
  supertypes : ∀ descriptor ∈ classes.classes, ∀ supertype ∈ descriptor.supertypes,
    IsFamiliar classes wider supertype

namespace AddsOutsiders

variable (adds : AddsOutsiders base classes wider)
include adds

/-- What is made of classes inside the base only is made of the same classes. -/
theorem filterMap_eq {β : Type} {make : ClassDescriptor → Option β}
    (inside : ∀ descriptor, make descriptor ≠ none →
      Package.contains base descriptor.package = true) :
    wider.classes.filterMap make = classes.classes.filterMap make := by
  have distinct : wider.classes.Nodup := .of_map _ wider.distinct
  rw [eq_filter_of_sublist distinct adds.kept, List.filterMap_filter]
  apply List.filterMap_congr
  intro descriptor listed
  split
  · rfl
  · next added =>
    by_contra made
    have within := inside descriptor made
    rw [adds.outside descriptor listed (by simpa using added)] at within
    cases within

theorem residents_eq {package : String} (within : Package.contains base package = true) :
    wider.residents package = classes.residents package := by
  have kept := adds.filterMap_eq fun descriptor
      (chosen : Option.guard (·.residesIn package) descriptor ≠ none) =>
    Package.contains_trans within (by simpa [ClassDescriptor.residesIn] using chosen)
  rwa [List.filterMap_eq_filter] at kept

theorem isFamiliar_of_mem {descriptor : ClassDescriptor} (known : descriptor ∈ classes.classes) :
    IsFamiliar classes wider descriptor.name := by
  intro added listed stranger same
  have equal := List.inj_on_of_nodup_map wider.distinct listed (adds.kept.subset known) same
  exact stranger (equal ▸ known)

theorem get?_eq {name : String} (familiar : IsFamiliar classes wider name) :
    classes.get? name = wider.get? name := by
  apply Option.ext
  intro descriptor
  rw [get?_eq_some, get?_eq_some]
  constructor
  · rintro ⟨known, named⟩
    exact ⟨adds.kept.subset known, named⟩
  · rintro ⟨listed, named⟩
    by_contra missing
    exact familiar descriptor listed (fun known => missing ⟨known, named⟩) named

theorem agreesOn : AgreesOn (IsFamiliar classes wider) classes wider where
  supertypes name familiar := by rw [adds.get?_eq familiar]
  -- A walk that begins among familiar names goes on among them.
  closed name descriptor _ found := adds.supertypes descriptor (get?_eq_some.mp found).1

theorem marks_eq {descriptor : ClassDescriptor} (known : descriptor ∈ classes.classes)
    (marker : Marker) : marker.marks classes descriptor = marker.marks wider descriptor :=
  adds.agreesOn.marks_eq rfl rfl rfl (adds.supertypes descriptor known) fun _ _ => rfl

end AddsOutsiders

end ClassGraph

variable {codebase compared : Codebase} {markers : MarkerSet}
  {overrides : List (String × ModuleDefinition)}

/-- One module in two codebases, with the same classes in it and in the same roles. -/
structure ApplicationModule.LooksAs
    (module : ApplicationModule codebase) (other : ApplicationModule compared) : Prop where
  definition : module.definition = other.definition
  members : module.members = other.members
  exposedTypes : module.exposedTypes = other.exposedTypes
  aggregateRoots : module.aggregateRoots = other.aggregateRoots

namespace ModuleGraph

/-! Crossings, told by what the owned classes are. -/

/-- A crossing by its classes and the definitions of their owners. -/
def told (crossing : ClassDependency codebase) :
    (ClassDescriptor × ModuleDefinition) × (ClassDescriptor × ModuleDefinition) :=
  ((crossing.source, crossing.sourceModule.definition),
    (crossing.target, crossing.targetModule.definition))

/-- The owned classes with the definitions of their owners. -/
def roll (modules : List (ApplicationModule codebase)) : List (ClassDescriptor × ModuleDefinition) :=
  codebase.classes.classes.filterMap fun descriptor =>
    ((ownerOfClass? modules descriptor).map (·.definition)).map (descriptor, ·)

/-- The references on a roll that lead from one definition to another. -/
def crossingsOn (roll : List (ClassDescriptor × ModuleDefinition)) :
    List ((ClassDescriptor × ModuleDefinition) × (ClassDescriptor × ModuleDefinition)) :=
  roll.flatMap fun referrer => referrer.1.references.toList.filterMap fun reference =>
    (roll.find? (·.1.name == reference)).bind fun target =>
      if target.2.name = referrer.2.name then none else some (referrer, target)

theorem roll_eq (modules : List (ApplicationModule codebase)) :
    roll modules = (ownedClasses modules).map (Prod.map id (·.definition)) := by
  rw [roll, ownedClasses, List.map_filterMap]
  apply List.filterMap_congr
  intro descriptor _
  rw [Option.map_map, Option.map_map]
  rfl

theorem crossing?_told (owned : List (ClassDescriptor × ApplicationModule codebase))
    (referrer : ClassDescriptor × ApplicationModule codebase) (reference : String) :
    (crossing? owned referrer reference).map told =
      ((owned.map (Prod.map id (·.definition))).find? (·.1.name == reference)).bind fun target =>
        if target.2.name = referrer.2.definition.name then none
        else some (referrer.map id (·.definition), target) := by
  unfold crossing?
  rw [List.find?_map]
  change _ = ((owned.find? (·.1.name == reference)).map _).bind _
  cases owned.find? (·.1.name == reference) with
  | none => rfl
  | some found =>
    -- The names of two owners are those of their definitions.
    change Option.map _ (if found.2.name = referrer.2.name then none else some _) =
      if found.2.name = referrer.2.name then none else some _
    split <;> rfl

theorem crossings_told (modules : List (ApplicationModule codebase)) :
    (crossings modules).map told = crossingsOn (roll modules) := by
  simp only [crossings, crossingsOn, roll_eq, List.map_flatMap, List.flatMap_map,
    List.map_filterMap, crossing?_told]
  rfl

/-! What is seen of the modules below the base. -/

/-- The same modules, edges and crossings in the same order, and the same reports. -/
structure LooksAs (graph : ModuleGraph codebase) (other : ModuleGraph compared) : Prop where
  modules : List.Forall₂ ApplicationModule.LooksAs graph.modules other.modules
  edges : graph.edges.map ModuleEdge.named = other.edges.map ModuleEdge.named
  classDependencies : graph.classDependencies.map told = other.classDependencies.map told
  verify : ∀ rules points, graph.verify rules points = other.verify rules points

/-- What is discovered below a base is based inside it. -/
theorem contains_basePackage_of_discover {graph : ModuleGraph codebase}
    (discovered : discover codebase base overrides = .ok graph)
    {module : ApplicationModule codebase} (known : module ∈ graph.modules) :
    Package.contains base module.basePackage = true := by
  have found : module.basePackage ∈ graph.modules.map (·.basePackage) := List.mem_map_of_mem known
  rw [basePackages_of_discover discovered] at found
  obtain ⟨descriptor, -, segment, next, based⟩ := mem_foundPackages.mp found
  rw [based, Package.contains_iff_segments, Package.segments_append_segment next]
  exact List.prefix_append _ _

section
variable {graph : ModuleGraph ⟨classes, markers⟩} {other : ModuleGraph ⟨wider, markers⟩}
  (adds : ClassGraph.AddsOutsiders base classes wider)
include adds

theorem agreesOnTargets (points : ExtensionPoints) : graph.AgreesOnTargets ⟨wider, markers⟩ points := by
  intro crossing member
  have found := (graph.mem_classDependencies.mp member).target
  have known := (ClassGraph.get?_eq_some.mp found).1
  rw [adds.get?_eq (adds.isFamiliar_of_mem known)] at found
  exact ⟨crossing.target, found, rfl, rfl, adds.marks_eq known _, adds.marks_eq known _,
    adds.marks_eq known _⟩

variable (discovered : discover ⟨classes, markers⟩ base overrides = .ok graph)
include discovered

theorem module_looksAs {module : ApplicationModule ⟨classes, markers⟩}
    {counterpart : ApplicationModule ⟨wider, markers⟩} (known : module ∈ graph.modules)
    (same : module.definition = counterpart.definition) : module.LooksAs counterpart := by
  have based : module.basePackage = counterpart.basePackage :=
    congrArg ModuleDefinition.basePackage same
  have within := contains_basePackage_of_discover discovered known
  have members : module.members = counterpart.members := by
    rw [ApplicationModule.members, ApplicationModule.members, ← based]
    exact (adds.residents_eq within).symm
  have marks (marker : Marker) {descriptor : ClassDescriptor} (member : descriptor ∈ module.members) :
      marker.marks classes descriptor = marker.marks wider descriptor :=
    adds.marks_eq (List.mem_of_mem_filter member) marker
  refine ⟨same, members, ?_, ?_⟩
  · rw [ApplicationModule.exposedTypes, ApplicationModule.exposedTypes, ← members, ← based]
    apply List.filter_congr
    intro descriptor member
    rw [marks _ member, marks _ member]
  · rw [ApplicationModule.aggregateRoots, ApplicationModule.aggregateRoots, ← members]
    exact List.filter_congr fun _ => marks _

variable (defined : graph.definitions = other.definitions)
include defined

theorem roll_eq_roll : roll graph.modules = roll other.modules := by
  -- Whoever is owned lives in a module, and all modules are inside the base.
  have inside (descriptor : ClassDescriptor)
      (listed : ((ownerOfClass? graph.modules descriptor).map (·.definition)).map (descriptor, ·) ≠ none) :
      Package.contains base descriptor.package = true := by
    obtain ⟨owner, owned⟩ : ∃ owner, ownerOfClass? graph.modules descriptor = some owner := by
      simpa [Option.ne_none_iff_exists'] using listed
    have specific := graph.ownerOfClass?_eq_some.mp owned
    exact Package.contains_trans (contains_basePackage_of_discover discovered specific.member)
      specific.contains
  calc roll graph.modules
    _ = wider.classes.filterMap fun descriptor =>
        ((ownerOfClass? graph.modules descriptor).map (·.definition)).map (descriptor, ·) :=
      (adds.filterMap_eq inside).symm
    _ = roll other.modules :=
      List.filterMap_congr fun descriptor _ => by rw [ownerOfClass?_definition defined rfl]

theorem told_eq : graph.classDependencies.map told = other.classDependencies.map told := by
  rw [graph.classDependencies_eq, other.classDependencies_eq, crossings_told, crossings_told,
    roll_eq_roll adds discovered defined]

theorem alike_of_outsiders : graph.Alike other where
  definitions := .of_eq defined
  outlines := by
    have told := congrArg
      (List.map fun entry => ((entry.1.1.name, entry.1.2), (entry.2.1.name, entry.2.2)))
      (told_eq adds discovered defined)
    rw [List.map_map, List.map_map] at told
    exact .of_eq told

theorem looksAs_of_outsiders : graph.LooksAs other where
  modules := by
    have pairs := (List.forall₂_and_left graph.modules other.modules).mpr
      ⟨fun _ known => known, forall₂_of_definitions defined⟩
    exact pairs.imp fun _ _ pair => module_looksAs adds discovered pair.1 pair.2
  edges := by
    have alike := alike_of_outsiders adds discovered defined
    simp only [edges_named, defined, alike.weight?_eq]
  classDependencies := told_eq adds discovered defined
  verify rules points := (alike_of_outsiders adds discovered defined).verify_eq
    (agreesOnTargets adds points) rules

end

/-- What is discovered is not told apart, or fails for one cause. -/
theorem discover_looksAs (adds : ClassGraph.AddsOutsiders base classes wider) :
    (∃ cause, discover ⟨classes, markers⟩ base overrides = .error cause ∧
      discover ⟨wider, markers⟩ base overrides = .error cause) ∨
    ∃ graph other, discover ⟨classes, markers⟩ base overrides = .ok graph ∧
      discover ⟨wider, markers⟩ base overrides = .ok other ∧ graph.LooksAs other := by
  have same : wider.residents base = classes.residents base :=
    adds.residents_eq (by simp [Package.contains])
  refine (discover_cases (.of_eq (congrArg _ same.symm))).imp id ?_
  rintro ⟨graph, other, discovered, discoveredToo, defined⟩
  exact ⟨graph, other, discovered, discoveredToo, looksAs_of_outsiders adds discovered defined⟩

end ModuleGraph

theorem ClassGraph.exists_ofList_of_outsiders {descriptors more : List ClassDescriptor}
    (kept : descriptors.Sublist more) (distinct : (more.map ClassDescriptor.name).Nodup)
    (outside : ∀ added ∈ more, added ∉ descriptors →
      Package.contains base added.withDerivedPackage.package = false)
    (unnamed : ∀ added ∈ more, added ∉ descriptors →
      ∀ descriptor ∈ descriptors, added.name ∉ descriptor.supertypes) :
    ∃ classes wider, ofList descriptors = .ok classes ∧ ofList more = .ok wider ∧
      AddsOutsiders base classes wider := by
  obtain ⟨classes, built, listed⟩ := exists_ofList (distinct.sublist (kept.map _))
  obtain ⟨wider, builtToo, listedToo⟩ := exists_ofList distinct
  -- What was added to the graph was added to the list.
  have origin : ∀ added ∈ wider.classes, added ∉ classes.classes →
      ∃ given ∈ more, given ∉ descriptors ∧ given.withDerivedPackage = added := by
    intro added member stranger
    rw [listedToo] at member
    obtain ⟨given, supplied, rfl⟩ := List.mem_map.mp member
    refine ⟨given, supplied, fun old => stranger ?_, rfl⟩
    rw [listed]
    exact List.mem_map_of_mem old
  refine ⟨classes, wider, built, builtToo, ?_, ?_, ?_⟩
  · rw [listed, listedToo]
    exact kept.map _
  · intro added member stranger
    obtain ⟨given, supplied, fresh, rfl⟩ := origin added member stranger
    exact outside given supplied fresh
  · intro descriptor known supertype extended added member stranger same
    rw [listed] at known
    obtain ⟨original, old, rfl⟩ := List.mem_map.mp known
    obtain ⟨given, supplied, fresh, rfl⟩ := origin added member stranger
    rw [ClassDescriptor.supertypes_withDerivedPackage, ← same,
      ClassDescriptor.name_withDerivedPackage] at extended
    exact unnamed given supplied fresh original old extended

/-- Classes outside the base do not influence the verdict. Whatever such classes are added, in
whatever places, discovery fails for the same cause or comes to the same modules, edges,
crossings and reports, as long as the added classes are not extended or implemented by others. -/
theorem verdict_independent_of_outsiders {descriptors more : List ClassDescriptor} {base : String}
    (kept : descriptors.Sublist more) (distinct : (more.map ClassDescriptor.name).Nodup)
    (outside : ∀ added ∈ more, added ∉ descriptors →
      Package.contains base added.withDerivedPackage.package = false)
    (unnamed : ∀ added ∈ more, added ∉ descriptors →
      ∀ descriptor ∈ descriptors, added.name ∉ descriptor.supertypes) :
    ∃ classes wider, ClassGraph.ofList descriptors = .ok classes ∧
      ClassGraph.ofList more = .ok wider ∧ ∀ markers overrides,
        (∃ cause, ModuleGraph.discover ⟨classes, markers⟩ base overrides = .error cause ∧
          ModuleGraph.discover ⟨wider, markers⟩ base overrides = .error cause) ∨
        ∃ graph other, ModuleGraph.discover ⟨classes, markers⟩ base overrides = .ok graph ∧
          ModuleGraph.discover ⟨wider, markers⟩ base overrides = .ok other ∧
          graph.LooksAs other := by
  obtain ⟨classes, wider, built, builtToo, adds⟩ :=
    ClassGraph.exists_ofList_of_outsiders kept distinct outside unnamed
  exact ⟨classes, wider, built, builtToo, fun _ _ => ModuleGraph.discover_looksAs adds⟩

/-- An order that is logged and reaches for the stock. -/
def loggedOrder : List ClassDescriptor := [
  ((ClassDescriptor.named "shop.order.Order").withReference "shop.stock.Stock").withReference
    "log.Log",
  .named "shop.stock.Stock"]

/-- The log knows orders and extends what it reports of. The package of the cart only begins like
the base. -/
def orderWithLog : List ClassDescriptor :=
  ((ClassDescriptor.named "log.Log").withReference "shop.order.Order").withSuperclass
      "shop.stock.Stock" ::
    loggedOrder ++ [(ClassDescriptor.named "shopping.Cart").withReference "shop.stock.Stock"]

theorem verdict_of_logged_order :
    loggedOrder.Sublist orderWithLog ∧ (orderWithLog.map ClassDescriptor.name).Nodup ∧
    (∀ added ∈ orderWithLog, added ∉ loggedOrder →
      Package.contains "shop" added.withDerivedPackage.package = false) ∧
    (∀ added ∈ orderWithLog, added ∉ loggedOrder →
      ∀ descriptor ∈ loggedOrder, added.name ∉ descriptor.supertypes) ∧
    ∃ classes wider, ClassGraph.ofList loggedOrder = .ok classes ∧
      ClassGraph.ofList orderWithLog = .ok wider ∧
      ∃ graph other, ModuleGraph.discover ⟨classes, {}⟩ "shop" [] = .ok graph ∧
        ModuleGraph.discover ⟨wider, {}⟩ "shop" [] = .ok other ∧ graph.LooksAs other := by
  have kept : loggedOrder.Sublist orderWithLog := by decide
  have distinct : (orderWithLog.map ClassDescriptor.name).Nodup := by decide
  have outside : ∀ added ∈ orderWithLog, added ∉ loggedOrder →
      Package.contains "shop" added.withDerivedPackage.package = false := by decide +kernel
  have unnamed : ∀ added ∈ orderWithLog, added ∉ loggedOrder →
      ∀ descriptor ∈ loggedOrder, added.name ∉ descriptor.supertypes := by decide
  obtain ⟨classes, wider, built, builtToo, verdict⟩ :=
    verdict_independent_of_outsiders kept distinct outside unnamed
  refine ⟨kept, distinct, outside, unnamed, classes, wider, built, builtToo, ?_⟩
  obtain ⟨again, builtAgain, listed⟩ := ClassGraph.exists_ofList (distinct.sublist (kept.map _))
  cases built.symm.trans builtAgain
  have clear : ModuleGraph.obstacle? ⟨classes, {}⟩ "shop" = none := by
    simp only [ModuleGraph.obstacle?, ModuleGraph.IsBroken, ClassGraph.residents, listed]
    decide +kernel
  obtain ⟨_, discovered⟩ := ModuleGraph.exists_discover.mpr clear
  rcases verdict {} [] with ⟨cause, failed, -⟩ | found
  · rw [discovered] at failed
    cases failed
  · exact found

end ModuleBoundary
