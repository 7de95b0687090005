import ModuleBoundary.Proofs.ModuleGraph.Discovery

/-! Whether modules are discovered below a base, and what is wrong if they are not.

The base can be malformed, or deserted, or continued by an empty segment, and these are noticed
in this order. Nothing else can go wrong: a package that is found below a sound base has classes
in it, and no two of them end in the same segment.
-/

set_option autoImplicit false

namespace ModuleBoundary

variable {codebase : Codebase} {base package : String} {overrides : List (String × ModuleDefinition)}

instance {segment : List Char} {candidate : String} :
    Decidable (Package.IsNextSegment package segment candidate) :=
  inferInstanceAs (Decidable (_ <+: _))

theorem mapM_eq_self {α ε : Type} {check : α → Except ε α} {items : List α}
    (passes : ∀ item ∈ items, check item = .ok item) : items.mapM check = .ok items := by
  induction items with
  | nil => rfl
  | cons item rest ih =>
    obtain ⟨first, later⟩ := List.forall_mem_cons.mp passes
    rw [List.mapM_cons, first, ih later]
    rfl

theorem ClassGraph.classesIn_eq_ok {graph : ClassGraph} (sound : Package.isValid base = true)
    (inhabited : graph.residents base ≠ []) :
    graph.classesIn base = .ok (graph.residents base) := by
  unfold classesIn
  rw [if_pos sound]
  split
  · next deserted => exact absurd deserted inhabited
  · rfl

namespace ModuleGraph

/-- The packages that modules are discovered at. -/
def foundPackages (codebase : Codebase) (base : String) : List String :=
  (subPackages base (codebase.classes.residents base)).toList

theorem mem_foundPackages :
    package ∈ foundPackages codebase base ↔ ∃ descriptor ∈ codebase.classes.classes, ∃ segment,
      Package.IsNextSegment base segment descriptor.package ∧
        package = base ++ "." ++ String.ofList segment := by
  simp only [foundPackages, mem_subPackages_residents, Package.child?_eq_some]

/-! What is found below a sound base. -/

theorem lastSegment_foundPackages_nodup (codebase : Codebase) (base : String) :
    ((foundPackages codebase base).map Package.lastSegment).Nodup := by
  have distinct : (foundPackages codebase base).Nodup :=
    (NameSet.ascending _).imp String.ne_of_lt
  refine distinct.map_on ?_
  intro package found other foundToo same
  obtain ⟨_, _, segment, next, rfl⟩ := mem_foundPackages.mp found
  obtain ⟨_, _, segmentToo, nextToo, rfl⟩ := mem_foundPackages.mp foundToo
  rw [Package.lastSegment_append_segment next, Package.lastSegment_append_segment nextToo] at same
  rw [same]

theorem residents_ne_nil_of_mem_foundPackages (found : package ∈ foundPackages codebase base) :
    codebase.classes.residents package ≠ [] := by
  obtain ⟨descriptor, known, child⟩ := mem_subPackages_residents.mp found
  apply List.ne_nil_of_mem
  exact List.mem_filter.mpr ⟨known, (Package.contains_child_iff child).mpr child⟩

theorem checked_of_mem_foundPackages (found : package ∈ foundPackages codebase base) :
    (discoveredDefinition overrides package).checked codebase =
      if Package.isValid package then .ok (discoveredDefinition overrides package)
      else .error (.invalidBasePackage package) := by
  have inhabited : (codebase.classes.residents package).isEmpty = false :=
    List.isEmpty_eq_false_iff.mpr (residents_ne_nil_of_mem_foundPackages found)
  simp [ModuleDefinition.checked, inhabited]

theorem name_discoveredDefinition (overrides : List (String × ModuleDefinition)) (package : String) :
    (discoveredDefinition overrides package).name = Package.lastSegment package := by
  rw [ModuleDefinition.name, basePackage_discoveredDefinition]

theorem distinctlyNamed_foundPackages :
    distinctlyNamed ((foundPackages codebase base).map (discoveredDefinition overrides)) =
      .ok ((foundPackages codebase base).map (discoveredDefinition overrides)) := by
  have clear : firstClash? ModuleDefinition.name []
      ((foundPackages codebase base).map (discoveredDefinition overrides)) = none := by
    refine firstClash?_eq_none_iff.mpr ⟨?_, by simp⟩
    simp only [List.map_map, Function.comp_def, name_discoveredDefinition]
    exact lastSegment_foundPackages_nodup codebase base
  unfold distinctlyNamed
  rw [clear]

/-- Some class lives in a package that continues the base with an empty segment. -/
def IsBroken (codebase : Codebase) (base : String) : Prop :=
  ∃ descriptor ∈ codebase.classes.classes, Package.IsNextSegment base [] descriptor.package

instance : Decidable (IsBroken codebase base) := inferInstanceAs (Decidable (∃ _ ∈ _, _))

theorem isValid_of_mem_foundPackages (sound : Package.isValid base = true)
    (unbroken : ¬IsBroken codebase base) (found : package ∈ foundPackages codebase base) :
    Package.isValid package = true := by
  obtain ⟨descriptor, known, segment, next, rfl⟩ := mem_foundPackages.mp found
  apply (Package.isValid_append_segment next sound).mpr
  rintro rfl
  exact unbroken ⟨descriptor, known, next⟩

/-- The package that ends in an empty segment is found before all others. -/
theorem foundPackages_of_isBroken (broken : IsBroken codebase base) :
    ∃ rest, foundPackages codebase base = (base ++ ".") :: rest := by
  obtain ⟨descriptor, known, next⟩ := broken
  have found : base ++ "." ∈ foundPackages codebase base :=
    mem_foundPackages.mpr ⟨descriptor, known, [], next, by simp⟩
  have ascending : (foundPackages codebase base).Pairwise (· < ·) := NameSet.ascending _
  cases packages : foundPackages codebase base with
  | nil =>
    rw [packages] at found
    cases found
  | cons first rest =>
    rw [packages] at found ascending
    refine ⟨rest, ?_⟩
    rcases List.mem_cons.mp found with same | later
    · rw [same]
    · -- The first package is none that could come before it.
      have member : first ∈ foundPackages codebase base := packages ▸ List.mem_cons_self
      obtain ⟨_, _, segment, _, rfl⟩ := mem_foundPackages.mp member
      have before := List.rel_of_pairwise_cons ascending later
      exact absurd before (String.not_lt.mpr (Package.append_dot_le base segment))

theorem isValid_append_dot (base : String) : Package.isValid (base ++ ".") = false := by
  have segments : Package.segments (base ++ ".") = Package.segments base ++ [[]] := by
    simp [Package.segments, List.splitOn_append_cons_self]
  apply Bool.eq_false_iff.mpr
  rw [Ne, Package.isValid_iff, segments]
  simp

/-! The outcome. -/

/-- What stands in the way of discovery below a base. Neither markers nor overrides have a part
in it. -/
def obstacle? (codebase : Codebase) (base : String) : Option ModuleError :=
  if Package.isValid base then
    if codebase.classes.residents base = [] then some (.emptyModule base)
    else if IsBroken codebase base then some (.invalidBasePackage (base ++ "."))
    else none
  else some (.classes (.invalidPackage base))

theorem discover_of_inhabited (sound : Package.isValid base = true)
    (inhabited : codebase.classes.residents base ≠ []) :
    discover codebase base overrides =
      ofDefinitions codebase ((foundPackages codebase base).map (discoveredDefinition overrides)) := by
  unfold discover
  rw [ClassGraph.classesIn_eq_ok sound inhabited]
  rfl

theorem mapM_checked_of_unbroken (sound : Package.isValid base = true)
    (unbroken : ¬IsBroken codebase base) :
    ((foundPackages codebase base).map (discoveredDefinition overrides)).mapM
        (ModuleDefinition.checked codebase) =
      .ok ((foundPackages codebase base).map (discoveredDefinition overrides)) := by
  apply mapM_eq_self
  intro declared listed
  obtain ⟨package, found, rfl⟩ := List.mem_map.mp listed
  rw [checked_of_mem_foundPackages found, if_pos (isValid_of_mem_foundPackages sound unbroken found)]

theorem mapM_checked_of_isBroken (broken : IsBroken codebase base) :
    ((foundPackages codebase base).map (discoveredDefinition overrides)).mapM
        (ModuleDefinition.checked codebase) = .error (.invalidBasePackage (base ++ ".")) := by
  obtain ⟨rest, packages⟩ := foundPackages_of_isBroken broken
  have found : base ++ "." ∈ foundPackages codebase base := packages ▸ List.mem_cons_self
  have refused : (discoveredDefinition overrides (base ++ ".")).checked codebase = _ :=
    checked_of_mem_foundPackages found
  rw [isValid_append_dot] at refused
  rw [packages, List.map_cons, List.mapM_cons, refused]
  rfl

/-- Discovery fails with what stands in its way, and otherwise takes over every definition. -/
theorem definitions_discover (codebase : Codebase) (base : String)
    (overrides : List (String × ModuleDefinition)) :
    (discover codebase base overrides).map definitions =
      match obstacle? codebase base with
      | some cause => .error cause
      | none => .ok ((foundPackages codebase base).map (discoveredDefinition overrides)) := by
  unfold obstacle?
  by_cases sound : Package.isValid base = true
  · by_cases deserted : codebase.classes.residents base = []
    · simp [discover, ClassGraph.classesIn, sound, deserted, Except.map]
    · rw [if_pos sound, if_neg deserted, discover_of_inhabited sound deserted,
        ofDefinitions_definitions]
      by_cases broken : IsBroken codebase base
      · rw [if_pos broken, mapM_checked_of_isBroken broken]
        rfl
      · rw [if_neg broken, mapM_checked_of_unbroken sound broken]
        exact distinctlyNamed_foundPackages
  · simp [discover, ClassGraph.classesIn, sound, Except.map]

theorem discover_eq_error {cause : ModuleError} :
    discover codebase base overrides = .error cause ↔ obstacle? codebase base = some cause := by
  have outcome := definitions_discover codebase base overrides
  cases discovered : discover codebase base overrides <;>
    cases obstacle : obstacle? codebase base <;>
    simp_all [Except.map]

theorem exists_discover :
    (∃ graph, discover codebase base overrides = .ok graph) ↔ obstacle? codebase base = none := by
  have outcome := definitions_discover codebase base overrides
  cases discovered : discover codebase base overrides <;>
    cases obstacle : obstacle? codebase base <;>
    simp_all [Except.map]

theorem definitions_of_discover {graph : ModuleGraph codebase}
    (discovered : discover codebase base overrides = .ok graph) :
    graph.definitions = (foundPackages codebase base).map (discoveredDefinition overrides) := by
  have outcome := definitions_discover codebase base overrides
  rw [exists_discover.mp ⟨graph, discovered⟩, discovered] at outcome
  exact Except.ok.inj outcome

theorem basePackages_of_discover {graph : ModuleGraph codebase}
    (discovered : discover codebase base overrides = .ok graph) :
    graph.modules.map (·.basePackage) = foundPackages codebase base := by
  have defined := congrArg (List.map ModuleDefinition.basePackage)
    (definitions_of_discover discovered)
  simpa [ApplicationModule.basePackage, definitions, Function.comp_def] using defined

theorem definition_of_discover {graph : ModuleGraph codebase}
    (discovered : discover codebase base overrides = .ok graph)
    {module : ApplicationModule codebase} (known : module ∈ graph.modules) :
    module.definition = discoveredDefinition overrides module.basePackage := by
  have listed : module.definition ∈ graph.definitions := List.mem_map_of_mem known
  rw [definitions_of_discover discovered] at listed
  obtain ⟨package, -, same⟩ := List.mem_map.mp listed
  rw [ApplicationModule.basePackage, ← same, basePackage_discoveredDefinition]

theorem residents_eq_nil_iff : codebase.classes.residents base = [] ↔
    ∀ descriptor ∈ codebase.classes.classes, Package.contains base descriptor.package = false := by
  simp [ClassGraph.residents, ClassDescriptor.residesIn]

theorem isValid_eq_false_iff :
    Package.isValid base = false ↔ base = "" ∨ [] ∈ Package.segments base := by
  rw [← Bool.not_eq_true, Package.isValid_iff, not_not]
  constructor
  · exact .inr
  · rintro (rfl | broken)
    · decide
    · exact broken

/-- Discovery fails for a malformed base, else for one without classes, else for one that the
package of some class continues with an empty segment, and otherwise it succeeds. These are all
the errors there are. In particular no two modules that are found bear one name, and none of them
is without classes. -/
theorem discover_outcome (codebase : Codebase) (base : String)
    (overrides : List (String × ModuleDefinition)) :
    let malformed := base = "" ∨ [] ∈ Package.segments base
    let deserted := ∀ descriptor ∈ codebase.classes.classes,
      Package.contains base descriptor.package = false
    let broken := ∃ descriptor ∈ codebase.classes.classes,
      Package.IsNextSegment base [] descriptor.package
    (discover codebase base overrides = .error (.classes (.invalidPackage base)) ↔ malformed) ∧
    (discover codebase base overrides = .error (.emptyModule base) ↔ ¬malformed ∧ deserted) ∧
    (discover codebase base overrides = .error (.invalidBasePackage (base ++ ".")) ↔
      ¬malformed ∧ ¬deserted ∧ broken) ∧
    ((∃ graph, discover codebase base overrides = .ok graph) ↔
      ¬malformed ∧ ¬deserted ∧ ¬broken) ∧
    ∀ cause, discover codebase base overrides = .error cause →
      cause = .classes (.invalidPackage base) ∨ cause = .emptyModule base ∨
        cause = .invalidBasePackage (base ++ ".") := by
  intro malformed deserted broken
  simp only [discover_eq_error, exists_discover, obstacle?]
  have soundness : Package.isValid base = true ↔ ¬malformed := by
    rw [← Bool.not_eq_false, isValid_eq_false_iff]
  have desertion : codebase.classes.residents base = [] ↔ deserted := residents_eq_nil_iff
  have breakage : IsBroken codebase base ↔ broken := Iff.rfl
  simp only [soundness, desertion, breakage]
  by_cases malformed <;> by_cases deserted <;> by_cases broken <;> simp_all

end ModuleGraph

end ModuleBoundary
