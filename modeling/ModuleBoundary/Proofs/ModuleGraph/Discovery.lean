import ModuleBoundary.Proofs.Names
import ModuleBoundary.Proofs.Package

/-! The outcome of building and of discovering modules.

A module carries the proofs that its definition is valid and that classes live in it, and a
graph that names are distinct. To build them is therefore to check definitions, and what comes
of it depends on nothing but the definitions and on which packages have classes.
-/

set_option autoImplicit false

namespace ModuleBoundary

variable {codebase : Codebase}

theorem map_mapM {α β γ ε : Type} (build : α → Except ε β) (view : β → γ) (items : List α) :
    (items.mapM build).map (List.map view) = items.mapM fun item => (build item).map view := by
  induction items with
  | nil => rfl
  | cons item rest ih =>
    rw [List.mapM_cons, List.mapM_cons, ← ih]
    cases build item with
    | error e => rfl
    | ok built => cases rest.mapM build <;> rfl

theorem ApplicationModule.eq_of_definition_eq {first second : ApplicationModule codebase}
    (same : first.definition = second.definition) : first = second := by
  cases first
  cases second
  cases same
  rfl

/-- A definition that a module can be built of. -/
def ModuleDefinition.checked (codebase : Codebase) (declared : ModuleDefinition) :
    Except ModuleError ModuleDefinition :=
  if Package.isValid declared.basePackage then
    if (codebase.classes.residents declared.basePackage).isEmpty then
      .error (.emptyModule declared.basePackage)
    else .ok declared
  else .error (.invalidBasePackage declared.basePackage)

theorem ApplicationModule.of_definition (declared : ModuleDefinition) :
    (of codebase declared).map definition = declared.checked codebase := by
  unfold of ModuleDefinition.checked
  split
  · split
    · next deserted =>
      rw [deserted]
      rfl
    · next first rest inhabited =>
      have occupied : ¬(codebase.classes.residents declared.basePackage).isEmpty := by
        simp [inhabited]
      rw [if_neg occupied]
      rfl
  · rfl

namespace ModuleGraph

def definitions (graph : ModuleGraph codebase) : List ModuleDefinition :=
  graph.modules.map (·.definition)

/-- Definitions whose modules bear distinct names. -/
def distinctlyNamed (declared : List ModuleDefinition) :
    Except ModuleError (List ModuleDefinition) :=
  match firstClash? ModuleDefinition.name [] declared with
  | some (first, second) =>
    .error (.duplicateName second.name first.basePackage second.basePackage)
  | none => .ok declared

theorem ofModules_definitions (modules : List (ApplicationModule codebase)) :
    (ofModules modules).map definitions = distinctlyNamed (modules.map (·.definition)) := by
  have clashes : firstClash? ModuleDefinition.name [] (modules.map (·.definition)) =
      (firstClash? ApplicationModule.name [] modules).map
        (Prod.map ApplicationModule.definition ApplicationModule.definition) :=
    firstClash?_map ApplicationModule.definition [] modules
  unfold ofModules distinctlyNamed
  split
  · next found =>
    rw [clashes, found]
    rfl
  · next clear =>
    rw [clear] at clashes
    rw [clashes]
    rfl

/-- Building a graph is checking each definition, and then their names. -/
theorem ofDefinitions_definitions (declared : List ModuleDefinition) :
    (ofDefinitions codebase declared).map definitions =
      declared.mapM (ModuleDefinition.checked codebase) >>= distinctlyNamed := by
  have built : declared.mapM (ModuleDefinition.checked codebase) =
      (declared.mapM (ApplicationModule.of codebase)).map (List.map (·.definition)) := by
    rw [map_mapM]
    simp only [ApplicationModule.of_definition]
  unfold ofDefinitions
  rw [built]
  cases declared.mapM (ApplicationModule.of codebase) with
  | error e => rfl
  | ok modules => exact ofModules_definitions modules

theorem exists_ofModules {modules : List (ApplicationModule codebase)}
    (distinct : (modules.map ApplicationModule.name).Nodup) :
    ∃ graph, ofModules modules = .ok graph := by
  let graph : ModuleGraph codebase :=
    { modules, distinct, classDependencies := _, classDependencies_eq := rfl, weights := _,
      weights_eq := rfl }
  exact ⟨graph, ofModules_eq_ok.mpr rfl⟩

/-! The packages that modules are discovered at. -/

@[simp] theorem basePackage_discoveredDefinition (overrides : List (String × ModuleDefinition))
    (package : String) : (discoveredDefinition overrides package).basePackage = package := by
  unfold discoveredDefinition
  split <;> rfl

/-- A package has a module discovered if some class lives in or below it, one segment deeper
than the base. -/
theorem mem_subPackages_residents {base package : String} :
    package ∈ (subPackages base (codebase.classes.residents base)).toList ↔
      ∃ descriptor ∈ codebase.classes.classes,
        Package.child? base descriptor.package = some package := by
  change package ∈ subPackages base (codebase.classes.residents base) ↔ _
  rw [subPackages, NameSet.mem_ofList, List.mem_filterMap]
  constructor
  · rintro ⟨descriptor, resident, found⟩
    exact ⟨descriptor, List.mem_of_mem_filter resident, found⟩
  · rintro ⟨descriptor, known, found⟩
    have below : Package.isStrictlyBelow base descriptor.package = true := by
      rw [← Package.isSome_child?, found, Option.isSome_some]
    have resident := (Bool.and_eq_true_iff.mp below).1
    exact ⟨descriptor, List.mem_filter.mpr ⟨known, resident⟩, found⟩

end ModuleGraph

end ModuleBoundary
