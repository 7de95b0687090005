import ModuleBoundary.Proofs.ModuleGraph.Dependencies
import ModuleBoundary.Proofs.Package

/-! What the entries of a list of allowed dependencies mean.

An entry may be the name of a module or its base package, and only names are checked for clashes.
But a base package tells the name, which is its last segment, and a name is its own last segment. So
an entry tells the name of the module that it means, whichever of the two it is.
-/

set_option autoImplicit false

namespace ModuleBoundary

variable {codebase : Codebase}

namespace ApplicationModule

/-- An entry that is the name of a module or its base package. -/
def IsMeantBy (module : ApplicationModule codebase) (entry : String) : Prop :=
  entry = module.name ∨ entry = module.basePackage

instance (module : ApplicationModule codebase) (entry : String) :
    Decidable (module.IsMeantBy entry) :=
  inferInstanceAs (Decidable (_ ∨ _))

theorem IsMeantBy.name_eq {module : ApplicationModule codebase} {entry : String}
    (meant : module.IsMeantBy entry) : module.name = Package.lastSegment entry := by
  rcases meant with rfl | rfl
  · exact (Package.lastSegment_lastSegment _).symm
  · rfl

theorem allows_iff {module other : ApplicationModule codebase} {allowed : List String}
    (declared : module.definition.allowedDependencies = some allowed) :
    module.allows other = true ↔ ∃ entry ∈ allowed, other.IsMeantBy entry := by
  unfold allows ModuleDefinition.allows
  rw [declared]
  simp [IsMeantBy, name, basePackage]

end ApplicationModule

namespace ModuleGraph

theorem eq_of_isMeantBy (graph : ModuleGraph codebase) {first second : ApplicationModule codebase}
    {entry : String} (known : first ∈ graph.modules) (other : second ∈ graph.modules)
    (meant : first.IsMeantBy entry) (meantToo : second.IsMeantBy entry) : first = second :=
  graph.eq_of_name_eq known other (meant.name_eq.trans meantToo.name_eq.symm)

/-- The module of a graph that an entry means. -/
def meant? (graph : ModuleGraph codebase) (entry : String) : Option (ApplicationModule codebase) :=
  graph.modules.find? (·.IsMeantBy entry)

theorem meant?_of_isMeantBy (graph : ModuleGraph codebase) {module : ApplicationModule codebase}
    {entry : String} (known : module ∈ graph.modules) (meant : module.IsMeantBy entry) :
    graph.meant? entry = some module := by
  unfold meant?
  cases found : graph.modules.find? (·.IsMeantBy entry) with
  | none => exact absurd (decide_eq_true meant) (List.find?_eq_none.mp found module known)
  | some other =>
    have chosen : other.IsMeantBy entry := by simpa using List.find?_some found
    exact congrArg some
      (graph.eq_of_isMeantBy (List.mem_of_find?_eq_some found) known chosen meant)

theorem length_allowed_le (graph : ModuleGraph codebase) {module : ApplicationModule codebase}
    {allowed : List String} (declared : module.definition.allowedDependencies = some allowed) :
    (graph.modules.filter module.allows).length ≤ allowed.length := by
  -- The modules of a graph are distinct, so their number is bounded by that of what entries mean.
  have admitted : graph.modules.filter module.allows ⊆ allowed.filterMap graph.meant? := by
    intro other member
    obtain ⟨known, allows⟩ := List.mem_filter.mp member
    obtain ⟨entry, listed, meant⟩ := (ApplicationModule.allows_iff declared).mp allows
    exact List.mem_filterMap.mpr ⟨entry, listed, graph.meant?_of_isMeantBy known meant⟩
  calc (graph.modules.filter module.allows).length
      ≤ (allowed.filterMap graph.meant?).length :=
        (List.subperm_of_subset (graph.modules_nodup.filter _) admitted).length_le
    _ ≤ allowed.length := List.length_filterMap_le _ _

theorem basePackages_nodup (graph : ModuleGraph codebase) :
    (graph.modules.map ApplicationModule.basePackage).Nodup := by
  refine graph.modules_nodup.map_on ?_
  intro first known second other same
  exact graph.eq_of_basePackage_eq known other same

/-- Among the modules of a graph every text is the name or the base package of one at most. So base
packages are distinct, and a list of allowed dependencies admits the modules that its entries mean,
one at most for each entry. -/
theorem allowed_entries_unambiguous (graph : ModuleGraph codebase) :
    (∀ entry, {module | module ∈ graph.modules ∧ module.IsMeantBy entry}.Subsingleton) ∧
    (graph.modules.map ApplicationModule.basePackage).Nodup ∧
    ∀ (module : ApplicationModule codebase) (allowed : List String),
      module.definition.allowedDependencies = some allowed →
        (∀ other, module.allows other = true ↔ ∃ entry ∈ allowed, other.IsMeantBy entry) ∧
        (graph.modules.filter module.allows).length ≤ allowed.length := by
  refine ⟨?_, graph.basePackages_nodup, ?_⟩
  · rintro entry first ⟨known, meant⟩ second ⟨other, meantToo⟩
    exact graph.eq_of_isMeantBy known other meant meantToo
  · intro module allowed declared
    exact ⟨fun _ => ApplicationModule.allows_iff declared, graph.length_allowed_le declared⟩

end ModuleGraph

end ModuleBoundary
