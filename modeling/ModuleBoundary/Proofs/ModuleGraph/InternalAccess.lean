import ModuleBoundary.Proofs.ClassGraph.Inheritance
import ModuleBoundary.Proofs.ModuleGraph.Comparison

/-! Accesses to types that their module keeps to itself.

Exposure is asked for by name, in the list of one module. A name stands for one class, and
a crossing leads to the owner of that class, also where the class is a member of further modules
around it. So what is answered for the name holds of the class, judged by its owner alone.
-/

set_option autoImplicit false

namespace ModuleBoundary

variable {codebase : Codebase}

/-- Public types are open to other modules if they live directly in the base package, bear the
exposed marker or are components. -/
def ApplicationModule.Opens (module : ApplicationModule codebase)
    (descriptor : ClassDescriptor) : Prop :=
  descriptor.visibility = .publicAccess ∧
    (descriptor.package = module.basePackage ∨
      codebase.markers.exposed.IsBorneBy codebase.classes descriptor ∨
      codebase.markers.component.IsBorneBy codebase.classes descriptor)

instance (module : ApplicationModule codebase) (descriptor : ClassDescriptor) :
    Decidable (module.Opens descriptor) :=
  inferInstanceAs (Decidable (_ ∧ _))

/-- A pattern matches the name of the type, or it bears the marker of extension points. -/
def ExtensionPoints.Exempts (points : ExtensionPoints) (classes : ClassGraph)
    (descriptor : ClassDescriptor) : Prop :=
  (∃ pattern ∈ points.patterns, Glob.isMatch pattern descriptor.name = true) ∨
    points.marker.IsBorneBy classes descriptor

instance (points : ExtensionPoints) (classes : ClassGraph) (descriptor : ClassDescriptor) :
    Decidable (points.Exempts classes descriptor) :=
  inferInstanceAs (Decidable (_ ∨ _))

/-- A crossing into a type that is neither open nor exempt. -/
def ClassDependency.Intrudes (crossing : ClassDependency codebase) (points : ExtensionPoints) : Prop :=
  ¬ crossing.targetModule.Opens crossing.target ∧
    ¬ points.Exempts codebase.classes crossing.target

instance (crossing : ClassDependency codebase) (points : ExtensionPoints) :
    Decidable (crossing.Intrudes points) :=
  inferInstanceAs (Decidable (_ ∧ _))

theorem ExtensionPoints.include_iff {points : ExtensionPoints} {classes : ClassGraph}
    {descriptor : ClassDescriptor} (found : classes.get? descriptor.name = some descriptor) :
    points.include classes descriptor.name = true ↔ points.Exempts classes descriptor := by
  rw [ExtensionPoints.include, found, Option.any_some, Bool.or_eq_true, List.any_eq_true,
    Marker.marks_iff]
  rfl

namespace ModuleGraph

theorem residesIn_of_owner? (graph : ModuleGraph codebase) {descriptor : ClassDescriptor}
    {owner : ApplicationModule codebase}
    (found : codebase.classes.get? descriptor.name = some descriptor)
    (owned : graph.owner? descriptor.name = some owner) :
    descriptor.residesIn owner.basePackage = true := by
  rw [owner?, found, Option.bind_some, ownerOfClass?_eq_some] at owned
  exact owned.contains

theorem IsCrossing.isExposed_iff {graph : ModuleGraph codebase}
    {crossing : ClassDependency codebase} (crossed : graph.IsCrossing crossing) :
    crossing.targetModule.isExposed crossing.target.name = true ↔
      crossing.targetModule.Opens crossing.target := by
  -- The target is a member of the module whose list is asked, and its name stands for it alone.
  have resident := graph.residesIn_of_owner? crossed.target crossed.targetOwner
  rw [isExposed_eq, exposes_eq, crossed.target, Option.any_some, resident, Bool.true_and]
  simp only [ClassDescriptor.isPublic, Bool.and_eq_true, Bool.or_eq_true, decide_eq_true_eq,
    beq_iff_eq, Marker.marks_iff, or_assoc]
  rfl

end ModuleGraph

end ModuleBoundary
