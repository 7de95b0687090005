import ModuleBoundary.Proofs.ClassGraph.Agreement

/-! Class graphs that hold the same classes in different orders.

Classes are looked up by name, and names are distinct, so whatever is said of a class by its
name is the same for both. Only listings show the order.
-/

set_option autoImplicit false

namespace ModuleBoundary

variable {first second : ClassGraph} (same : first.classes.Perm second.classes)
include same

namespace ClassGraph

theorem get?_eq_of_perm (name : String) : first.get? name = second.get? name := by
  apply Option.ext
  intro descriptor
  rw [get?_eq_some, get?_eq_some, same.mem_iff]

theorem residents_perm (package : String) :
    (first.residents package).Perm (second.residents package) :=
  same.filter _

theorem agreesOn_of_perm : AgreesOn (fun _ => True) first second where
  supertypes name _ := by rw [get?_eq_of_perm same]
  closed _ _ _ _ _ _ := trivial

end ClassGraph

theorem Marker.marks_eq_of_perm (marker : Marker) : marker.marks first = marker.marks second := by
  funext descriptor
  exact (ClassGraph.agreesOn_of_perm same).marks_eq rfl rfl rfl (fun _ _ => trivial) fun _ _ => rfl

end ModuleBoundary
