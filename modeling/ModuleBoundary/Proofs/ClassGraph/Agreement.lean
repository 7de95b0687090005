import ModuleBoundary.Proofs.ClassGraph.Inheritance
import ModuleBoundary.Rules

/-! Class graphs that cannot be told apart by walks along supertypes.

Markers and extension points ask a graph for nothing but the class behind a name and the walks
from it. Where two graphs have the same supertypes behind all names that such walks meet, they
give the same answers, whatever else their classes are.
-/

set_option autoImplicit false

namespace ModuleBoundary

variable {first second : ClassGraph} {known : String → Prop}

/-- Two graphs have the same supertypes behind each of the known names, and no supertype leads
out of these. -/
structure ClassGraph.AgreesOn (known : String → Prop) (first second : ClassGraph) : Prop where
  supertypes : ∀ name, known name → (first.get? name).map ClassDescriptor.supertypes =
    (second.get? name).map ClassDescriptor.supertypes
  closed : ∀ name descriptor, known name → first.get? name = some descriptor →
    ∀ supertype ∈ descriptor.supertypes, known supertype

namespace ClassGraph.AgreesOn

theorem symm (agrees : AgreesOn known first second) : AgreesOn known second first where
  supertypes name here := (agrees.supertypes name here).symm
  closed name descriptor here found supertype above := by
    have same := agrees.supertypes name here
    rw [found, Option.map_some, Option.map_eq_some_iff] at same
    obtain ⟨counterpart, foundToo, same⟩ := same
    exact agrees.closed name counterpart here foundToo supertype (same ▸ above)

theorem ascends (agrees : AgreesOn known first second) {name supertype : String} (here : known name)
    (step : first.Ascends name supertype) : second.Ascends name supertype := by
  rw [ascends_iff] at step ⊢
  rwa [← agrees.supertypes name here]

theorem known_of_ascends (agrees : AgreesOn known first second) {name supertype : String}
    (here : known name) (step : first.Ascends name supertype) : known supertype := by
  obtain ⟨descriptor, found, above⟩ := step
  exact agrees.closed name descriptor here found supertype
    (ClassDescriptor.mem_supertypes.mpr above)

/-- Steps up from a known name stay among the known names. -/
theorem reflTransGen (agrees : AgreesOn known first second) {name supertype : String}
    (path : Relation.ReflTransGen first.Ascends name supertype) (here : known name) :
    Relation.ReflTransGen second.Ascends name supertype := by
  induction path using Relation.ReflTransGen.head_induction_on with
  | refl => exact .refl
  | head step _ ih => exact .head (agrees.ascends here step) (ih (agrees.known_of_ascends here step))

theorem inherits (agrees : AgreesOn known first second) {descriptor other : ClassDescriptor}
    (derived : descriptor.supertypes = other.supertypes)
    (within : ∀ supertype ∈ descriptor.supertypes, known supertype) {supertype : String}
    (inherited : first.Inherits descriptor supertype) : second.Inherits other supertype := by
  obtain ⟨parent, above, path⟩ := inherited
  rw [← ClassDescriptor.mem_supertypes] at above
  exact ⟨parent, ClassDescriptor.mem_supertypes.mp (derived ▸ above),
    agrees.reflTransGen path (within parent above)⟩

/-- Classes of one name with the same annotations and supertypes bear the same markers, if no
predicate tells them apart. -/
theorem marks_eq (agrees : AgreesOn known first second) {marker : Marker}
    {descriptor other : ClassDescriptor} (named : descriptor.name = other.name)
    (annotated : descriptor.annotations = other.annotations)
    (derived : descriptor.supertypes = other.supertypes)
    (within : ∀ supertype ∈ descriptor.supertypes, known supertype)
    (accepted : ∀ predicate ∈ marker.predicates, predicate descriptor = predicate other) :
    marker.marks first descriptor = marker.marks second other := by
  have predicates : marker.predicates.any (· descriptor) = marker.predicates.any (· other) := by
    rw [Bool.eq_iff_iff, List.any_eq_true, List.any_eq_true]
    exact exists_congr fun predicate => and_congr_right fun listed => by rw [accepted _ listed]
  have assignable (supertype : String) :
      first.isAssignableTo descriptor supertype = second.isAssignableTo other supertype := by
    rw [Bool.eq_iff_iff, isAssignableTo_iff, isAssignableTo_iff]
    exact ⟨agrees.inherits derived within, agrees.symm.inherits derived.symm (derived ▸ within)⟩
  rw [Marker.marks, Marker.marks, predicates]
  simp only [named, annotated, assignable]

end ClassGraph.AgreesOn

end ModuleBoundary
