import Mathlib.Logic.Relation
import ModuleBoundary.Marker
import ModuleBoundary.Proofs.Names

/-! Inheritance, however many steps along supertypes it takes.

The first step leads from a class to a supertype of its own, each further one from a name to a
supertype of the class that the graph holds under it. Hierarchies may have cycles and diamonds and
may lead out of the graph. A walk that goes on from no name twice misses nothing all the same: a
path that comes through a name goes on from its last visit there without it.
-/

set_option autoImplicit false

namespace ModuleBoundary

/-- One step up from a class, to its superclass or to an interface. -/
def ClassDescriptor.Extends (descriptor : ClassDescriptor) (supertype : String) : Prop :=
  descriptor.superclass = some supertype ∨ supertype ∈ descriptor.interfaces

theorem ClassDescriptor.mem_supertypes {descriptor : ClassDescriptor} {supertype : String} :
    supertype ∈ descriptor.supertypes ↔ descriptor.Extends supertype := by
  rw [supertypes, List.mem_append, Option.mem_toList]
  rfl

namespace ClassGraph

/-- One step up from a name, which the graph has to hold a class under. -/
def Ascends (graph : ClassGraph) (name supertype : String) : Prop :=
  ∃ descriptor, graph.get? name = some descriptor ∧ descriptor.Extends supertype

/-- One or more steps up from a class. -/
def Inherits (graph : ClassGraph) (descriptor : ClassDescriptor) (supertype : String) : Prop :=
  ∃ parent, descriptor.Extends parent ∧ Relation.ReflTransGen graph.Ascends parent supertype

variable {graph : ClassGraph} {seen pending : List String} {current supertype name : String}

theorem ascends_iff : graph.Ascends name supertype ↔
    ∃ above ∈ (graph.get? name).map ClassDescriptor.supertypes, supertype ∈ above := by
  simp [Ascends, ClassDescriptor.mem_supertypes]

/-- Steps up that leave no name of `seen`. -/
def Climbs (graph : ClassGraph) (seen : List String) : String → String → Prop :=
  Relation.ReflTransGen fun name supertype => name ∉ seen ∧ graph.Ascends name supertype

theorem climbs_nil : graph.Climbs [] = Relation.ReflTransGen graph.Ascends := by
  simp [Climbs]

theorem Climbs.of_cons (climbs : graph.Climbs (current :: seen) name supertype) :
    graph.Climbs seen name supertype :=
  Relation.ReflTransGen.mono
    (fun _ _ step => ⟨List.not_mem_of_not_mem_cons step.1, step.2⟩) name supertype climbs

theorem Climbs.eq_of_mem (climbs : graph.Climbs seen current supertype) (left : current ∈ seen) :
    current = supertype := by
  obtain same | ⟨_, ⟨fresh, _⟩, _⟩ := Relation.ReflTransGen.cases_head climbs
  · exact same
  · exact absurd left fresh

/-- Beyond the last visit to a name, steps up do without it. -/
theorem Climbs.skirts (climbs : graph.Climbs seen name supertype) (current : String) :
    graph.Climbs (current :: seen) name supertype ∨
      ∃ next, graph.Ascends current next ∧ graph.Climbs (current :: seen) next supertype := by
  -- From the end of the path back to its start, so that the last visit is met first.
  induction climbs using Relation.ReflTransGen.head_induction_on with
  | refl => exact .inl .refl
  | @head name next step _ ih =>
    obtain beyond | later := ih
    · by_cases here : name = current
      · exact .inr ⟨next, here ▸ step.2, beyond⟩
      · exact .inl (.head ⟨List.not_mem_cons_of_ne_of_not_mem here step.1, step.2⟩ beyond)
    · exact .inr later

/-- A name that was left before may be passed over, unless it is the one that is looked for. -/
theorem exists_climbs_cons_iff_of_mem (other : current ≠ supertype) (left : current ∈ seen) :
    (∃ start ∈ current :: pending, graph.Climbs seen start supertype) ↔
      ∃ start ∈ pending, graph.Climbs seen start supertype := by
  rw [List.exists_mem_cons_iff, or_iff_right]
  exact fun climbs => other (climbs.eq_of_mem left)

/-- A name may be replaced by what is one step up from it, and need not be left again. -/
theorem exists_climbs_cons_iff {above : List String} (other : current ≠ supertype)
    (fresh : current ∉ seen) (step : ∀ next, graph.Ascends current next ↔ next ∈ above) :
    (∃ start ∈ current :: pending, graph.Climbs seen start supertype) ↔
      ∃ start ∈ above ++ pending, graph.Climbs (current :: seen) start supertype := by
  constructor
  · rintro ⟨start, member, climbs⟩
    obtain beyond | ⟨next, onward, beyond⟩ := climbs.skirts current
    · obtain rfl | waiting := List.mem_cons.mp member
      -- Without leaving `current` no path gets from it to another name.
      · exact absurd (beyond.eq_of_mem List.mem_cons_self) other
      · exact ⟨start, List.mem_append_right _ waiting, beyond⟩
    · exact ⟨next, List.mem_append_left _ ((step next).mp onward), beyond⟩
  · rintro ⟨start, member, climbs⟩
    obtain onward | waiting := List.mem_append.mp member
    · exact ⟨current, List.mem_cons_self, .head ⟨fresh, (step start).mpr onward⟩ climbs.of_cons⟩
    · exact ⟨start, List.mem_cons_of_mem _ waiting, climbs.of_cons⟩

/-- The walk finds what steps up from the pending names lead to without a name that was seen. A
name outside the graph is left upwards by no step, so it is replaced by nothing. -/
theorem reaches_iff : graph.reaches supertype seen pending = true ↔
    ∃ start ∈ pending, graph.Climbs seen start supertype := by
  fun_induction reaches graph supertype seen pending with
  | case1 seen => simp
  | case2 seen pending => exact iff_of_true rfl ⟨supertype, List.mem_cons_self, .refl⟩
  | case3 seen current pending other visited ih =>
    rw [ih, exists_climbs_cons_iff_of_mem other visited]
  | case4 seen current pending other fresh missing ih =>
    have step (next : String) : graph.Ascends current next ↔ next ∈ ([] : List String) := by
      simp [ascends_iff, missing]
    rw [ih, exists_climbs_cons_iff other fresh step, List.nil_append]
  | case5 seen current pending other fresh parent found ih =>
    have step (next : String) :
        graph.Ascends current next ↔ next ∈ parent.supertypes.reverse := by
      simp [ascends_iff, found]
    rw [ih, exists_climbs_cons_iff other fresh step]

theorem isAssignableTo_iff {descriptor : ClassDescriptor} :
    graph.isAssignableTo descriptor supertype = true ↔ graph.Inherits descriptor supertype := by
  simp only [isAssignableTo, reaches_iff, climbs_nil, List.mem_reverse, ClassDescriptor.mem_supertypes,
    Inherits]

instance (graph : ClassGraph) (descriptor : ClassDescriptor) (supertype : String) :
    Decidable (graph.Inherits descriptor supertype) :=
  decidable_of_iff _ isAssignableTo_iff

end ClassGraph

/-- How a class comes to bear a marker: by its own name, an annotation, a supertype however far up,
or a predicate. -/
def Marker.IsBorneBy (marker : Marker) (graph : ClassGraph) (descriptor : ClassDescriptor) : Prop :=
  descriptor.name ∈ marker.types ∨
  (∃ annotation ∈ descriptor.annotations, annotation ∈ marker.annotations) ∨
  (∃ supertype ∈ marker.supertypes, graph.Inherits descriptor supertype) ∨
  ∃ predicate ∈ marker.predicates, predicate descriptor = true

theorem Marker.marks_iff {marker : Marker} {graph : ClassGraph} {descriptor : ClassDescriptor} :
    marker.marks graph descriptor = true ↔ marker.IsBorneBy graph descriptor := by
  simp only [marks, Bool.or_eq_true, List.any_eq_true, NameSet.contains, decide_eq_true_eq,
    ClassGraph.isAssignableTo_iff, or_assoc]
  rfl

instance (marker : Marker) (graph : ClassGraph) (descriptor : ClassDescriptor) :
    Decidable (marker.IsBorneBy graph descriptor) :=
  decidable_of_iff _ Marker.marks_iff

theorem Marker.marks_eq_decide (marker : Marker) (graph : ClassGraph) :
    marker.marks graph = (decide <| marker.IsBorneBy graph ·) := by
  funext descriptor
  rw [Bool.eq_iff_iff, marks_iff, decide_eq_true_iff]

namespace ClassGraph

theorem assignableTo_eq (graph : ClassGraph) (supertype : String) :
    graph.assignableTo supertype = graph.classes.filter (graph.Inherits · supertype) := by
  refine List.filter_congr fun descriptor _ => ?_
  rw [Bool.eq_iff_iff, isAssignableTo_iff, decide_eq_true_iff]

/-- A class is assignable to what it inherits from, on every hierarchy. The classes assignable to
a supertype are listed in the order that the graph was given them in, and markers with supertypes
mark whatever inherits from one of these. -/
theorem assignable_iff_inherits (graph : ClassGraph) :
    (∀ descriptor supertype,
      graph.isAssignableTo descriptor supertype = true ↔ graph.Inherits descriptor supertype) ∧
    (∀ supertype,
      graph.assignableTo supertype = graph.classes.filter (graph.Inherits · supertype)) ∧
    (∀ descriptors, ofList descriptors = .ok graph →
      graph.classes = descriptors.map ClassDescriptor.withDerivedPackage) ∧
    ∀ (marker : Marker) descriptor,
      marker.marks graph descriptor = true ↔ marker.IsBorneBy graph descriptor :=
  ⟨fun _ _ => isAssignableTo_iff, graph.assignableTo_eq, fun _ => classes_of_ofList,
    fun _ _ => Marker.marks_iff⟩

/-- Two classes that extend each other, and an interface outside the graph that one of them comes
to in two ways. -/
def entangledOrders : List ClassDescriptor := [
  ((ClassDescriptor.named "shop.Base").withInterface "shop.Order").withInterface "lib.Entity",
  (ClassDescriptor.named "shop.Priced").withInterface "lib.Entity",
  ((ClassDescriptor.named "shop.Order").withSuperclass "shop.Base").withInterface "shop.Priced",
  .named "shop.Note"]

theorem entities_of_entangledOrders :
    ∃ graph, ofList entangledOrders = .ok graph ∧
      graph.classes = entangledOrders.map ClassDescriptor.withDerivedPackage ∧
      (graph.assignableTo "lib.Entity").map ClassDescriptor.name =
        ["shop.Base", "shop.Priced", "shop.Order"] ∧
      (graph.assignableTo "shop.Order").map ClassDescriptor.name = ["shop.Base", "shop.Order"] := by
  have named : (entangledOrders.map ClassDescriptor.name).Nodup := by decide
  have found : (ofList entangledOrders).map (fun graph =>
      ((graph.assignableTo "lib.Entity").map ClassDescriptor.name,
        (graph.assignableTo "shop.Order").map ClassDescriptor.name)) =
      .ok (["shop.Base", "shop.Priced", "shop.Order"], ["shop.Base", "shop.Order"]) := by cbv
  obtain ⟨graph, built, -⟩ := exists_ofList named
  obtain ⟨-, -, given, -⟩ := graph.assignable_iff_inherits
  rw [built] at found
  obtain ⟨entities, orders⟩ := Prod.mk.inj (Except.ok.inj found)
  exact ⟨graph, built, given _ built, entities, orders⟩

end ClassGraph

end ModuleBoundary
