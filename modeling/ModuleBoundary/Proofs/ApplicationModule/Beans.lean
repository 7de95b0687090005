import ModuleBoundary.ApplicationModule
import ModuleBoundary.Proofs.ClassGraph.Inheritance
import ModuleBoundary.Proofs.FirstOccurrences

/-! The components that a module uses.

Its own come first, as its members stand. Those from outside follow in the order in which members
refer to them; a name that several members refer to is listed with the first of these. Both are
collected under one set of names seen, which keeps what is told apart by its name from being listed
twice.
-/

set_option autoImplicit false

namespace ModuleBoundary

/-- What the name of a component stands for: a class of the graph that bears the component marker,
or, without a descriptor, a type outside the graph that the marker names itself. -/
def Codebase.HasComponent (codebase : Codebase) (name : String) : Option ClassDescriptor → Prop
  | some descriptor => codebase.classes.get? name = some descriptor ∧
      codebase.markers.component.IsBorneBy codebase.classes descriptor
  | none => codebase.classes.get? name = none ∧ name ∈ codebase.markers.component.types

theorem Codebase.externalBean?_eq_some {codebase : Codebase} {name : String} {bean : Bean} :
    codebase.externalBean? name = some bean ↔
      bean.name = name ∧ bean.external = true ∧ codebase.HasComponent name bean.descriptor := by
  unfold externalBean?
  constructor
  · intro offered
    split at offered
    · next descriptor found =>
      split at offered
      · next marked =>
        cases offered
        exact ⟨rfl, rfl, found, Marker.marks_iff.mp marked⟩
      · cases offered
    · next missing =>
      split at offered
      · next named =>
        cases offered
        exact ⟨rfl, rfl, missing, of_decide_eq_true named⟩
      · cases offered
  · obtain ⟨shown, descriptor?, external⟩ := bean
    rintro ⟨rfl, rfl, component⟩
    cases descriptor? with
    | some descriptor =>
      obtain ⟨found, borne⟩ := component
      simp only [found, Marker.marks_iff.mpr borne, if_true]
    | none =>
      obtain ⟨missing, named⟩ := component
      have listed : codebase.markers.component.namesType shown = true := decide_eq_true named
      simp only [missing, listed, if_true]

theorem Codebase.ownBean?_eq_some {codebase : Codebase} {member : ClassDescriptor} {bean : Bean} :
    codebase.ownBean? member = some bean ↔
      codebase.markers.component.IsBorneBy codebase.classes member ∧
        bean = ⟨member.name, some member, false⟩ := by
  rw [ownBean?, Option.ite_none_right_eq_some, Marker.marks_iff, Option.some_inj, eq_comm (a := bean)]

namespace BeanScan

theorem foldl_offer {α : Type} (make : α → Option Bean) (items : List α) (scan : BeanScan) :
    items.foldl (fun scan item => scan.offer (make item)) scan =
      (items.filterMap make).foldl add scan := by
  rw [List.foldl_filterMap]
  congr 1
  funext scan item
  cases make item <;> rfl

/-- Of beans that are told apart by their names each is listed once, where it comes first, and
the names seen are those of the beans. -/
theorem foldl_add {offered : List Bean}
    (told : ∀ bean ∈ offered, ∀ other ∈ offered, bean.name = other.name → bean = other) :
    (offered.foldl add {}).beans = offered.eraseDups ∧
      ∀ name, name ∈ (offered.foldl add {}).seen ↔ name ∈ offered.map Bean.name := by
  induction offered using List.reverseRecOn with
  | nil => simp
  | append_singleton offered bean ih =>
    obtain ⟨listed, seen⟩ := ih fun one member other otherMember =>
      told one (List.mem_append_left _ member) other (List.mem_append_left _ otherMember)
    rw [List.foldl_append, List.foldl_cons, List.foldl_nil, add, List.map_append]
    split
    · next known =>
      rw [seen] at known
      obtain ⟨other, member, same⟩ := List.mem_map.mp known
      have again : bean ∈ offered :=
        told other (List.mem_append_left _ member) bean List.mem_concat_self same ▸ member
      refine ⟨by rw [listed, eraseDups_concat_of_mem again], fun name => ?_⟩
      rw [seen, List.mem_append]
      refine ⟨.inl, ?_⟩
      rintro (earlier | last)
      · exact earlier
      · rwa [List.mem_singleton.mp last]
    · next fresh =>
      have new : bean ∉ offered := fun member => fresh ((seen _).mpr (List.mem_map_of_mem member))
      refine ⟨by rw [listed, eraseDups_concat_of_notMem new], fun name => ?_⟩
      rw [List.mem_cons, seen, List.mem_append, or_comm, List.map_singleton, List.mem_singleton]

end BeanScan

namespace ApplicationModule

variable {codebase : Codebase} {module : ApplicationModule codebase}

theorem contains_iff {module : ApplicationModule codebase} {name : String} :
    module.contains name = true ↔ ∃ member ∈ module.members, member.name = name := by
  simp [contains]

/-- The components among the members, as these stand. -/
def ownBeans (module : ApplicationModule codebase) : List Bean :=
  module.members.filterMap codebase.ownBean?

theorem mem_ownBeans {bean : Bean} : bean ∈ module.ownBeans ↔ ∃ member ∈ module.members,
    codebase.markers.component.IsBorneBy codebase.classes member ∧
      bean = ⟨member.name, some member, false⟩ := by
  simp only [ownBeans, List.mem_filterMap, Codebase.ownBean?_eq_some]

theorem ownBeans_eq (module : ApplicationModule codebase) :
    module.ownBeans =
      (module.members.filter (codebase.markers.component.IsBorneBy codebase.classes ·)).map
        fun member => ⟨member.name, some member, false⟩ := by
  rw [← List.filterMap_eq_map, List.filterMap_filter]
  refine List.filterMap_congr fun member _ => ?_
  simp only [Codebase.ownBean?, Marker.marks_eq_decide, Function.comp_apply]

theorem ownBeans_distinct (module : ApplicationModule codebase) :
    (module.ownBeans.map Bean.name).Nodup := by
  rw [ownBeans_eq, List.map_map]
  exact module.members_distinct.sublist (List.filter_sublist.map _)

/-- The names that members refer to and that no member has, as often as members do. -/
def outsideReferences (module : ApplicationModule codebase) : List String :=
  module.members.flatMap fun member => member.references.toList.filter (!module.contains ·)

theorem mem_outsideReferences {name : String} :
    name ∈ module.outsideReferences ↔ (∀ member ∈ module.members, member.name ≠ name) ∧
      ∃ member ∈ module.members, name ∈ member.references := by
  rw [outsideReferences, ← List.filter_flatMap, List.mem_filter, List.mem_flatMap, Bool.not_eq_true',
    ← Bool.not_eq_true, contains_iff, and_comm]
  simp only [not_exists, not_and, ne_eq]
  rfl

/-- A component from outside the module that some member refers to. -/
structure IsExternalBean (module : ApplicationModule codebase) (bean : Bean) : Prop where
  external : bean.external = true
  stranger : ∀ member ∈ module.members, member.name ≠ bean.name
  referenced : ∃ member ∈ module.members, bean.name ∈ member.references
  component : codebase.HasComponent bean.name bean.descriptor

theorem mem_filterMap_externalBean? {bean : Bean} :
    bean ∈ module.outsideReferences.filterMap codebase.externalBean? ↔ module.IsExternalBean bean := by
  simp only [List.mem_filterMap, mem_outsideReferences, Codebase.externalBean?_eq_some]
  constructor
  · rintro ⟨_, ⟨stranger, referenced⟩, rfl, external, component⟩
    exact ⟨external, stranger, referenced, component⟩
  · rintro ⟨external, stranger, referenced, component⟩
    exact ⟨bean.name, ⟨stranger, referenced⟩, rfl, external, component⟩

/-- The components from outside, each where it is met first. -/
def externalBeans (module : ApplicationModule codebase) : List Bean :=
  module.outsideReferences.eraseDups.filterMap codebase.externalBean?

theorem eraseDups_filterMap_externalBean? (names : List String) :
    (names.filterMap codebase.externalBean?).eraseDups =
      names.eraseDups.filterMap codebase.externalBean? := by
  refine eraseDups_filterMap (fun one other bean offered otherOffered => ?_) names
  rw [← (Codebase.externalBean?_eq_some.mp offered).1,
    ← (Codebase.externalBean?_eq_some.mp otherOffered).1]

theorem mem_externalBeans {bean : Bean} : bean ∈ module.externalBeans ↔ module.IsExternalBean bean := by
  rw [externalBeans, ← eraseDups_filterMap_externalBean?, List.mem_eraseDups, mem_filterMap_externalBean?]

/-- A bean from outside has no member's name. -/
theorem IsExternalBean.name_ne {own bean : Bean} (outside : module.IsExternalBean bean)
    (inside : own ∈ module.ownBeans) : own.name ≠ bean.name := by
  obtain ⟨member, listed, -, rfl⟩ := mem_ownBeans.mp inside
  exact outside.stranger member listed

/-- Members have distinct names, and outside the module a name stands for one component. -/
theorem eq_of_name_eq_of_offered {bean other : Bean}
    (offered : bean ∈ module.ownBeans ++ module.outsideReferences.filterMap codebase.externalBean?)
    (otherOffered : other ∈ module.ownBeans ++
      module.outsideReferences.filterMap codebase.externalBean?)
    (same : bean.name = other.name) : bean = other := by
  rw [List.mem_append, mem_filterMap_externalBean?] at offered otherOffered
  obtain own | outside := offered <;> obtain otherOwn | otherOutside := otherOffered
  · exact List.inj_on_of_nodup_map module.ownBeans_distinct own otherOwn same
  · exact absurd same (otherOutside.name_ne own)
  · exact absurd same.symm (outside.name_ne otherOwn)
  · have found := Codebase.externalBean?_eq_some.mpr ⟨rfl, outside.external, outside.component⟩
    rw [same] at found
    exact Option.some.inj (found.symm.trans
      (Codebase.externalBean?_eq_some.mpr ⟨rfl, otherOutside.external, otherOutside.component⟩))

/-- What the two loops list with the names they share. No bean of the first keeps one of the second
from being listed. -/
theorem beans_eq (module : ApplicationModule codebase) :
    module.beans = module.ownBeans ++ module.externalBeans := by
  have offered : module.beans = ((module.ownBeans ++
      module.outsideReferences.filterMap codebase.externalBean?).foldl BeanScan.add {}).beans := by
    simp only [beans, ownBeans, outsideReferences, List.foldl_append, BeanScan.foldl_offer,
      List.filterMap_flatMap, List.foldl_flatMap]
  have apart : ∀ bean ∈ module.outsideReferences.filterMap codebase.externalBean?,
      bean ∉ module.ownBeans := fun bean outside own =>
    (mem_filterMap_externalBean?.mp outside).name_ne own rfl
  have told := BeanScan.foldl_add fun _ member _ otherMember =>
    module.eq_of_name_eq_of_offered member otherMember
  rw [offered, told.1, eraseDups_append_of_disjoint apart,
    eraseDups_of_nodup module.ownBeans_distinct.of_map, eraseDups_filterMap_externalBean?,
    externalBeans]

/-- The place of the first member that refers to a name. -/
def firstReferrer (module : ApplicationModule codebase) (name : String) : Nat :=
  module.members.findIdx (name ∈ ·.references)

/-- Whether a name is met before another by one who goes through the references of the members. -/
def MeetsBefore (module : ApplicationModule codebase) (first second : String) : Prop :=
  module.firstReferrer first < module.firstReferrer second ∨
    module.firstReferrer first = module.firstReferrer second ∧ first < second

theorem MeetsBefore.ne {first second : String} (earlier : module.MeetsBefore first second) :
    first ≠ second := by
  rintro rfl
  obtain before | ⟨-, below⟩ := earlier
  · exact Nat.lt_irrefl _ before
  · exact String.lt_irrefl _ below

theorem eraseDups_outsideReferences_pairwise (module : ApplicationModule codebase) :
    module.outsideReferences.eraseDups.Pairwise module.MeetsBefore := by
  rw [outsideReferences, ← List.filter_flatMap, ← filter_eraseDups]
  -- Leaving out the names of members changes neither where a name is met first nor the order.
  apply List.Pairwise.filter
  apply pairwise_eraseDups_flatMap
  · intro member _
    exact member.references.ascending.imp String.ne_of_lt
  · intro member _
    exact member.references.ascending

theorem externalBeans_pairwise (module : ApplicationModule codebase) :
    (module.externalBeans.map Bean.name).Pairwise module.MeetsBefore := by
  rw [externalBeans, List.pairwise_map, List.pairwise_filterMap]
  refine module.eraseDups_outsideReferences_pairwise.imp fun {first second} earlier => ?_
  intro bean offered other otherOffered
  rw [(Codebase.externalBean?_eq_some.mp offered).1, (Codebase.externalBean?_eq_some.mp otherOffered).1]
  exact earlier

/-- The beans of a module are its members that bear the component marker, as they stand, and then
each component from outside once that some member refers to, in the order in which these are met. -/
theorem beans_exact (module : ApplicationModule codebase) :
    ∃ external, module.beans =
        (module.members.filter (codebase.markers.component.IsBorneBy codebase.classes ·)).map
          (fun member => ⟨member.name, some member, false⟩) ++ external ∧
      (∀ bean, bean ∈ external ↔ module.IsExternalBean bean) ∧
      (external.map Bean.name).Pairwise module.MeetsBefore ∧
      (module.beans.map Bean.name).Nodup := by
  refine ⟨module.externalBeans, ?_, fun _ => mem_externalBeans, module.externalBeans_pairwise, ?_⟩
  · rw [beans_eq, ownBeans_eq]
  · rw [beans_eq, List.map_append, List.nodup_append]
    refine ⟨module.ownBeans_distinct, module.externalBeans_pairwise.imp MeetsBefore.ne, ?_⟩
    intro name inside other outside
    obtain ⟨own, ownListed, rfl⟩ := List.mem_map.mp inside
    obtain ⟨bean, listed, rfl⟩ := List.mem_map.mp outside
    exact (mem_externalBeans.mp listed).name_ne ownListed

end ApplicationModule

end ModuleBoundary
