import Mathlib.Data.List.Basic
import Mathlib.Logic.Relation
import ModuleBoundary.Cycle

/-! The strongly connected components of a finite relation.

Two vertices are linked if walks lead from each to the other. Linked vertices have one component,
so a vertex lies in one component only, and which components there are does not depend on the
order in which they are listed.
-/

set_option autoImplicit false

namespace ModuleBoundary.Cycle

variable {V : Type}

/-- A step to a vertex of the pool. -/
def StepsInto (related : V → V → Bool) (pool : List V) (source target : V) : Prop :=
  related source target = true ∧ target ∈ pool

theorem mem_successors {related : V → V → Bool} {vertex target : V} {pool : List V} :
    target ∈ successors related vertex pool ↔ StepsInto related pool vertex target := by
  rw [successors, List.mem_filter, StepsInto, and_comm]

theorem mem_others {related : V → V → Bool} {vertex target : V} {pool : List V} :
    target ∈ others related vertex pool ↔ target ∈ pool ∧ related vertex target = false := by
  simp [others]

-- A walk is cut at its last successor of `first`, if it has one. From there on it stays among
-- the vertices that are left.
theorem walk_from_successors {related : V → V → Bool} {first source target : V}
    {frontier pool : List V} (listed : source ∈ first :: frontier)
    (walk : Relation.TransGen (StepsInto related pool) source target) :
    target ∈ successors related first pool ∨ ∃ start ∈ successors related first pool ++ frontier,
      Relation.TransGen (StepsInto related (others related first pool)) start target := by
  induction walk with
  | @single target step =>
    by_cases near : related first target = true
    · exact .inl (mem_successors.mpr ⟨near, step.2⟩)
    · have left := mem_others.mpr ⟨step.2, Bool.eq_false_iff.mpr near⟩
      rcases List.mem_cons.mp listed with rfl | listed
      · exact absurd step.1 near
      · exact .inr ⟨source, List.mem_append_right _ listed, .single ⟨step.1, left⟩⟩
  | @tail middle target _ step ih =>
    by_cases near : related first target = true
    · exact .inl (mem_successors.mpr ⟨near, step.2⟩)
    · have left := mem_others.mpr ⟨step.2, Bool.eq_false_iff.mpr near⟩
      rcases ih with found | ⟨start, onFrontier, walk⟩
      · exact .inr ⟨middle, List.mem_append_left _ found, .single ⟨step.1, left⟩⟩
      · exact .inr ⟨start, onFrontier, walk.tail ⟨step.1, left⟩⟩

theorem mem_reached {related : V → V → Bool} {frontier pool : List V} {vertex : V} :
    vertex ∈ reached related frontier pool ↔
      ∃ source ∈ frontier, Relation.TransGen (StepsInto related pool) source vertex := by
  fun_induction reached related frontier pool with
  | case1 pool => simp
  | case2 first frontier pool ih =>
    rw [List.mem_append, ih]
    constructor
    · rintro (found | ⟨source, listed, walk⟩)
      · exact ⟨first, List.mem_cons_self, .single (mem_successors.mp found)⟩
      · have walk : Relation.TransGen (StepsInto related pool) source vertex :=
          walk.lift id fun _ _ step => ⟨step.1, (mem_others.mp step.2).1⟩
        rcases List.mem_append.mp listed with found | listed
        · exact ⟨first, List.mem_cons_self, .head (mem_successors.mp found) walk⟩
        · exact ⟨source, List.mem_cons_of_mem _ listed, walk⟩
    · rintro ⟨source, listed, walk⟩
      exact walk_from_successors listed walk

/-- Turned round, a walk that begins at a vertex of the pool is a walk again. -/
theorem walk_back {related : V → V → Bool} {pool : List V} {source target : V}
    (known : source ∈ pool) (walk : Relation.TransGen (StepsInto related pool) source target) :
    Relation.TransGen (StepsInto (fun a b => related b a) pool) target source := by
  induction walk using Relation.TransGen.head_induction_on with
  | single step => exact .single ⟨step.1, known⟩
  | head step _ ih => exact (ih step.2).tail ⟨step.1, known⟩

/-- Walks lead from each of two vertices to the other, unless they are the same. -/
def Linked (related : V → V → Bool) (pool : List V) (first second : V) : Prop :=
  second = first ∨ Relation.TransGen (StepsInto related pool) first second ∧
    Relation.TransGen (StepsInto related pool) second first

namespace Linked

variable {related : V → V → Bool} {pool : List V} {first second third : V}

theorem symm (linked : Linked related pool first second) : Linked related pool second first :=
  linked.imp Eq.symm And.symm

theorem trans (linked : Linked related pool first second)
    (onward : Linked related pool second third) : Linked related pool first third := by
  obtain rfl | ⟨there, back⟩ := linked
  · exact onward
  · obtain rfl | ⟨further, thence⟩ := onward
    · exact .inr ⟨there, back⟩
    · exact .inr ⟨there.trans further, thence.trans back⟩

end Linked

theorem reaches_of_isChain {related : V → V → Bool} {start : V} {path pool : List V}
    (chain : (start :: path).IsChain (related · · = true)) (inside : path ⊆ pool) :
    ∀ vertex ∈ path, Relation.TransGen (StepsInto related pool) start vertex := by
  induction path generalizing start with
  | nil => simp
  | cons next path ih =>
    obtain ⟨step, chain⟩ := List.isChain_cons_cons.mp chain
    obtain ⟨known, inside⟩ := List.cons_subset.mp inside
    intro vertex member
    rcases List.mem_cons.mp member with rfl | member
    · exact .single ⟨step, known⟩
    · exact .head ⟨step, known⟩ (ih chain inside vertex member)

variable [DecidableEq V] {related : V → V → Bool} {vertices order : List V} {start vertex : V}

theorem mem_component (known : start ∈ vertices) :
    vertex ∈ component related vertices start ↔
      vertex ∈ vertices ∧ Linked related vertices start vertex := by
  simp only [component, List.mem_filter, Bool.or_eq_true, Bool.and_eq_true, decide_eq_true_eq,
    List.contains_eq_mem, mem_reached, List.mem_singleton, exists_eq_left]
  refine and_congr_right fun inside => or_congr_right (and_congr_right fun _ => ?_)
  exact ⟨walk_back known, walk_back inside⟩

theorem mem_component_self (known : start ∈ vertices) : start ∈ component related vertices start :=
  (mem_component known).mpr ⟨known, .inl rfl⟩

theorem component_nodup (related : V → V → Bool) (distinct : vertices.Nodup) (start : V) :
    (component related vertices start).Nodup :=
  distinct.filter _

theorem component_eq_of_mem (known : start ∈ vertices)
    (inside : vertex ∈ component related vertices start) :
    component related vertices vertex = component related vertices start := by
  obtain ⟨listed, linked⟩ := (mem_component known).mp inside
  refine List.filter_congr fun other member => ?_
  have here : other ∈ component related vertices vertex ↔ _ := mem_component listed
  have there : other ∈ component related vertices start ↔ _ := mem_component known
  rw [component, List.mem_filter, and_congr_right_iff] at here there
  rw [Bool.eq_iff_iff, here member, there member]
  exact ⟨linked.trans, linked.symm.trans⟩

theorem exists_root_of_mem_components {members : List V}
    (listed : members ∈ components related vertices order) :
    ∃ root ∈ order, members = component related vertices root := by
  induction order with
  | nil => cases listed
  | cons root rest ih =>
    rw [components] at listed
    split at listed
    · obtain ⟨other, member, same⟩ := ih listed
      exact ⟨other, List.mem_cons_of_mem _ member, same⟩
    · obtain rfl | listed := List.mem_cons.mp listed
      · exact ⟨root, List.mem_cons_self, rfl⟩
      · obtain ⟨other, member, same⟩ := ih listed
        exact ⟨other, List.mem_cons_of_mem _ member, same⟩

theorem component_mem_components (inside : order ⊆ vertices) (member : vertex ∈ order) :
    component related vertices vertex ∈ components related vertices order := by
  induction order with
  | nil => cases member
  | cons root rest ih =>
    obtain ⟨known, restInside⟩ := List.cons_subset.mp inside
    rw [components]
    obtain rfl | member := List.mem_cons.mp member
    · split
      · next covered =>
        obtain ⟨members, listed, contains⟩ := List.any_eq_true.mp covered
        obtain ⟨other, otherMember, rfl⟩ := exists_root_of_mem_components listed
        rwa [component_eq_of_mem (restInside otherMember) (by simpa using contains)]
      · exact List.mem_cons_self
    · split
      · exact ih restInside member
      · exact List.mem_cons_of_mem _ (ih restInside member)

theorem components_disjoint (inside : order ⊆ vertices) :
    (components related vertices order).Pairwise List.Disjoint := by
  induction order with
  | nil => exact .nil
  | cons root rest ih =>
    obtain ⟨known, inside⟩ := List.cons_subset.mp inside
    rw [components]
    split
    · exact ih inside
    · next fresh =>
      refine List.pairwise_cons.mpr ⟨fun members listed vertex here there => ?_, ih inside⟩
      obtain ⟨other, otherMember, rfl⟩ := exists_root_of_mem_components listed
      -- A vertex in common makes one component of the two, and it has the root.
      have same := (component_eq_of_mem known here).symm.trans
        (component_eq_of_mem (inside otherMember) there)
      refine fresh (List.any_eq_true.mpr ⟨_, listed, ?_⟩)
      simpa [← same] using mem_component_self known

/-- Every order of the vertices lists the same components. -/
theorem mem_components (lists : ∀ vertex, vertex ∈ order ↔ vertex ∈ vertices) {members : List V} :
    members ∈ components related vertices order ↔
      ∃ root ∈ vertices, members = component related vertices root := by
  constructor
  · intro listed
    obtain ⟨root, member, same⟩ := exists_root_of_mem_components listed
    exact ⟨root, (lists root).mp member, same⟩
  · rintro ⟨root, known, rfl⟩
    exact component_mem_components (fun vertex => (lists vertex).mp) ((lists root).mpr known)

theorem components_nodup (inside : order ⊆ vertices) :
    (components related vertices order).Nodup := by
  refine (components_disjoint inside).imp_of_mem fun {members others} listed _ apart same => ?_
  obtain ⟨root, member, rfl⟩ := exists_root_of_mem_components listed
  have here : root ∈ component related vertices root := mem_component_self (inside member)
  exact apart here (same ▸ here)

theorem components_perm {other : List V} (lists : ∀ vertex, vertex ∈ order ↔ vertex ∈ vertices)
    (listsToo : ∀ vertex, vertex ∈ other ↔ vertex ∈ vertices) :
    (components related vertices order).Perm (components related vertices other) := by
  refine (List.perm_ext_iff_of_nodup (components_nodup fun vertex => (lists vertex).mp)
    (components_nodup fun vertex => (listsToo vertex).mp)).mpr fun members => ?_
  rw [mem_components lists, mem_components listsToo]

/-! The order in which a depth-first search leaves the vertices. -/

variable {next : V → List V} {visits : List (Visit V)} {fresh : List V}

theorem mem_of_mem_leaving (left : vertex ∈ leaving next visits fresh) :
    .leave vertex ∈ visits ∨ vertex ∈ fresh := by
  fun_induction leaving next visits fresh with
  | case1 => cases left
  | case2 current visits fresh ih =>
    obtain rfl | left := List.mem_cons.mp left
    · exact .inl List.mem_cons_self
    · exact (ih left).imp (List.mem_cons_of_mem _) id
  | case3 current visits fresh new ih =>
    obtain waiting | unmet := ih left
    · obtain rfl | waiting : vertex = current ∨ .leave vertex ∈ visits := by simpa using waiting
      · exact .inr new
      · exact .inl (List.mem_cons_of_mem _ waiting)
    · exact .inr (List.mem_of_mem_erase unmet)
  | case4 current visits fresh old ih => exact (ih left).imp (List.mem_cons_of_mem _) id

theorem mem_leaving_of_mem (waiting : .leave vertex ∈ visits ∨ vertex ∈ fresh ∧ .enter vertex ∈ visits) :
    vertex ∈ leaving next visits fresh := by
  fun_induction leaving next visits fresh with
  | case1 => simp at waiting
  | case2 current visits fresh ih =>
    simp only [List.mem_cons, Visit.leave.injEq, reduceCtorEq, false_or] at waiting
    obtain (rfl | waiting) | waiting := waiting
    · exact List.mem_cons_self
    · exact List.mem_cons_of_mem _ (ih (.inl waiting))
    · exact List.mem_cons_of_mem _ (ih (.inr waiting))
  | case3 current visits fresh new ih =>
    by_cases same : vertex = current
    · subst same
      exact ih (.inl (by simp))
    · refine ih ?_
      simp only [List.mem_cons, Visit.enter.injEq, reduceCtorEq, false_or, same] at waiting
      refine waiting.imp (fun left => by simp [left]) fun ⟨unmet, entered⟩ => ?_
      exact ⟨(List.mem_erase_of_ne same).mpr unmet, by simp [entered]⟩
  | case4 current visits fresh old ih =>
    refine ih ?_
    simp only [List.mem_cons, Visit.enter.injEq, reduceCtorEq, false_or] at waiting
    refine waiting.imp id fun ⟨unmet, entered⟩ => ⟨unmet, entered.resolve_left ?_⟩
    rintro rfl
    exact old unmet

/-- A search that starts at all vertices leaves all of them. -/
theorem mem_leaving (next : V → List V) :
    vertex ∈ leaving next (vertices.map .enter) vertices ↔ vertex ∈ vertices := by
  constructor
  · intro left
    exact (mem_of_mem_leaving left).resolve_left (by simp)
  · intro known
    exact mem_leaving_of_mem (.inr ⟨known, List.mem_map_of_mem known⟩)

end ModuleBoundary.Cycle
