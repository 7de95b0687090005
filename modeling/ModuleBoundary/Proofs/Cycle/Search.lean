import ModuleBoundary.Proofs.Cycle
import ModuleBoundary.Proofs.Cycle.Components

/-! The cycle search lists every elementary cycle, and each of them once.

No cycle leaves its component, so it is found where that component is searched. The order of the
components has a say only in what stands between cycles of different components: those that start
at one vertex are listed in one order.
-/

set_option autoImplicit false

namespace ModuleBoundary

/-- Where at most one item contributes, the order of the items does not matter. -/
theorem flatMap_eq_of_perm {α β : Type} {items others : List α} (same : items.Perm others)
    (parts : α → List β)
    (single : items.Pairwise fun first second => parts first = [] ∨ parts second = []) :
    items.flatMap parts = others.flatMap parts := by
  induction same with
  | nil => rfl
  | cons item _ ih => rw [List.flatMap_cons, List.flatMap_cons, ih single.of_cons]
  | swap first second rest =>
    have alone := List.rel_of_pairwise_cons single List.mem_cons_self
    simp only [List.flatMap_cons]
    obtain none | none := alone <;> simp [none]
  | trans first _ ih ihToo =>
    exact (ih single).trans (ihToo ((first.pairwise_iff fun part => part.symm).mp single))

/-- What is chosen of a list falls into what stands before and after one item of it. -/
theorem exists_filter_eq_append_cons {α : Type} {before later : List α} {item : α}
    {chosen : α → Bool} (kept : chosen item = true) :
    ∃ front back, (before ++ item :: later).filter chosen = front ++ item :: back ∧
      ∀ other ∈ later, other ∈ (before ++ item :: later).filter chosen → other ∈ back := by
  refine ⟨before.filter chosen, later.filter chosen, ?_, fun other late member => ?_⟩
  · rw [List.filter_append, List.filter_cons_of_pos kept]
  · exact List.mem_filter.mpr ⟨late, (List.mem_filter.mp member).2⟩

namespace Cycle

variable {V : Type} [DecidableEq V] {related : V → V → Bool} {vertices order path : List V}

/-- The other vertices of a cycle are in the component of its first. -/
theorem subset_component {start : V} {rest : List V} (known : start ∈ vertices)
    (closed : (start :: (rest ++ [start])).IsChain (related · · = true)) (inside : rest ⊆ vertices) :
    rest ⊆ component related vertices start := by
  have ahead : ∀ vertex ∈ rest ++ [start], Relation.TransGen (StepsInto related vertices) start vertex :=
    reaches_of_isChain closed (List.append_subset.mpr ⟨inside, by simpa using known⟩)
  intro vertex member
  refine (mem_component known).mpr ⟨inside member, .inr ⟨ahead vertex (List.mem_append_left _ member), ?_⟩⟩
  -- From the vertex on, the cycle leads back to its start.
  obtain ⟨front, back, rfl⟩ := List.append_of_mem member
  have onward : (vertex :: (back ++ [start])).IsChain (related · · = true) := by
    have split : start :: (front ++ vertex :: back ++ [start]) =
        (start :: front) ++ vertex :: (back ++ [start]) := by simp
    rw [split] at closed
    exact closed.right_of_append
  refine reaches_of_isChain onward (fun other listed => ?_) start (by simp)
  obtain later | same := List.mem_append.mp listed
  · exact inside (by simp [later])
  · rwa [List.mem_singleton.mp same]

theorem exists_component_of_mem_elementary (found : path ∈ elementary related vertices order) :
    ∃ root ∈ order, path ∈ within related (component related vertices root) := by
  obtain ⟨members, listed, found⟩ := List.mem_flatMap.mp found
  obtain ⟨root, member, rfl⟩ := exists_root_of_mem_components (List.mem_of_mem_filter listed)
  exact ⟨root, member, found⟩

/-- The cycles listed are the elementary ones, from a vertex that comes before their others. -/
theorem mem_elementary (loopless : ∀ vertex, related vertex vertex = false) (distinct : vertices.Nodup)
    (lists : ∀ vertex, vertex ∈ order ↔ vertex ∈ vertices) :
    path ∈ elementary related vertices order ↔
      ∃ before start later rest, vertices = before ++ start :: later ∧ path = start :: rest ∧
        rest ⊆ later ∧ IsElementary related path := by
  constructor
  · intro found
    obtain ⟨root, -, found⟩ := exists_component_of_mem_elementary found
    obtain ⟨_, start, later, rest, split, rfl, inside, cycle⟩ :=
      (mem_within (component_nodup related distinct root)).mp found
    obtain ⟨_, behind, rfl, -, split⟩ := List.filter_eq_append_iff.mp split
    obtain ⟨_, all, rfl, -, -, rfl⟩ := List.filter_eq_cons_iff.mp split
    exact ⟨_, start, all, rest, (List.append_assoc ..).symm, rfl,
      fun _ member => List.mem_of_mem_filter (inside member), cycle⟩
  · rintro ⟨before, start, later, rest, rfl, rfl, inside, cycle⟩
    have known : start ∈ before ++ start :: later := by simp
    have closed : (start :: (rest ++ [start])).IsChain (related · · = true) := by
      simpa using cycle.closed
    have linked : rest ⊆ component related (before ++ start :: later) start :=
      subset_component known closed fun _ member => by simp [inside member]
    obtain ⟨front, back, split, late⟩ : ∃ front back,
        component related (before ++ start :: later) start = front ++ start :: back ∧
          ∀ vertex ∈ later, vertex ∈ component related (before ++ start :: later) start →
            vertex ∈ back := exists_filter_eq_append_cons (by simp)
    have behind : rest ⊆ back := fun vertex member => late vertex (inside member) (linked member)
    have several : 1 < (component related (before ++ start :: later) start).length := by
      -- A cycle of one vertex would be a loop.
      cases rest with
      | nil => simp [loopless start] at closed
      | cons next rest =>
        have some := List.length_pos_of_mem (behind List.mem_cons_self)
        rw [split, List.length_append, List.length_cons]
        omega
    have listed : component related (before ++ start :: later) start ∈ components related _ order :=
      component_mem_components (fun vertex => (lists vertex).mp) ((lists start).mpr known)
    refine List.mem_flatMap.mpr ⟨_, List.mem_filter.mpr ⟨listed, decide_eq_true several⟩, ?_⟩
    exact (mem_within (component_nodup related distinct start)).mpr
      ⟨front, start, back, rest, split, rfl, behind, cycle⟩

theorem elementary_nodup (related : V → V → Bool) (distinct : vertices.Nodup)
    (inside : order ⊆ vertices) : (elementary related vertices order).Nodup := by
  refine List.nodup_flatMap.mpr ⟨fun members listed => ?_, ?_⟩
  · obtain ⟨root, -, rfl⟩ := exists_root_of_mem_components (List.mem_of_mem_filter listed)
    exact within_nodup related (component_nodup related distinct root)
  · refine (List.Pairwise.filter _ (components_disjoint inside)).imp_of_mem ?_
    intro members others listed othersListed apart path here there
    obtain ⟨root, -, rfl⟩ := exists_root_of_mem_components (List.mem_of_mem_filter listed)
    obtain ⟨other, -, rfl⟩ := exists_root_of_mem_components (List.mem_of_mem_filter othersListed)
    obtain ⟨start, rest, rfl, first⟩ :=
      exists_start_of_mem_within (component_nodup related distinct root) here
    obtain ⟨_, _, same, second⟩ :=
      exists_start_of_mem_within (component_nodup related distinct other) there
    obtain ⟨rfl, -⟩ := List.cons.inj same
    exact apart first second

-- The cycle is turned to begin with the first of the vertices that lie on it.
theorem exists_mem_elementary (loopless : ∀ vertex, related vertex vertex = false)
    (distinct : vertices.Nodup) (lists : ∀ vertex, vertex ∈ order ↔ vertex ∈ vertices)
    {cycle : List V} (found : IsElementary related cycle) (some : cycle ≠ [])
    (inside : cycle ⊆ vertices) : ∃ path ∈ elementary related vertices order, path ~r cycle := by
  cases first : vertices.find? (· ∈ cycle) with
  | none =>
    obtain ⟨vertex, member⟩ := List.exists_mem_of_ne_nil cycle some
    exact absurd member (by simpa using List.find?_eq_none.mp first vertex (inside member))
  | some start =>
    obtain ⟨member, before, later, split, absent⟩ := List.find?_eq_some_iff_append.mp first
    obtain ⟨front, back, whole⟩ := List.append_of_mem (of_decide_eq_true member)
    have turned : (start :: back ++ front) ~r cycle := whole ▸ List.isRotated_append
    have path := found.rotated turned.symm
    refine ⟨_, (mem_elementary loopless distinct lists).mpr
      ⟨before, start, later, back ++ front, split, rfl, ?_, path⟩, turned⟩
    intro vertex onward
    have onCycle : vertex ∈ cycle := turned.mem_iff.mp (List.mem_cons_of_mem _ onward)
    have different : vertex ≠ start := fun same =>
      (List.nodup_cons.mp path.distinct).1 (same ▸ onward)
    have known := inside onCycle
    rw [split] at known
    rcases List.mem_append.mp known with early | late
    · exact absurd onCycle (by simpa using absent vertex early)
    · exact (List.mem_cons.mp late).resolve_left different

/-! Components in another order. -/

theorem elementary_perm {other : List V} (lists : ∀ vertex, vertex ∈ order ↔ vertex ∈ vertices)
    (listsToo : ∀ vertex, vertex ∈ other ↔ vertex ∈ vertices) :
    (elementary related vertices order).Perm (elementary related vertices other) :=
  ((components_perm lists listsToo).filter _).flatMap_right _

/-- Cycles that start at one vertex come from one component, which lists them in one order. -/
theorem filter_elementary_eq {other : List V} (distinct : vertices.Nodup)
    (lists : ∀ vertex, vertex ∈ order ↔ vertex ∈ vertices)
    (listsToo : ∀ vertex, vertex ∈ other ↔ vertex ∈ vertices) {chosen : List V → Bool}
    (oneStart : ∀ {start first rest others}, chosen (start :: rest) = true →
      chosen (first :: others) = true → start = first) :
    (elementary related vertices order).filter chosen =
      (elementary related vertices other).filter chosen := by
  rw [elementary, elementary, List.filter_flatMap, List.filter_flatMap]
  refine flatMap_eq_of_perm ((components_perm lists listsToo).filter _) _ ?_
  refine (List.Pairwise.filter _ (components_disjoint fun vertex => (lists vertex).mp)).imp_of_mem ?_
  intro members others listed othersListed apart
  obtain ⟨root, -, rfl⟩ := exists_root_of_mem_components (List.mem_of_mem_filter listed)
  obtain ⟨root', -, rfl⟩ := exists_root_of_mem_components (List.mem_of_mem_filter othersListed)
  by_cases some : ∃ path ∈ within related (component related vertices root), chosen path = true
  · obtain ⟨path, here, picked⟩ := some
    obtain ⟨start, rest, rfl, first⟩ :=
      exists_start_of_mem_within (component_nodup related distinct root) here
    refine .inr (List.filter_eq_nil_iff.mpr fun path there pickedToo => ?_)
    obtain ⟨start', rest', rfl, second⟩ :=
      exists_start_of_mem_within (component_nodup related distinct root') there
    exact apart first (oneStart picked pickedToo ▸ second)
  · exact .inl (List.filter_eq_nil_iff.mpr fun path here picked => some ⟨path, here, picked⟩)

/-- Two pairs of vertices, of which the first leads to the second: the search is done with the
second pair before the first. -/
example :
    let next : Nat → List Nat
      | 0 => [2, 1]
      | 1 => [0]
      | 2 => [3]
      | 3 => [2]
      | _ => []
    let order := leaving next ([0, 1, 2, 3].map .enter) [0, 1, 2, 3]
    order = [3, 2, 1, 0] ∧
      elementary (fun source target => (next source).contains target) [0, 1, 2, 3] order =
        [[2, 3], [0, 1]] := by
  constructor <;> cbv

end Cycle

end ModuleBoundary
