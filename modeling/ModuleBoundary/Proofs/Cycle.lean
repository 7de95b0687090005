import Mathlib.Data.List.Cycle
import ModuleBoundary.Cycle

/-! Elementary cycles, and the search for those through given vertices.

A path enters no vertex twice, and none that comes before its start. A cycle that is told from its
first vertex breaks neither of these rules, so nothing is lost.
-/

set_option autoImplicit false

namespace ModuleBoundary.Cycle

variable {V : Type}

/-- Distinct vertices, each related to the next and the last to the first. -/
structure IsElementary (related : V → V → Bool) (cycle : List V) : Prop where
  distinct : cycle.Nodup
  closed : (cycle ++ cycle.head?.toList).IsChain (related · · = true)

theorem isElementary_iff_chain {related : V → V → Bool} {cycle : List V} :
    IsElementary related cycle ↔
      cycle.Nodup ∧ Cycle.Chain (related · · = true) (cycle : Cycle V) := by
  cases cycle with
  | nil => exact ⟨fun _ => ⟨List.nodup_nil, .nil _⟩, fun _ => ⟨List.nodup_nil, .nil⟩⟩
  | cons first rest =>
    rw [Cycle.chain_coe_cons]
    exact ⟨fun found => ⟨found.distinct, found.closed⟩, fun found => ⟨found.1, found.2⟩⟩

/-- It does not matter which vertex a cycle is told from. -/
theorem IsElementary.rotated {related : V → V → Bool} {cycle other : List V}
    (elementary : IsElementary related cycle) (turned : cycle ~r other) :
    IsElementary related other := by
  obtain ⟨distinct, chain⟩ := isElementary_iff_chain.mp elementary
  rw [Cycle.coe_eq_coe.mpr turned] at chain
  exact isElementary_iff_chain.mpr ⟨turned.nodup_iff.mp distinct, chain⟩

theorem IsElementary.exists_related {related : V → V → Bool} {cycle : List V}
    (elementary : IsElementary related cycle) {vertex : V} (member : vertex ∈ cycle) :
    ∃ next, related vertex next = true := by
  obtain ⟨front, back, rfl⟩ := List.append_of_mem member
  have turned : (front ++ vertex :: back) ~r (vertex :: back ++ front) := List.isRotated_append
  have closed := (elementary.rotated turned).closed
  cases onward : back ++ front with
  | nil =>
    simp only [List.cons_append, onward] at closed
    exact ⟨vertex, (List.isChain_cons_cons.mp closed).1⟩
  | cons next rest =>
    simp only [List.cons_append, onward] at closed
    exact ⟨next, (List.isChain_cons_cons.mp closed).1⟩

theorem eq_of_isRotated {first : V} {rest other : List V} (distinct : (first :: rest).Nodup)
    (turned : (first :: rest) ~r (first :: other)) : first :: rest = first :: other := by
  obtain ⟨turns, bound, turned⟩ := List.isRotated_iff_mod.mp turned
  rcases Nat.lt_or_eq_of_le bound with inside | whole
  · have head := List.head?_rotate inside
    rw [turned, List.head?_cons, List.getElem?_eq_getElem inside, Option.some.injEq] at head
    have start : turns = 0 := by
      have same : (first :: rest)[0] = (first :: rest)[turns] := head
      exact ((distinct.getElem_inj_iff).mp same).symm
    rw [start, List.rotate_zero] at turned
    exact turned
  · rw [whole, List.rotate_length] at turned
    exact turned

variable [DecidableEq V]

theorem closing_eq (related : V → V → Bool) (start current : V) (free : List V) :
    closing related start current free =
      (if related current start then [[current]] else []) ++
        (free.filter (related current)).flatMap fun next =>
          (closing related start next (free.erase next)).map (current :: ·) := by
  have visited : free.filter (related current) =
      (free.attach.filter (related current ·.1)).map Subtype.val := by
    rw [← Function.comp_def (related current), ← List.filter_map, List.attach_map_subtype_val]
  rw [closing, visited, List.flatMap_map]

/-- The paths found are those through distinct free vertices that close at the start. -/
theorem mem_closing {related : V → V → Bool} {start current : V} {free path : List V}
    (distinct : free.Nodup) :
    path ∈ closing related start current free ↔
      ∃ rest, path = current :: rest ∧ rest.Nodup ∧ rest ⊆ free ∧
        (current :: (rest ++ [start])).IsChain (related · · = true) := by
  induction current, free using closing.induct generalizing path with
  | case1 current free ih =>
    rw [closing_eq, List.mem_append]
    constructor
    · rintro (direct | onward)
      · split at direct
        · next back =>
          rw [List.mem_singleton] at direct
          exact ⟨[], direct, List.nodup_nil, List.nil_subset _, by simpa using back⟩
        · cases direct
      · obtain ⟨next, candidate, found⟩ := List.mem_flatMap.mp onward
        obtain ⟨known, step⟩ := List.mem_filter.mp candidate
        obtain ⟨tail, deeper, rfl⟩ := List.mem_map.mp found
        obtain ⟨rest, rfl, restDistinct, inside, closed⟩ :=
          (ih ⟨next, known⟩ (distinct.erase next)).mp deeper
        have fresh : next ∉ rest := fun again => (distinct.mem_erase_iff.mp (inside again)).1 rfl
        have within : rest ⊆ free := fun _ member => (distinct.mem_erase_iff.mp (inside member)).2
        exact ⟨next :: rest, rfl, List.nodup_cons.mpr ⟨fresh, restDistinct⟩,
          List.cons_subset.mpr ⟨known, within⟩, List.isChain_cons_cons.mpr ⟨step, closed⟩⟩
    · rintro ⟨rest, rfl, restDistinct, inside, closed⟩
      cases rest with
      | nil =>
        have back : related current start = true := by simpa using closed
        exact .inl (by simp [back])
      | cons next rest =>
        obtain ⟨step, closed⟩ := List.isChain_cons_cons.mp closed
        obtain ⟨known, inside⟩ := List.cons_subset.mp inside
        obtain ⟨fresh, restDistinct⟩ := List.nodup_cons.mp restDistinct
        have remaining : rest ⊆ free.erase next := fun vertex member =>
          distinct.mem_erase_iff.mpr ⟨fun same => fresh (same ▸ member), inside member⟩
        have found := (ih ⟨next, known⟩ (distinct.erase next)).mpr
          ⟨rest, rfl, restDistinct, remaining, closed⟩
        exact .inr (List.mem_flatMap.mpr ⟨next, List.mem_filter.mpr ⟨known, step⟩,
          List.mem_map.mpr ⟨_, found, rfl⟩⟩)

theorem closing_nodup (related : V → V → Bool) (start : V) {current : V} {free : List V}
    (distinct : free.Nodup) : (closing related start current free).Nodup := by
  induction current, free using closing.induct with
  | case1 current free ih =>
    rw [closing_eq, List.nodup_append]
    refine ⟨?_, List.nodup_flatMap.mpr ⟨?_, ?_⟩, ?_⟩
    · split <;> simp
    · intro next candidate
      have known := List.mem_of_mem_filter candidate
      exact (ih ⟨next, known⟩ (distinct.erase next)).map (List.cons_injective)
    · -- Paths from different vertices differ in their second vertex.
      refine (distinct.filter _).imp ?_
      intro first second different path left right
      obtain ⟨tail, found, rfl⟩ := List.mem_map.mp left
      obtain ⟨other, foundOther, same⟩ := List.mem_map.mp right
      obtain ⟨_, rfl, _⟩ := (mem_closing (distinct.erase first)).mp found
      obtain ⟨_, rfl, _⟩ := (mem_closing (distinct.erase second)).mp foundOther
      simp only [List.cons.injEq, true_and] at same
      exact different same.1.symm
    · -- The path that closes at once has one vertex, and the others have two at least.
      intro path direct other onward same
      subst same
      obtain ⟨next, _, found⟩ := List.mem_flatMap.mp onward
      obtain ⟨tail, deeper, rfl⟩ := List.mem_map.mp found
      obtain ⟨_, rfl, _⟩ := (mem_closing (distinct.erase next)).mp deeper
      split at direct
      · simp at direct
      · cases direct

/-- The cycles through some vertices start with one that comes before their others. -/
theorem mem_within {related : V → V → Bool} {members path : List V} (distinct : members.Nodup) :
    path ∈ within related members ↔
      ∃ before start later rest, members = before ++ start :: later ∧ path = start :: rest ∧
        rest ⊆ later ∧ IsElementary related path := by
  induction members with
  | nil => simp [within]
  | cons first others ih =>
    obtain ⟨fresh, othersDistinct⟩ := List.nodup_cons.mp distinct
    rw [within, List.mem_append, ih othersDistinct, mem_closing othersDistinct]
    constructor
    · rintro (⟨rest, rfl, restDistinct, inside, closed⟩ | ⟨before, start, later, rest, split, found⟩)
      · refine ⟨[], first, others, rest, rfl, rfl, inside, ?_, by simpa using closed⟩
        exact List.nodup_cons.mpr ⟨fun again => fresh (inside again), restDistinct⟩
      · exact ⟨first :: before, start, later, rest, by rw [split, List.cons_append], found⟩
    · rintro ⟨before, start, later, rest, split, rfl, inside, found⟩
      cases before with
      | nil =>
        obtain ⟨rfl, rfl⟩ := List.cons.inj split
        exact .inl ⟨rest, rfl, (List.nodup_cons.mp found.distinct).2, inside,
          by simpa using found.closed⟩
      | cons _ before =>
        obtain ⟨rfl, others_eq⟩ := List.cons.inj split
        exact .inr ⟨before, start, later, rest, others_eq, rfl, inside, found⟩

theorem exists_start_of_mem_within {related : V → V → Bool} {members path : List V}
    (distinct : members.Nodup) (found : path ∈ within related members) :
    ∃ start rest, path = start :: rest ∧ start ∈ members := by
  obtain ⟨before, start, later, rest, rfl, rfl, -⟩ := (mem_within distinct).mp found
  exact ⟨start, rest, rfl, List.mem_append_right _ List.mem_cons_self⟩

theorem within_nodup (related : V → V → Bool) {members : List V} (distinct : members.Nodup) :
    (within related members).Nodup := by
  induction members with
  | nil => exact List.nodup_nil
  | cons first others ih =>
    obtain ⟨fresh, othersDistinct⟩ := List.nodup_cons.mp distinct
    rw [within, List.nodup_append]
    refine ⟨closing_nodup related first othersDistinct, ih othersDistinct, ?_⟩
    intro path here other later same
    subst same
    obtain ⟨_, rfl, _⟩ := (mem_closing othersDistinct).mp here
    obtain ⟨start, _, same, known⟩ := exists_start_of_mem_within othersDistinct later
    obtain ⟨rfl, _⟩ := List.cons.inj same
    exact fresh known

end ModuleBoundary.Cycle
