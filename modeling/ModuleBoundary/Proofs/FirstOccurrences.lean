import Mathlib.Data.List.Induction
import Mathlib.Data.List.Nodup

/-! Lists without their repetitions.

Of every item the first occurrence is kept, so what is left stands in the order in which the items
are first met.
-/

set_option autoImplicit false

namespace ModuleBoundary

section
variable {α β : Type} [BEq α] [LawfulBEq α] {items more : List α} {item : α}

theorem eraseDups_append_of_subset (known : more ⊆ items) :
    (items ++ more).eraseDups = items.eraseDups := by
  have none : more.removeAll items = [] := by
    simpa [List.removeAll] using fun _ member => known member
  rw [List.eraseDups_append, none, List.eraseDups_nil, List.append_nil]

theorem eraseDups_append_of_disjoint (apart : ∀ item ∈ more, item ∉ items) :
    (items ++ more).eraseDups = items.eraseDups ++ more.eraseDups := by
  have all : more.removeAll items = more := by
    simpa [List.removeAll] using apart
  rw [List.eraseDups_append, all]

theorem eraseDups_concat_of_mem (known : item ∈ items) :
    (items ++ [item]).eraseDups = items.eraseDups :=
  eraseDups_append_of_subset (by simpa using known)

theorem eraseDups_concat_of_notMem (fresh : item ∉ items) :
    (items ++ [item]).eraseDups = items.eraseDups ++ [item] :=
  eraseDups_append_of_disjoint (by simpa using fresh)

/-- What is left is ordered by where it occurs first. -/
theorem pairwise_eraseDups (items : List α) :
    items.eraseDups.Pairwise fun one other => items.idxOf one < items.idxOf other := by
  induction items using List.reverseRecOn with
  | nil => exact .nil
  | append_singleton items item ih =>
    have earlier : items.eraseDups.Pairwise fun one other =>
        (items ++ [item]).idxOf one < (items ++ [item]).idxOf other := by
      refine ih.imp_of_mem fun {one other} member otherMember before => ?_
      rwa [List.idxOf_append_of_mem (List.mem_eraseDups.mp member),
        List.idxOf_append_of_mem (List.mem_eraseDups.mp otherMember)]
    by_cases known : item ∈ items
    · rwa [eraseDups_concat_of_mem known]
    · rw [eraseDups_concat_of_notMem known, List.pairwise_append]
      refine ⟨earlier, List.pairwise_singleton _ _, ?_⟩
      intro one member other last
      rw [List.mem_eraseDups] at member
      rw [List.mem_singleton.mp last, List.idxOf_append_of_mem member,
        List.idxOf_append_of_notMem known]
      exact Nat.lt_add_right _ (List.idxOf_lt_length_iff.mpr member)

theorem nodup_eraseDups (items : List α) : items.eraseDups.Nodup := by
  refine (pairwise_eraseDups items).imp fun {one other} before same => ?_
  rw [same] at before
  exact Nat.lt_irrefl _ before

theorem eraseDups_of_nodup (distinct : items.Nodup) : items.eraseDups = items := by
  induction items using List.reverseRecOn with
  | nil => rfl
  | append_singleton items item ih =>
    rw [List.nodup_append_comm, List.singleton_append, List.nodup_cons] at distinct
    rw [eraseDups_concat_of_notMem distinct.1, ih distinct.2]

theorem filter_eraseDups (chosen : α → Bool) (items : List α) :
    items.eraseDups.filter chosen = (items.filter chosen).eraseDups := by
  induction items using List.reverseRecOn with
  | nil => rfl
  | append_singleton items item ih =>
    rw [List.filter_append]
    by_cases known : item ∈ items
    · rw [eraseDups_concat_of_mem known, ih, eraseDups_append_of_subset]
      intro other member
      obtain ⟨same, picked⟩ := List.mem_filter.mp member
      rw [List.mem_singleton.mp same] at picked ⊢
      exact List.mem_filter.mpr ⟨known, picked⟩
    · rw [eraseDups_concat_of_notMem known, List.filter_append, ih, eraseDups_append_of_disjoint]
      · rw [eraseDups_of_nodup ((List.nodup_singleton item).filter chosen)]
      · intro other member listed
        rw [List.mem_singleton.mp (List.mem_of_mem_filter member)] at listed
        exact known (List.mem_of_mem_filter listed)

theorem eraseDups_filterMap [BEq β] [LawfulBEq β] {make : α → Option β}
    (injective : ∀ one other made, make one = some made → make other = some made → one = other)
    (items : List α) : (items.filterMap make).eraseDups = items.eraseDups.filterMap make := by
  induction items using List.reverseRecOn with
  | nil => rfl
  | append_singleton items item ih =>
    have elsewhere (fresh : item ∉ items) :
        ∀ made ∈ [item].filterMap make, made ∉ items.filterMap make := by
      intro made last earlier
      obtain ⟨one, listed, madeOf⟩ := List.mem_filterMap.mp earlier
      obtain ⟨_, member, madeOfLast⟩ := List.mem_filterMap.mp last
      rw [List.mem_singleton.mp member] at madeOfLast
      exact fresh (injective one item made madeOf madeOfLast ▸ listed)
    rw [List.filterMap_append]
    by_cases known : item ∈ items
    · rw [eraseDups_concat_of_mem known, ← ih, eraseDups_append_of_subset]
      exact List.filterMap_subset make (by simpa using known)
    · rw [eraseDups_concat_of_notMem known, List.filterMap_append, ← ih,
        eraseDups_append_of_disjoint (elsewhere known)]
      cases made : make item <;> simp [made, List.eraseDups_cons]

/-- Items that occur several times side by side are left in the order of their groups. -/
theorem eraseDups_flatMap_copies (distinct : items.Nodup) (copies : α → List β) :
    (items.flatMap fun item => (copies item).map fun _ => item).eraseDups =
      items.filter fun item => !(copies item).isEmpty := by
  induction items using List.reverseRecOn with
  | nil => rfl
  | append_singleton items item ih =>
    rw [List.nodup_append_comm, List.singleton_append, List.nodup_cons] at distinct
    rw [List.flatMap_append, List.filter_append, List.flatMap_singleton,
      eraseDups_append_of_disjoint, ih distinct.2]
    · cases found : copies item with
      | nil => simp [found]
      | cons first rest =>
        rw [List.map_cons, ← List.singleton_append, eraseDups_append_of_subset]
        · simp [found, List.eraseDups_cons]
        · intro other member
          obtain ⟨_, _, rfl⟩ := List.mem_map.mp member
          exact List.mem_singleton_self _
    · intro other member listed
      obtain ⟨_, _, rfl⟩ := List.mem_map.mp member
      obtain ⟨group, inside, copy⟩ := List.mem_flatMap.mp listed
      obtain ⟨_, _, rfl⟩ := List.mem_map.mp copy
      exact distinct.1 inside

end

section
variable {ι α : Type} [DecidableEq α] {named : ι → List α} {items more : List ι} {item : ι} {one : α}

/-- The place of the first item that names something. -/
def firstNaming (named : ι → List α) (items : List ι) (one : α) : Nat :=
  items.findIdx (one ∈ named ·)

theorem firstNaming_lt (known : one ∈ items.flatMap named) :
    firstNaming named items one < items.length := by
  rw [firstNaming, List.findIdx_lt_length]
  simpa using known

theorem firstNaming_append (known : one ∈ items.flatMap named) :
    firstNaming named (items ++ more) one = firstNaming named items one := by
  have inside := firstNaming_lt known
  unfold firstNaming at inside ⊢
  rw [List.findIdx_append, if_pos inside]

theorem firstNaming_concat (fresh : one ∉ items.flatMap named) (last : one ∈ named item) :
    firstNaming named (items ++ [item]) one = items.length := by
  have none : items.findIdx (one ∈ named ·) = items.length := by
    rw [List.findIdx_eq_length]
    simpa using fresh
  simp [firstNaming, List.findIdx_append, none, last]

/-- What several items name is ordered by the item that names it first, and among what the same
item names first as that item has it. -/
theorem pairwise_eraseDups_flatMap {before : α → α → Prop}
    (distinct : ∀ item ∈ items, (named item).Nodup)
    (ordered : ∀ item ∈ items, (named item).Pairwise before) :
    (items.flatMap named).eraseDups.Pairwise fun one other =>
      firstNaming named items one < firstNaming named items other ∨
        firstNaming named items one = firstNaming named items other ∧ before one other := by
  induction items using List.reverseRecOn with
  | nil => exact .nil
  | append_singleton items item ih =>
    simp only [List.mem_append, List.mem_singleton, or_imp, forall_and, forall_eq] at distinct ordered
    have inside : ((named item).removeAll (items.flatMap named)).Sublist (named item) :=
      List.filter_sublist
    have new {one : α} (listed : one ∈ (named item).removeAll (items.flatMap named)) :
        firstNaming named (items ++ [item]) one = items.length := by
      obtain ⟨last, fresh⟩ := List.mem_filter.mp listed
      exact firstNaming_concat (by simpa using fresh) last
    rw [List.flatMap_append, List.flatMap_singleton, List.eraseDups_append,
      eraseDups_of_nodup (distinct.2.sublist inside), List.pairwise_append]
    -- What the last item adds is named by it first, after all that the items before it name.
    refine ⟨?_, ?_, ?_⟩
    · refine (ih distinct.1 ordered.1).imp_of_mem fun {one other} member otherMember earlier => ?_
      rw [List.mem_eraseDups] at member otherMember
      rwa [firstNaming_append member, firstNaming_append otherMember]
    · refine (ordered.2.sublist inside).imp_of_mem fun {one other} member otherMember earlier =>
        .inr ⟨?_, earlier⟩
      rw [new member, new otherMember]
    · intro one member other otherMember
      rw [List.mem_eraseDups] at member
      rw [firstNaming_append member, new otherMember]
      exact .inl (firstNaming_lt member)

end

end ModuleBoundary
