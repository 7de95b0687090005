/-! Items that must have distinct names. -/

set_option autoImplicit false

namespace ModuleBoundary

variable {α : Type}

/-- The first item whose name an earlier one has, after that earlier one. The items of
`seen` come before the list. -/
def firstClash? (name : α → String) (seen : List α) : List α → Option (α × α)
  | [] => none
  | item :: rest =>
    match seen.find? (name · == name item) with
    | some earlier => some (earlier, item)
    | none => firstClash? name (item :: seen) rest

theorem firstClash?_eq_none {name : α → String} {seen items : List α}
    (clear : firstClash? name seen items = none) :
    (items.map name).Nodup ∧ ∀ item ∈ items, ∀ earlier ∈ seen, name earlier ≠ name item := by
  induction items generalizing seen with
  | nil => simp
  | cons item rest ih =>
    unfold firstClash? at clear
    split at clear
    · simp at clear
    · next fresh =>
      obtain ⟨nodup, unseen⟩ := ih clear
      refine ⟨List.nodup_cons.mpr ⟨fun found => ?_, nodup⟩, ?_⟩
      · obtain ⟨other, member, same⟩ := List.mem_map.mp found
        exact unseen other member item List.mem_cons_self same.symm
      · intro other member earlier old same
        rcases List.mem_cons.mp member with rfl | member
        · have := List.find?_eq_none.mp fresh earlier old
          simp [same] at this
        · exact unseen other member earlier (List.mem_cons_of_mem _ old) same

end ModuleBoundary
