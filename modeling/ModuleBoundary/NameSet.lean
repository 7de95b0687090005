/-! Finite sets of names, held as strictly ascending lists.

The order is that of code points. Two sets with the same members are therefore
equal as values, and enumerating a set needs no sorting.
-/

set_option autoImplicit false

namespace ModuleBoundary

structure NameSet where
  toList : List String
  ascending : toList.Pairwise (· < ·)
  deriving DecidableEq

namespace NameSet

def empty : NameSet := ⟨[], .nil⟩

instance : Inhabited NameSet := ⟨empty⟩

instance : EmptyCollection NameSet := ⟨empty⟩

instance : Membership String NameSet := ⟨fun names name => name ∈ names.toList⟩

instance (name : String) (names : NameSet) : Decidable (name ∈ names) :=
  inferInstanceAs (Decidable (name ∈ names.toList))

def contains (names : NameSet) (name : String) : Bool := decide (name ∈ names)

def isEmpty (names : NameSet) : Bool := names.toList.isEmpty

/-- Put a name at its place in an ascending list, unless it is there. -/
def place (name : String) : List String → List String
  | [] => [name]
  | head :: rest =>
    if name < head then name :: head :: rest
    else if name = head then head :: rest
    else head :: place name rest

theorem mem_place {name other : String} {names : List String} :
    other ∈ place name names ↔ other = name ∨ other ∈ names := by
  induction names with
  | nil => simp [place]
  | cons head rest ih =>
    unfold place
    split
    · simp
    · split
      · next same => subst same; simp
      · simp only [List.mem_cons, ih]; exact or_left_comm

theorem place_ascending {name : String} {names : List String}
    (ascending : names.Pairwise (· < ·)) : (place name names).Pairwise (· < ·) := by
  induction names with
  | nil => simp [place]
  | cons head rest ih =>
    obtain ⟨below, ordered⟩ := List.pairwise_cons.mp ascending
    unfold place
    split
    · next before =>
      refine List.pairwise_cons.mpr ⟨fun other found => ?_, ascending⟩
      rcases List.mem_cons.mp found with rfl | found
      · exact before
      · exact String.lt_trans before (below other found)
    · next notBefore =>
      split
      · exact ascending
      · next different =>
        refine List.pairwise_cons.mpr ⟨fun other found => ?_, ih ordered⟩
        rcases mem_place.mp found with rfl | found
        · exact String.not_le.mp fun le => different (String.le_antisymm le (String.not_lt.mp notBefore))
        · exact below other found

def insert (names : NameSet) (name : String) : NameSet :=
  ⟨place name names.toList, place_ascending names.ascending⟩

@[simp] theorem mem_insert {names : NameSet} {name other : String} :
    other ∈ names.insert name ↔ other = name ∨ other ∈ names :=
  mem_place

def ofList (names : List String) : NameSet := names.foldl insert empty

theorem mem_foldl_insert {other : String} (added : List String) (names : NameSet) :
    other ∈ added.foldl insert names ↔ other ∈ added ∨ other ∈ names := by
  induction added generalizing names with
  | nil => simp
  | cons head rest ih =>
    simp only [List.foldl_cons, ih, mem_insert, List.mem_cons]
    exact ⟨fun h => by rcases h with h | h | h <;> simp [h], fun h => by
      rcases h with (h | h) | h <;> simp [h]⟩

@[simp] theorem mem_ofList {names : List String} {other : String} :
    other ∈ ofList names ↔ other ∈ names := by
  have absent : other ∉ empty := List.not_mem_nil
  simp [ofList, mem_foldl_insert, absent]

end NameSet

end ModuleBoundary
