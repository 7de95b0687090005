import ModuleBoundary.ModuleGraph
import ModuleBoundary.Proofs.ClassGraph.Filling

/-! Finding items by names that are distinct.

Classes and modules are looked up by name in lists that were checked for clashes, so a name
that is found stands for one item only.
-/

set_option autoImplicit false

namespace ModuleBoundary

section
variable {α : Type} {name : α → String} {items seen : List α}

theorem firstClash?_eq_none_iff :
    firstClash? name seen items = none ↔
      (items.map name).Nodup ∧ ∀ item ∈ items, ∀ earlier ∈ seen, name earlier ≠ name item := by
  refine ⟨firstClash?_eq_none, ?_⟩
  induction items generalizing seen with
  | nil => simp [firstClash?]
  | cons item rest ih =>
    rintro ⟨distinct, unseen⟩
    obtain ⟨fresh, distinct⟩ := List.nodup_cons.mp distinct
    have missed : seen.find? (name · == name item) = none :=
      List.find?_eq_none.mpr fun earlier old => by
        simpa using unseen item List.mem_cons_self earlier old
    unfold firstClash?
    rw [missed]
    refine ih ⟨distinct, ?_⟩
    intro other member earlier old same
    rcases List.mem_cons.mp old with rfl | old
    · exact fresh (List.mem_map.mpr ⟨other, member, same.symm⟩)
    · exact unseen other (List.mem_cons_of_mem _ member) earlier old same

end

section
variable {α κ : Type} [BEq κ] [LawfulBEq κ] {name : α → κ} {items : List α}

theorem find?_name_eq_some (distinct : (items.map name).Nodup) {wanted : κ} {item : α} :
    items.find? (name · == wanted) = some item ↔ item ∈ items ∧ name item = wanted := by
  constructor
  · intro found
    have named := List.find?_some found
    exact ⟨List.mem_of_find?_eq_some found, beq_iff_eq.mp named⟩
  · rintro ⟨member, rfl⟩
    cases found : items.find? (name · == name item) with
    | none => exact absurd (beq_self_eq_true _) (List.find?_eq_none.mp found item member)
    | some other =>
      have named := List.find?_some found
      exact congrArg some (List.inj_on_of_nodup_map distinct
        (List.mem_of_find?_eq_some found) member (beq_iff_eq.mp named))

end

/-- A clash shows in the names alone, and so it shows in what the items are made into. -/
theorem firstClash?_map {α β : Type} {name : β → String} (make : α → β) (seen items : List α) :
    firstClash? name (seen.map make) (items.map make) =
      (firstClash? (name ∘ make) seen items).map (Prod.map make make) := by
  induction items generalizing seen with
  | nil => rfl
  | cons item rest ih =>
    have earlier : (seen.map make).find? (name · == name (make item)) =
        (seen.find? ((name ∘ make) · == (name ∘ make) item)).map make := List.find?_map ..
    simp only [List.map_cons, firstClash?, earlier]
    cases seen.find? ((name ∘ make) · == (name ∘ make) item) with
    | some other => rfl
    | none => exact ih (item :: seen)

theorem NameSet.ext_of_mem {first second : NameSet}
    (same : ∀ name, name ∈ first ↔ name ∈ second) : first = second := by
  obtain ⟨names, ascending⟩ := first
  obtain ⟨others, ascendingToo⟩ := second
  have distinct := ascending.imp String.ne_of_lt
  have distinctToo := ascendingToo.imp String.ne_of_lt
  have listed : names = others :=
    List.Perm.eq_of_pairwise
      (fun _ _ _ _ before after => absurd after (String.lt_asymm before))
      ascending ascendingToo ((List.perm_ext_iff_of_nodup distinct distinctToo).mpr same)
  subst listed
  rfl

theorem NameSet.ofList_toList (names : NameSet) : ofList names.toList = names :=
  ext_of_mem fun _ => mem_ofList

/-- The index finds what a search of the list finds. -/
theorem ClassGraph.get?_eq_find? (graph : ClassGraph) (name : String) :
    graph.get? name = graph.classes.find? (·.name == name) := by
  apply Option.ext
  intro descriptor
  rw [get?_eq_some, find?_name_eq_some graph.distinct]

/-- Of some names those are left that stand for a chosen class. -/
theorem ClassGraph.names_filterMap_get? (graph : ClassGraph) (chosen : ClassDescriptor → Bool)
    (names : List String) :
    ((names.filterMap graph.get?).filter chosen).map ClassDescriptor.name =
      names.filter fun name => (graph.get? name).any chosen := by
  induction names with
  | nil => rfl
  | cons name rest ih =>
    cases found : graph.get? name with
    | none =>
      rw [List.filterMap_cons_none found, ih, List.filter_cons_of_neg]
      simp [found]
    | some descriptor =>
      obtain ⟨-, rfl⟩ := mem_and_name_of_get? found
      rw [List.filterMap_cons_some found, List.filter_cons, List.filter_cons, found, Option.any_some]
      split
      · rw [List.map_cons, ih]
      · exact ih

/-- Members of a module are told apart by their names, as all classes are. -/
theorem ApplicationModule.members_distinct {codebase : Codebase}
    (module : ApplicationModule codebase) : (module.members.map ClassDescriptor.name).Nodup :=
  codebase.classes.distinct.sublist (List.filter_sublist.map _)

namespace ModuleGraph

variable {codebase : Codebase}

/-- Every module graph is what is built of its modules, and of no others. -/
theorem ofModules_eq_ok {modules : List (ApplicationModule codebase)} {graph : ModuleGraph codebase} :
    ofModules modules = .ok graph ↔ graph.modules = modules := by
  unfold ofModules
  constructor
  · intro built
    split at built
    · cases built
    · cases built
      rfl
  · rintro rfl
    have clear : firstClash? ApplicationModule.name [] graph.modules = none :=
      firstClash?_eq_none_iff.mpr ⟨graph.distinct, by simp⟩
    split
    · next clash =>
      rw [clear] at clash
      cases clash
    · obtain ⟨_, _, _, rfl, _, rfl⟩ := graph
      rfl

theorem eq_of_name_eq (graph : ModuleGraph codebase) {first second : ApplicationModule codebase}
    (known : first ∈ graph.modules) (other : second ∈ graph.modules)
    (same : first.name = second.name) : first = second :=
  List.inj_on_of_nodup_map graph.distinct known other same

end ModuleGraph

end ModuleBoundary
