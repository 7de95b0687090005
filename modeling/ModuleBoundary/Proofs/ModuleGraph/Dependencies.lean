import Mathlib.Data.Set.Card
import ModuleBoundary.Analysis
import ModuleBoundary.Proofs.ModuleGraph.Ownership

/-! The dependency relation, seen through the references of owned classes.

A reference crosses a boundary if it leads from an owned class to a class of another owner.
Every view of the relation, from the list of crossings to the summaries of an analysis, shows
the crossings and nothing else.
-/

set_option autoImplicit false

namespace ModuleBoundary

section
variable {κ : Type} [DecidableEq κ] [BEq κ] [LawfulBEq κ]

theorem Tally.lookup_entry (first key : κ) (number : Nat) (rest : Tally κ) :
    List.lookup key ((first, number) :: rest) =
      if key = first then some number else rest.lookup key := by
  by_cases same : key = first
  · simp [same]
  · simp [List.lookup_cons, beq_false_of_ne same, same]

theorem Tally.lookup_count (key other : κ) (tally : Tally κ) :
    (tally.count key).lookup other =
      if other = key then some ((tally.lookup key).getD 0 + 1) else tally.lookup other := by
  induction tally with
  | nil => exact lookup_entry key other 1 []
  | cons entry rest ih =>
    obtain ⟨first, number⟩ := entry
    unfold count
    by_cases here : first = key
    · subst here
      simp only [if_true, lookup_entry]
      split <;> rfl
    · simp only [if_neg here, lookup_entry, ih, if_neg (Ne.symm here)]
      by_cases above : other = first
      · subst above
        simp [here]
      · simp [above]

theorem Tally.lookup_foldl_count (keys : List κ) (tally : Tally κ) (key : κ) :
    (keys.foldl (fun tally key => tally.count key) tally).lookup key =
      if key ∈ keys then some ((tally.lookup key).getD 0 + keys.count key)
      else tally.lookup key := by
  induction keys generalizing tally with
  | nil => simp
  | cons head rest ih =>
    rw [List.foldl_cons, ih, lookup_count]
    by_cases same : key = head
    · subst same
      by_cases again : key ∈ rest
      · simp [again]
        omega
      · simp [again, List.count_eq_zero_of_not_mem again]
    · simp [same, List.count_cons_of_ne (Ne.symm same)]

/-- A tally of keys holds each with the number of times it occurs, and no other. -/
theorem Tally.lookup_of_eq_some {keys : List κ} {key : κ} {number : Nat} :
    (Tally.of keys).lookup key = some number ↔ 1 ≤ number ∧ number = keys.count key := by
  rw [Tally.of, lookup_foldl_count]
  by_cases occurs : key ∈ keys
  · have positive := List.count_pos_iff.mpr occurs
    simp only [if_pos occurs, List.lookup_nil, Option.getD_none, Nat.zero_add, Option.some.injEq]
    omega
  · have absent := List.count_eq_zero_of_not_mem occurs
    simp only [if_neg occurs, List.lookup_nil, reduceCtorEq, false_iff]
    omega

end

namespace ModuleGraph

variable {codebase : Codebase}

/-- What a crossing is: a class with an owner names a class with another owner among its
references, and the crossing tells both with their owners. -/
structure IsCrossing (graph : ModuleGraph codebase) (crossing : ClassDependency codebase) : Prop where
  source : codebase.classes.get? crossing.source.name = some crossing.source
  target : codebase.classes.get? crossing.target.name = some crossing.target
  sourceOwner : graph.owner? crossing.source.name = some crossing.sourceModule
  targetOwner : graph.owner? crossing.target.name = some crossing.targetModule
  reference : crossing.target.name ∈ crossing.source.references
  boundary : crossing.sourceModule ≠ crossing.targetModule

theorem mem_ownedClasses {modules : List (ApplicationModule codebase)} {descriptor : ClassDescriptor}
    {owner : ApplicationModule codebase} :
    (descriptor, owner) ∈ ownedClasses modules ↔
      descriptor ∈ codebase.classes.classes ∧ ownerOfClass? modules descriptor = some owner := by
  simp only [ownedClasses, List.mem_filterMap, Option.map_eq_some_iff, Prod.mk.injEq]
  constructor
  · rintro ⟨known, member, _, owned, rfl, rfl⟩
    exact ⟨member, owned⟩
  · rintro ⟨member, owned⟩
    exact ⟨descriptor, member, owner, owned, rfl, rfl⟩

theorem mem_ownedClasses_iff_owner? (graph : ModuleGraph codebase) {descriptor : ClassDescriptor}
    {owner : ApplicationModule codebase} :
    (descriptor, owner) ∈ ownedClasses graph.modules ↔
      codebase.classes.get? descriptor.name = some descriptor ∧
        graph.owner? descriptor.name = some owner := by
  rw [mem_ownedClasses]
  constructor
  · rintro ⟨member, owned⟩
    rw [graph.owner?_of_mem member]
    exact ⟨ClassGraph.get?_eq_some.mpr ⟨member, rfl⟩, owned⟩
  · rintro ⟨found, owned⟩
    have member := (ClassGraph.get?_eq_some.mp found).1
    rw [graph.owner?_of_mem member] at owned
    exact ⟨member, owned⟩

theorem ownedClasses_distinct (modules : List (ApplicationModule codebase)) :
    ((ownedClasses modules).map (·.1.name)).Nodup := by
  refine List.Sublist.nodup ?_ codebase.classes.distinct
  unfold ownedClasses
  induction codebase.classes.classes with
  | nil => exact List.Sublist.slnil
  | cons first rest ih =>
    cases owned : ownerOfClass? modules first with
    | none => simpa [owned] using ih.cons _
    | some owner => simpa [owned] using ih.cons_cons first.name

theorem crossing?_eq_some {modules : List (ApplicationModule codebase)}
    {referrer : ClassDescriptor × ApplicationModule codebase} {reference : String}
    {crossing : ClassDependency codebase} :
    crossing? (ownedClasses modules) referrer reference = some crossing ↔
      (crossing.source, crossing.sourceModule) = referrer ∧
        (crossing.target, crossing.targetModule) ∈ ownedClasses modules ∧
        crossing.target.name = reference ∧
        crossing.targetModule.name ≠ crossing.sourceModule.name := by
  simp only [crossing?, Option.bind_eq_some_iff,
    find?_name_eq_some (ownedClasses_distinct modules), Prod.exists]
  constructor
  · rintro ⟨target, targetModule, ⟨owned, named⟩, crosses⟩
    split at crosses
    · cases crosses
    · next different =>
      cases crosses
      exact ⟨rfl, owned, named, different⟩
  · rintro ⟨rfl, owned, named, different⟩
    exact ⟨crossing.target, crossing.targetModule, ⟨owned, named⟩, if_neg different⟩

-- Owners are told apart by their names. Names of modules are distinct, so this is the same as
-- telling the modules apart.
theorem mem_classDependencies (graph : ModuleGraph codebase) {crossing : ClassDependency codebase} :
    crossing ∈ graph.classDependencies ↔ graph.IsCrossing crossing := by
  rw [graph.classDependencies_eq]
  simp only [crossings, List.mem_flatMap, List.mem_filterMap, crossing?_eq_some]
  constructor
  · rintro ⟨referrer, owned, reference, named, rfl, ownedTarget, rfl, different⟩
    obtain ⟨source, sourceOwner⟩ := graph.mem_ownedClasses_iff_owner?.mp owned
    obtain ⟨target, targetOwner⟩ := graph.mem_ownedClasses_iff_owner?.mp ownedTarget
    have boundary : crossing.sourceModule ≠ crossing.targetModule := fun same =>
      different (congrArg ApplicationModule.name same.symm)
    exact ⟨source, target, sourceOwner, targetOwner, named, boundary⟩
  · intro crossed
    have different : crossing.targetModule.name ≠ crossing.sourceModule.name := fun same =>
      crossed.boundary (graph.eq_of_name_eq (graph.mem_of_owner? crossed.sourceOwner)
        (graph.mem_of_owner? crossed.targetOwner) same.symm)
    exact ⟨(crossing.source, crossing.sourceModule),
      graph.mem_ownedClasses_iff_owner?.mpr ⟨crossed.source, crossed.sourceOwner⟩,
      crossing.target.name, crossed.reference, rfl,
      graph.mem_ownedClasses_iff_owner?.mpr ⟨crossed.target, crossed.targetOwner⟩, rfl, different⟩

/-- The names of the classes that a crossing joins. -/
def ends (crossing : ClassDependency codebase) : String × String :=
  (crossing.source.name, crossing.target.name)

theorem classDependencies_distinct (graph : ModuleGraph codebase) :
    (graph.classDependencies.map ends).Nodup := by
  rw [graph.classDependencies_eq, crossings, List.map_flatMap, List.nodup_flatMap]
  constructor
  · intro referrer _
    rw [List.map_filterMap]
    refine List.Nodup.filterMap ?_ (referrer.1.references.ascending.imp String.ne_of_lt)
    -- The second name of a pair is the reference it comes from.
    intro first second pair left right
    obtain ⟨crossing, found, rfl⟩ := Option.map_eq_some_iff.mp left
    obtain ⟨other, foundOther, same⟩ := Option.map_eq_some_iff.mp right
    rw [← (crossing?_eq_some.mp found).2.2.1, ← (crossing?_eq_some.mp foundOther).2.2.1]
    exact (congrArg Prod.snd same).symm
  · -- The first name of a pair is the class that refers, and each class refers once.
    refine (List.pairwise_map.mp (ownedClasses_distinct graph.modules)).imp ?_
    intro first second different pair left right
    obtain ⟨crossing, found, rfl⟩ := List.mem_map.mp left
    obtain ⟨other, foundOther, same⟩ := List.mem_map.mp right
    obtain ⟨_, _, selected⟩ := List.mem_filterMap.mp found
    obtain ⟨_, _, selectedOther⟩ := List.mem_filterMap.mp foundOther
    rw [← (crossing?_eq_some.mp selected).1, ← (crossing?_eq_some.mp selectedOther).1] at different
    exact different (congrArg Prod.fst same).symm

/-- The references that lead from classes of one module to classes of another. -/
def referencePairs (graph : ModuleGraph codebase) (source target : ApplicationModule codebase) :
    Set (String × String) :=
  { pair | ∃ referrer, codebase.classes.get? pair.1 = some referrer ∧
      pair.2 ∈ referrer.references ∧ graph.owner? pair.1 = some source ∧
      graph.owner? pair.2 = some target ∧ source ≠ target }

theorem mem_ends_between (graph : ModuleGraph codebase) {source target : ApplicationModule codebase}
    (known : source ∈ graph.modules) (other : target ∈ graph.modules) {pair : String × String} :
    pair ∈ (graph.between source.name target.name).map ends ↔
      pair ∈ graph.referencePairs source target := by
  simp only [between, List.mem_map, List.mem_filter, Bool.and_eq_true, beq_iff_eq,
    mem_classDependencies, referencePairs, Set.mem_ofPred_eq]
  constructor
  · rintro ⟨crossing, ⟨crossed, sourceName, targetName⟩, rfl⟩
    have sourceSame := graph.eq_of_name_eq (graph.mem_of_owner? crossed.sourceOwner) known sourceName
    have targetSame := graph.eq_of_name_eq (graph.mem_of_owner? crossed.targetOwner) other targetName
    subst sourceSame targetSame
    exact ⟨crossing.source, crossed.source, crossed.reference, crossed.sourceOwner,
      crossed.targetOwner, crossed.boundary⟩
  · rintro ⟨referrer, found, reference, sourceOwner, targetOwner, boundary⟩
    obtain ⟨referred, foundTarget, _⟩ := Option.bind_eq_some_iff.mp targetOwner
    obtain ⟨_, sourceNamed⟩ := ClassGraph.get?_eq_some.mp found
    obtain ⟨_, targetNamed⟩ := ClassGraph.get?_eq_some.mp foundTarget
    obtain ⟨first, second⟩ := pair
    subst sourceNamed targetNamed
    exact ⟨⟨referrer, source, referred, target⟩,
      ⟨⟨found, foundTarget, sourceOwner, targetOwner, reference, boundary⟩, rfl, rfl⟩, rfl⟩

theorem length_between (graph : ModuleGraph codebase) {source target : ApplicationModule codebase}
    (known : source ∈ graph.modules) (other : target ∈ graph.modules) :
    (graph.between source.name target.name).length = (graph.referencePairs source target).ncard := by
  have distinct : ((graph.between source.name target.name).map ends).Nodup :=
    graph.classDependencies_distinct.sublist (List.filter_sublist.map ends)
  have same : graph.referencePairs source target =
      ↑((graph.between source.name target.name).map ends).toFinset := by
    ext pair
    rw [List.coe_toFinset, Set.mem_ofPred_eq, graph.mem_ends_between known other]
  rw [same, Set.ncard_coe_finset, List.toFinset_card_of_nodup distinct, List.length_map]

theorem weight?_eq_some (graph : ModuleGraph codebase) {source target : String} {weight : Nat} :
    graph.weight? source target = some weight ↔
      1 ≤ weight ∧ weight = (graph.between source target).length := by
  have counted : (graph.classDependencies.map fun crossing =>
      (crossing.sourceModule.name, crossing.targetModule.name)).count (source, target) =
      (graph.between source target).length := by
    rw [List.count, List.countP_map, List.countP_eq_length_filter]
    rfl
  rw [weight?, graph.weights_eq, Tally.lookup_of_eq_some, counted]

theorem dependsOn_iff (graph : ModuleGraph codebase) {source target : String} :
    graph.dependsOn source target = true ↔ ∃ crossing, crossing ∈ graph.between source target := by
  simp only [dependsOn, Option.isSome_iff_exists, weight?_eq_some, ← List.length_pos_iff_exists_mem]
  constructor
  · rintro ⟨weight, positive, rfl⟩
    exact positive
  · intro positive
    exact ⟨_, positive, rfl⟩

theorem mem_edges (graph : ModuleGraph codebase) {edge : ModuleEdge codebase} :
    edge ∈ graph.edges ↔ edge.source ∈ graph.modules ∧ edge.target ∈ graph.modules ∧
      graph.weight? edge.source.name edge.target.name = some edge.weight := by
  simp only [edges, List.mem_flatMap, List.mem_filterMap, Option.map_eq_some_iff]
  constructor
  · rintro ⟨source, known, target, other, weight, weighed, rfl⟩
    exact ⟨known, other, weighed⟩
  · rintro ⟨known, other, weighed⟩
    exact ⟨edge.source, known, edge.target, other, edge.weight, weighed, rfl⟩

theorem modules_nodup (graph : ModuleGraph codebase) : graph.modules.Nodup :=
  .of_map ApplicationModule.name graph.distinct

theorem edges_distinct (graph : ModuleGraph codebase) :
    (graph.edges.map fun edge => (edge.source, edge.target)).Nodup := by
  rw [edges, List.map_flatMap, List.nodup_flatMap]
  constructor
  · intro source _
    rw [List.map_filterMap]
    refine List.Nodup.filterMap ?_ graph.modules_nodup
    intro first second pair left right
    simp only [Option.mem_def, Option.map_eq_some_iff] at left right
    obtain ⟨_, ⟨_, _, rfl⟩, rfl⟩ := left
    obtain ⟨_, ⟨_, _, rfl⟩, same⟩ := right
    exact (congrArg Prod.snd same).symm
  · refine graph.modules_nodup.imp ?_
    intro first second different pair left right
    simp only [List.mem_map, List.mem_filterMap, Option.map_eq_some_iff] at left right
    obtain ⟨_, ⟨_, _, _, _, rfl⟩, rfl⟩ := left
    obtain ⟨_, ⟨_, _, _, _, rfl⟩, same⟩ := right
    exact different (congrArg Prod.fst same).symm

theorem mem_dependenciesOf (graph : ModuleGraph codebase) {name : String}
    {target : ApplicationModule codebase} :
    target ∈ graph.dependenciesOf name ↔
      target ∈ graph.modules ∧ graph.dependsOn name target.name = true :=
  List.mem_filter

theorem dependsOn_iff_references (graph : ModuleGraph codebase)
    {source target : ApplicationModule codebase} (known : source ∈ graph.modules)
    (other : target ∈ graph.modules) :
    graph.dependsOn source.name target.name = true ↔ (graph.referencePairs source target).Nonempty := by
  rw [dependsOn_iff]
  constructor
  · rintro ⟨crossing, member⟩
    exact ⟨ends crossing, (graph.mem_ends_between known other).mp (List.mem_map_of_mem member)⟩
  · rintro ⟨pair, references⟩
    obtain ⟨crossing, member, _⟩ :=
      List.mem_map.mp ((graph.mem_ends_between known other).mpr references)
    exact ⟨crossing, member⟩

/-- The relation holds between names of different modules only. -/
theorem modules_of_dependsOn (graph : ModuleGraph codebase) {source target : String}
    (depends : graph.dependsOn source target = true) :
    ∃ first ∈ graph.modules, ∃ second ∈ graph.modules,
      first.name = source ∧ second.name = target ∧ first ≠ second := by
  obtain ⟨crossing, member⟩ := graph.dependsOn_iff.mp depends
  obtain ⟨found, named⟩ := List.mem_filter.mp member
  obtain ⟨sourceNamed, targetNamed⟩ := Bool.and_eq_true_iff.mp named
  have crossed := graph.mem_classDependencies.mp found
  exact ⟨crossing.sourceModule, graph.mem_of_owner? crossed.sourceOwner,
    crossing.targetModule, graph.mem_of_owner? crossed.targetOwner,
    beq_iff_eq.mp sourceNamed, beq_iff_eq.mp targetNamed, crossed.boundary⟩

/-- What it is for the views of a graph to show the references that cross its boundaries,
each of them completely and once. -/
structure ShowsReferences (graph : ModuleGraph codebase) : Prop where
  crossings : ∀ crossing, crossing ∈ graph.classDependencies ↔ graph.IsCrossing crossing
  crossings_once : (graph.classDependencies.map ends).Nodup
  /-- An edge carries the number of references from one owner to the other. -/
  edges : ∀ edge, edge ∈ graph.edges ↔ edge.source ∈ graph.modules ∧ edge.target ∈ graph.modules ∧
    1 ≤ edge.weight ∧ edge.weight = (graph.referencePairs edge.source edge.target).ncard
  edges_once : (graph.edges.map fun edge => (edge.source, edge.target)).Nodup
  edges_apart : ∀ edge ∈ graph.edges, edge.source ≠ edge.target
  between : ∀ source ∈ graph.modules, ∀ target ∈ graph.modules,
    (graph.between source.name target.name).length = (graph.referencePairs source target).ncard
  dependsOn : ∀ source target, graph.dependsOn source target = true ↔
    ∃ first ∈ graph.modules, ∃ second ∈ graph.modules, first.name = source ∧ second.name = target ∧
      (graph.referencePairs first second).Nonempty
  dependenciesOf : ∀ name target, target ∈ graph.dependenciesOf name ↔
    ∃ source ∈ graph.modules, source.name = name ∧ target ∈ graph.modules ∧
      (graph.referencePairs source target).Nonempty
  dependenciesOf_order : ∀ name, (graph.dependenciesOf name).Sublist graph.modules ∧
    (graph.dependenciesOf name).Nodup
  /-- The named graph has the modules for nodes and the edges for arrows. -/
  nodes : graph.toNamedGraph.nodes = graph.modules.map ApplicationModule.name
  arrows : ∀ arrow, arrow ∈ graph.toNamedGraph.arrows ↔
    ∃ first ∈ graph.modules, ∃ second ∈ graph.modules, first.name = arrow.source ∧
      second.name = arrow.target ∧ 1 ≤ arrow.weight ∧
      arrow.weight = (graph.referencePairs first second).ncard
  arrows_once : (graph.toNamedGraph.arrows.map fun arrow => (arrow.source, arrow.target)).Nodup
  /-- A summary lists the targets of the arrows from its module. -/
  summaries : ∀ summary ∈ graph.summaries, summary.dependencies.Perm
    ((graph.toNamedGraph.arrows.filter (·.source = summary.name)).map (·.target))

theorem weight?_eq_some_iff_references (graph : ModuleGraph codebase)
    {source target : ApplicationModule codebase} (known : source ∈ graph.modules)
    (other : target ∈ graph.modules) {weight : Nat} :
    graph.weight? source.name target.name = some weight ↔
      1 ≤ weight ∧ weight = (graph.referencePairs source target).ncard := by
  rw [weight?_eq_some, graph.length_between known other]

theorem mem_edges_iff_references (graph : ModuleGraph codebase) {edge : ModuleEdge codebase} :
    edge ∈ graph.edges ↔ edge.source ∈ graph.modules ∧ edge.target ∈ graph.modules ∧
      1 ≤ edge.weight ∧ edge.weight = (graph.referencePairs edge.source edge.target).ncard := by
  rw [mem_edges]
  refine and_congr_right fun known => and_congr_right fun other => ?_
  exact graph.weight?_eq_some_iff_references known other

theorem mem_arrows (graph : ModuleGraph codebase) {arrow : Arrow} :
    arrow ∈ graph.toNamedGraph.arrows ↔ ∃ edge ∈ graph.edges,
      edge.source.name = arrow.source ∧ edge.target.name = arrow.target ∧
        edge.weight = arrow.weight := by
  obtain ⟨source, target, weight⟩ := arrow
  simp only [toNamedGraph, List.mem_map, Arrow.mk.injEq]

theorem arrows_distinct (graph : ModuleGraph codebase) :
    (graph.toNamedGraph.arrows.map fun arrow => (arrow.source, arrow.target)).Nodup := by
  have named : graph.toNamedGraph.arrows.map (fun arrow => (arrow.source, arrow.target)) =
      (graph.edges.map fun edge => (edge.source, edge.target)).map
        fun (source, target) => (source.name, target.name) := by
    simp [toNamedGraph]
  rw [named]
  refine graph.edges_distinct.map_on ?_
  intro first left second right same
  obtain ⟨edge, member, rfl⟩ := List.mem_map.mp left
  obtain ⟨other, otherMember, rfl⟩ := List.mem_map.mp right
  obtain ⟨source, target, _⟩ := graph.mem_edges.mp member
  obtain ⟨otherSource, otherTarget, _⟩ := graph.mem_edges.mp otherMember
  obtain ⟨sameSource, sameTarget⟩ := Prod.mk.inj same
  exact Prod.ext (graph.eq_of_name_eq source otherSource sameSource)
    (graph.eq_of_name_eq target otherTarget sameTarget)

-- Both lists are without repetition, so it is enough that they have the same members.
theorem perm_targets (graph : ModuleGraph codebase) {module : ApplicationModule codebase}
    (known : module ∈ graph.modules) :
    ((graph.dependenciesOf module.name).map (·.name)).Perm
      ((graph.toNamedGraph.arrows.filter (·.source = module.name)).map (·.target)) := by
  have listed : ((graph.dependenciesOf module.name).map (·.name)).Nodup :=
    graph.distinct.sublist (List.filter_sublist.map _)
  have aimed : ((graph.toNamedGraph.arrows.filter (·.source = module.name)).map (·.target)).Nodup := by
    refine ((graph.arrows_distinct.of_map _).filter _).map_on ?_
    intro first left second right same
    obtain ⟨member, source⟩ := List.mem_filter.mp left
    obtain ⟨otherMember, otherSource⟩ := List.mem_filter.mp right
    have sameSource : first.source = second.source :=
      (of_decide_eq_true source).trans (of_decide_eq_true otherSource).symm
    exact List.inj_on_of_nodup_map graph.arrows_distinct member otherMember
      (Prod.ext sameSource same)
  refine (List.perm_ext_iff_of_nodup listed aimed).mpr fun name => ?_
  simp only [List.mem_map, List.mem_filter, decide_eq_true_eq, mem_dependenciesOf, mem_arrows]
  constructor
  · rintro ⟨target, ⟨other, depends⟩, rfl⟩
    obtain ⟨weight, weighed⟩ := Option.isSome_iff_exists.mp depends
    exact ⟨⟨module.name, target.name, weight⟩,
      ⟨⟨⟨module, target, weight⟩, graph.mem_edges.mpr ⟨known, other, weighed⟩, rfl, rfl, rfl⟩, rfl⟩, rfl⟩
  · rintro ⟨arrow, ⟨⟨edge, member, source, target, _⟩, sourceName⟩, rfl⟩
    obtain ⟨_, other, weighed⟩ := graph.mem_edges.mp member
    refine ⟨edge.target, ⟨other, ?_⟩, target⟩
    rw [← sourceName, ← source]
    exact Option.isSome_iff_exists.mpr ⟨_, weighed⟩

theorem showsReferences (graph : ModuleGraph codebase) : graph.ShowsReferences where
  crossings _ := graph.mem_classDependencies
  crossings_once := graph.classDependencies_distinct
  edges _ := graph.mem_edges_iff_references
  edges_once := graph.edges_distinct
  edges_apart edge member := by
    obtain ⟨known, other, weighed⟩ := graph.mem_edges.mp member
    obtain ⟨pair, _, _, _, _, _, boundary⟩ := (graph.dependsOn_iff_references known other).mp
      (Option.isSome_iff_exists.mpr ⟨_, weighed⟩)
    exact boundary
  between _ known _ other := graph.length_between known other
  dependsOn source target := by
    constructor
    · intro depends
      obtain ⟨first, known, second, other, rfl, rfl, _⟩ := graph.modules_of_dependsOn depends
      exact ⟨first, known, second, other, rfl, rfl,
        (graph.dependsOn_iff_references known other).mp depends⟩
    · rintro ⟨first, known, second, other, rfl, rfl, references⟩
      exact (graph.dependsOn_iff_references known other).mpr references
  dependenciesOf name target := by
    rw [mem_dependenciesOf]
    constructor
    · rintro ⟨other, depends⟩
      obtain ⟨source, known, _, _, rfl, _⟩ := graph.modules_of_dependsOn depends
      exact ⟨source, known, rfl, other, (graph.dependsOn_iff_references known other).mp depends⟩
    · rintro ⟨source, known, rfl, other, references⟩
      exact ⟨other, (graph.dependsOn_iff_references known other).mpr references⟩
  dependenciesOf_order _ := ⟨List.filter_sublist, graph.modules_nodup.filter _⟩
  nodes := rfl
  arrows arrow := by
    rw [mem_arrows]
    constructor
    · rintro ⟨edge, member, source, target, weight⟩
      obtain ⟨known, other, positive, counted⟩ := graph.mem_edges_iff_references.mp member
      rw [weight] at positive counted
      exact ⟨edge.source, known, edge.target, other, source, target, positive, counted⟩
    · rintro ⟨first, known, second, other, source, target, positive, counted⟩
      exact ⟨⟨first, second, arrow.weight⟩,
        graph.mem_edges_iff_references.mpr ⟨known, other, positive, counted⟩, source, target, rfl⟩
  arrows_once := graph.arrows_distinct
  summaries summary member := by
    obtain ⟨module, known, rfl⟩ := List.mem_map.mp member
    exact graph.perm_targets known

end ModuleGraph

theorem analyze_eq_ok {projectName : String} {classes : ClassGraph} {basePackage : String}
    {settings : AnalysisSettings} {analysis : Analysis}
    (analyzed : analyze projectName classes basePackage settings = .ok analysis) :
    ∃ graph : ModuleGraph ⟨classes, settings.markers⟩,
      ModuleGraph.discover ⟨classes, settings.markers⟩ basePackage settings.overrides = .ok graph ∧
        analysis.modules = graph.summaries ∧ analysis.dependencyGraph = graph.toNamedGraph := by
  unfold analyze at analyzed
  cases discovered :
      ModuleGraph.discover ⟨classes, settings.markers⟩ basePackage settings.overrides with
  | error e =>
    rw [discovered] at analyzed
    cases analyzed
  | ok graph =>
    rw [discovered] at analyzed
    cases analyzed
    exact ⟨graph, rfl, rfl, rfl⟩

/-- Every view of a module graph shows its references, and so does every analysis: it has a
summary for each node, with the targets of the arrows from that node. -/
theorem every_view_shows_references :
    (∀ (codebase : Codebase) (graph : ModuleGraph codebase), graph.ShowsReferences) ∧
    ∀ projectName classes basePackage settings analysis,
      analyze projectName classes basePackage settings = .ok analysis →
        analysis.modules.map (·.name) = analysis.dependencyGraph.nodes ∧
        ∀ summary ∈ analysis.modules, summary.dependencies.Perm
          ((analysis.dependencyGraph.arrows.filter (·.source = summary.name)).map (·.target)) := by
  refine ⟨fun _ graph => graph.showsReferences, ?_⟩
  intro projectName classes basePackage settings analysis analyzed
  obtain ⟨graph, _, modules, arrows⟩ := analyze_eq_ok analyzed
  rw [modules, arrows]
  exact ⟨List.map_map, graph.showsReferences.summaries⟩

end ModuleBoundary
