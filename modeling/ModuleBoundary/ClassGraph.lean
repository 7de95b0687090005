import ModuleBoundary.ClassDescriptor

/-! All classes of an analysed codebase, asked by name, package and supertype.

The classes keep the order they were given in. An index, filled as they come in, tells the
place of each by its name. Names are distinct, so a name stands for at most one class, and names
of classes outside the codebase stand for none.
-/

set_option autoImplicit false

namespace ModuleBoundary

inductive ClassGraphError where
  | notFound (package : String)
  | unknownClass (name : String)
  | invalidPackage (package : String)
  | duplicateClass (name : String)
  /-- The metadata is no JSON list of class descriptors. -/
  | malformed
  deriving DecidableEq

def ClassGraphError.message : ClassGraphError → String
  | .notFound package => s!"No classes found in package {package}"
  | .unknownClass name => s!"Unknown class: {name}"
  | .invalidPackage package => s!"Invalid package name: '{package}'"
  | .duplicateClass name => s!"Duplicate class descriptor: {name}"
  | .malformed => "Failed to parse class metadata: not a list of class descriptors"

/-- The places of classes in a list, by their names. -/
abbrev ClassIndex := List (String × Nat)

/-- The index has a name at a place exactly where the class of that name stands. -/
def ClassIndex.AgreesWith (index : ClassIndex) (classes : List ClassDescriptor) : Prop :=
  ∀ name place, index.lookup name = some place ↔
    (classes[place]?).map ClassDescriptor.name = some name

theorem ClassIndex.AgreesWith.append {index : ClassIndex} {classes : List ClassDescriptor}
    (agrees : index.AgreesWith classes) {descriptor : ClassDescriptor}
    (fresh : index.lookup descriptor.name = none) :
    AgreesWith ((descriptor.name, classes.length) :: index) (classes ++ [descriptor]) := by
  intro name place
  have earlier := agrees name place
  have outside (beyond : classes.length < place) : (classes ++ [descriptor])[place]? = none :=
    List.getElem?_eq_none (by simpa using Nat.succ_le_of_lt beyond)
  simp only [List.lookup_cons]
  by_cases same : name = descriptor.name
  · subst same
    rw [fresh] at earlier
    simp only [beq_self_eq_true, Option.some_inj]
    obtain before | rfl | beyond := Nat.lt_trichotomy place classes.length
    · rw [List.getElem?_append_left before, ← earlier]
      simp [Nat.ne_of_gt before]
    · simp
    · simp [outside beyond, Nat.ne_of_lt beyond]
  · rw [beq_false_of_ne same]
    obtain before | rfl | beyond := Nat.lt_trichotomy place classes.length
    · rw [List.getElem?_append_left before]
      exact earlier
    · simpa [Ne.symm same] using earlier
    · rw [List.getElem?_eq_none (Nat.le_of_lt beyond)] at earlier
      rw [outside beyond]
      exact earlier

structure ClassGraph where
  classes : List ClassDescriptor
  index : ClassIndex
  agrees : index.AgreesWith classes

namespace ClassGraph

def empty : ClassGraph where
  classes := []
  index := []
  agrees := by simp [ClassIndex.AgreesWith]

/-- One more class, unless its name is there already. -/
def append (graph : ClassGraph) (descriptor : ClassDescriptor) :
    Except ClassGraphError ClassGraph :=
  match fresh : graph.index.lookup descriptor.name with
  | some _ => .error (.duplicateClass descriptor.name)
  | none => .ok {
      classes := graph.classes ++ [descriptor]
      index := (descriptor.name, graph.classes.length) :: graph.index
      agrees := graph.agrees.append fresh }

/-- One more class, in the package its name tells where it gives none. -/
def insert (graph : ClassGraph) (descriptor : ClassDescriptor) :
    Except ClassGraphError ClassGraph :=
  graph.append descriptor.withDerivedPackage

def ofList (descriptors : List ClassDescriptor) : Except ClassGraphError ClassGraph :=
  descriptors.foldlM insert empty

def get? (graph : ClassGraph) (name : String) : Option ClassDescriptor :=
  (graph.index.lookup name).bind (graph.classes[·]?)

def contains (graph : ClassGraph) (name : String) : Bool := (graph.index.lookup name).isSome

def size (graph : ClassGraph) : Nat := graph.classes.length

def isEmpty (graph : ClassGraph) : Bool := graph.classes.isEmpty

/-- The classes of a package and its sub-packages. -/
def residents (graph : ClassGraph) (package : String) : List ClassDescriptor :=
  graph.classes.filter (·.residesIn package)

/-- As `residents`, for a package that is well formed and not deserted. -/
def classesIn (graph : ClassGraph) (package : String) :
    Except ClassGraphError (List ClassDescriptor) :=
  if Package.isValid package then
    match graph.residents package with
    | [] => .error (.notFound package)
    | found => .ok found
  else .error (.invalidPackage package)

/-- The other classes of the graph that a class refers to. -/
def referencesOf (graph : ClassGraph) (name : String) :
    Except ClassGraphError (List ClassDescriptor) :=
  match graph.get? name with
  | some descriptor =>
    .ok ((descriptor.references.toList.filter (· != name)).filterMap graph.get?)
  | none => .error (.unknownClass name)

/-- The names outside the graph that a class refers to. -/
def externalReferencesOf (graph : ClassGraph) (name : String) :
    Except ClassGraphError (List String) :=
  match graph.get? name with
  | some descriptor => .ok (descriptor.references.toList.filter (!graph.contains ·))
  | none => .error (.unknownClass name)

def annotatedWith (graph : ClassGraph) (name : String) : List ClassDescriptor :=
  graph.classes.filter (·.annotations.contains name)

/-- The classes whose names are not among `seen`. -/
def unseen (graph : ClassGraph) (seen : List String) : List ClassDescriptor :=
  graph.classes.filter (!seen.contains ·.name)

/-- What is found under a name is the class of that name. -/
theorem mem_and_name_of_get? {graph : ClassGraph} {name : String} {descriptor : ClassDescriptor}
    (found : graph.get? name = some descriptor) :
    descriptor ∈ graph.classes ∧ descriptor.name = name := by
  obtain ⟨place, listed, stands⟩ := Option.bind_eq_some_iff.mp found
  have named := (graph.agrees name place).mp listed
  rw [stands] at named
  exact ⟨List.mem_of_getElem? stands, Option.some.inj named⟩

theorem get?_name {graph : ClassGraph} {descriptor : ClassDescriptor}
    (listed : descriptor ∈ graph.classes) : graph.get? descriptor.name = some descriptor := by
  obtain ⟨place, stands⟩ := List.getElem?_of_mem listed
  have indexed := (graph.agrees descriptor.name place).mpr (by rw [stands, Option.map_some])
  rw [get?, indexed, Option.bind_some, stands]

theorem unseen_cons (graph : ClassGraph) (name : String) (seen : List String) :
    graph.unseen (name :: seen) = (graph.unseen seen).filter (·.name != name) := by
  simp only [unseen, List.filter_filter]
  refine List.filter_congr fun other _ => ?_
  by_cases same : other.name = name <;> simp [same]

theorem unseen_cons_of_get?_eq_none {graph : ClassGraph} {name : String}
    (missing : graph.get? name = none) (seen : List String) :
    graph.unseen (name :: seen) = graph.unseen seen := by
  rw [unseen_cons, List.filter_eq_self]
  intro other member
  refine bne_iff_ne.mpr fun same => ?_
  rw [← same, get?_name (List.mem_filter.mp member).1] at missing
  cases missing

theorem length_unseen_cons_lt {graph : ClassGraph} {seen : List String} {name : String}
    {descriptor : ClassDescriptor} (found : graph.get? name = some descriptor)
    (fresh : name ∉ seen) :
    (graph.unseen (name :: seen)).length < (graph.unseen seen).length := by
  obtain ⟨member, named⟩ := mem_and_name_of_get? found
  rw [unseen_cons]
  refine Nat.lt_of_le_of_ne (List.length_filter_le _ _) fun same => ?_
  have all := List.length_filter_eq_length_iff.mp same descriptor
    (List.mem_filter.mpr ⟨member, by simpa [named] using fresh⟩)
  simp [named] at all

/-- Whether a walk along supertypes from the `pending` names, which goes on from no name of
`seen` again, meets `supertype`. The pending names are a stack, its top first. Names outside the
graph lead no further. -/
def reaches (graph : ClassGraph) (supertype : String) (seen : List String) :
    List String → Bool
  | [] => false
  | current :: pending =>
    if current = supertype then true
    else if _fresh : current ∈ seen then graph.reaches supertype seen pending
    else
      match _found : graph.get? current with
      | none => graph.reaches supertype (current :: seen) pending
      | some parent =>
        graph.reaches supertype (current :: seen) (parent.supertypes.reverse ++ pending)
termination_by pending => ((graph.unseen seen).length, pending.length)
decreasing_by
  · exact Prod.Lex.right _ (by simp)
  · rw [unseen_cons_of_get?_eq_none _found]
    exact Prod.Lex.right _ (by simp)
  · exact Prod.Lex.left _ _ (length_unseen_cons_lt _found _fresh)

/-- Whether a class extends or implements `supertype`, directly or not. -/
def isAssignableTo (graph : ClassGraph) (descriptor : ClassDescriptor) (supertype : String) :
    Bool :=
  graph.reaches supertype [] descriptor.supertypes.reverse

def assignableTo (graph : ClassGraph) (supertype : String) : List ClassDescriptor :=
  graph.classes.filter (graph.isAssignableTo · supertype)

end ClassGraph

end ModuleBoundary
