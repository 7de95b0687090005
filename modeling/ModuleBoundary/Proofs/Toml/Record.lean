import Mathlib.Data.List.Forall2
import ModuleBoundary.Toml.Record

/-! What is read out of the fields of a record.

A field is found once, by its name or by its place, and what is read there is all that counts:
a record within a record is looked through, and a default steps in where there is no node.
-/

set_option autoImplicit false

namespace ModuleBoundary.Toml

/-- The node given for a field of a record, under its name or at its place. -/
def Node.field? (names : List String) (name : String) (node : Node) : Option Node :=
  (node.fields? names).bind (·.given.lookup name)

/-- A value is the one that is given, which can be read, or else a preset. -/
def IsTaken {α : Type} (preset : α) (read : Node → Option α) (node? : Option Node) (value : α) :
    Prop :=
  ∃ given, node?.mapM read = some given ∧ value = given.getD preset

variable {α β : Type} {read : Node → Option α} {node? other? : Option Node}

theorem Node.field?_eq {names : List String} {node : Node} {fields : Fields}
    (opened : node.fields? names = some fields) (name : String) :
    node.field? names name = fields.given.lookup name := by
  simp [Node.field?, opened]

theorem mapM_eq_some {given : Option α} (taken : node?.mapM read = some given) :
    (node? = none ∧ given = none) ∨
      ∃ node value, node? = some node ∧ read node = some value ∧ given = some value := by
  cases node? with
  | none => exact .inl ⟨rfl, by simpa using taken.symm⟩
  | some node =>
    obtain ⟨value, readAs, rfl⟩ : ∃ value, read node = some value ∧ some value = given := by
      simpa using taken
    exact .inr ⟨node, value, rfl, readAs, rfl⟩

theorem mapM_of_optional {fields : Fields} {name : String} {value : Option α}
    (taken : fields.optional name read = some value) :
    (fields.given.lookup name).mapM read = some value := by
  unfold Fields.optional at taken
  cases given : fields.given.lookup name with
  | none =>
    simp only [given, Option.ite_none_right_eq_some] at taken
    simpa using taken.2
  | some node => simpa [given] using taken

theorem isTaken_of_withDefault {fields : Fields} {name : String} {preset value : α}
    (taken : fields.withDefault name preset read = some value) :
    IsTaken preset read (fields.given.lookup name) value := by
  unfold Fields.withDefault at taken
  cases given : fields.given.lookup name with
  | none => exact ⟨none, rfl, by simpa [given] using taken.symm⟩
  | some node => exact ⟨some value, by simpa [given] using taken, rfl⟩

theorem isTaken_map {given : Option α} (taken : node?.mapM read = some given) (change : α → β)
    (preset : β) :
    IsTaken preset (fun node => (read node).map change) node? ((given.map change).getD preset) := by
  obtain ⟨rfl, rfl⟩ | ⟨node, value, rfl, readAs, rfl⟩ := mapM_eq_some taken
  · exact ⟨none, rfl, rfl⟩
  · exact ⟨some (change value), by simp [readAs], rfl⟩

section
variable {whole : Option α} {field? : Node → Option Node} {readPart : Node → Option β}

/-- A part of a record that is left out where the record is. -/
theorem mapM_bind {part : α → Option β} (taken : node?.mapM read = some whole)
    (within : ∀ node record, read node = some record →
      (field? node).mapM readPart = some (part record)) :
    (node?.bind field?).mapM readPart = some (whole.bind part) := by
  obtain ⟨rfl, rfl⟩ | ⟨node, record, rfl, readAs, rfl⟩ := mapM_eq_some taken
  · rfl
  · exact within node record readAs

theorem isTaken_bind {part : α → β} {preset : β} (taken : node?.mapM read = some whole)
    (within : ∀ node record, read node = some record →
      IsTaken preset readPart (field? node) (part record)) :
    IsTaken preset readPart (node?.bind field?) ((whole.map part).getD preset) := by
  obtain ⟨rfl, rfl⟩ | ⟨node, record, rfl, readAs, rfl⟩ := mapM_eq_some taken
  · exact ⟨none, rfl, rfl⟩
  · exact within node record readAs

end

theorem forall₂_of_mapM {change : α → Option β} {items : List α} {values : List β}
    (taken : items.mapM change = some values) :
    List.Forall₂ (fun item value => change item = some value) items values := by
  induction items generalizing values with
  | nil =>
    obtain rfl : values = [] := by simpa using taken.symm
    exact .nil
  | cons item rest ih =>
    rw [List.mapM_cons] at taken
    obtain ⟨value, first, taken⟩ := Option.bind_eq_some_iff.mp taken
    obtain ⟨others, restTaken, same⟩ := Option.bind_eq_some_iff.mp taken
    cases same
    exact .cons first (ih restTaken)

theorem forall₂_of_asTableOf? {node : Node} {values : List (String × α)}
    (taken : node.asTableOf? read = some values) :
    ∃ origin entries, node = .table origin entries ∧
      List.Forall₂ (fun entry value => entry.1 = value.1 ∧ read entry.2 = some value.2)
        entries values := by
  cases node with
  | table origin entries =>
    refine ⟨origin, entries, rfl, (forall₂_of_mapM taken).imp ?_⟩
    intro entry value taken
    obtain ⟨inner, readAs, rfl⟩ := Option.map_eq_some_iff.mp taken
    exact ⟨rfl, readAs⟩
  | _ => cases taken

theorem IsTaken.read_eq {preset value : α} {node : Node}
    (taken : IsTaken preset read (some node) value) : read node = some value := by
  obtain ⟨given, readAs, rfl⟩ := taken
  obtain ⟨absent, -⟩ | ⟨_, value, found, read, rfl⟩ := mapM_eq_some readAs
  · contradiction
  · cases found
    exact read

/-- What is given alike is taken alike. -/
theorem IsTaken.eq {preset value otherValue : α} (taken : IsTaken preset read node? value)
    (otherTaken : IsTaken preset read other? otherValue)
    (alike : node?.mapM read = other?.mapM read) : value = otherValue := by
  obtain ⟨given, readAs, rfl⟩ := taken
  obtain ⟨otherGiven, otherReadAs, rfl⟩ := otherTaken
  rw [alike, otherReadAs] at readAs
  cases readAs
  rfl

end ModuleBoundary.Toml
