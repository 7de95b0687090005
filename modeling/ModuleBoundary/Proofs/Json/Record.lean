import ModuleBoundary.Json.Record
import Mathlib.Data.List.Basic

/-! Records read back from the objects they are written as.

An object that holds every field of a record once, under its name, gives each field its value.
Absent values are written as `null`, which no present value is written as.
-/

set_option autoImplicit false

namespace ModuleBoundary.Json

variable {α : Type}

theorem fields?_object {names : List String} {members : List (String × Json)}
    (named : members.map (·.1) = names) (distinct : names.eraseDups.length = names.length) :
    (Json.object members).fields? names = some ⟨true, members⟩ := by
  have known : members.filter (names.contains ·.1) = members := by
    rw [List.filter_eq_self]
    intro member listed
    rw [List.contains_iff_mem, ← named]
    exact List.mem_map_of_mem listed
  have once : (members.map (·.1)).eraseDups.length = members.length := by
    rw [named, distinct, ← named, List.length_map]
  simp only [fields?, known, once, if_true]

namespace Fields

variable {fields : Fields} {name : String} {write : α → Json} {read : Json → Option α}
  {value? : Option α}

/-- Reading undoes writing, and no value is written as `null`. -/
structure Restores (write : α → Json) (read : Json → Option α) : Prop where
  reads : ∀ value, read (write value) = some value
  present : ∀ value, write value ≠ .null

theorem optional_eq (restores : Restores write read)
    (found : fields.given.lookup name = some (Json.optional write value?)) :
    fields.optional name read = some value? := by
  unfold optional
  rw [found]
  cases value? with
  | none => rfl
  | some value =>
    have written : Json.optional write (some value) = write value := rfl
    rw [written]
    split
    · next absent => exact absurd (Option.some.inj absent) (restores.present value)
    · next same =>
      cases same
      rw [restores.reads, Option.map_some]
    · next missing => cases missing

/-- A field that may be left out and one that may not differ only where it is left out. -/
theorem nullable_eq (restores : Restores write read)
    (found : fields.given.lookup name = some (Json.optional write value?)) :
    fields.nullable name read = some value? := by
  have same : fields.nullable name read = fields.optional name read := by
    unfold nullable optional
    rw [found]
    split <;> simp_all
  rw [same, optional_eq restores found]

end Fields

theorem restores_text : Fields.Restores Json.text asText? where
  reads _ := rfl
  present _ same := by cases same

theorem asListOf?_map {write : α → Json} {read : Json → Option α}
    (reads : ∀ value, read (write value) = some value) (values : List α) :
    (Json.list (values.map write)).asListOf? read = some values := by
  rw [asListOf?]
  induction values with
  | nil => rfl
  | cons value values ih => simp [reads, ih]

@[simp] theorem asTexts?_texts (values : List String) : (Json.texts values).asTexts? = some values :=
  asListOf?_map restores_text.reads values

end ModuleBoundary.Json
