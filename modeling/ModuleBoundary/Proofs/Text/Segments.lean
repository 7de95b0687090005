import Mathlib.Data.List.Basic

/-! Texts as segments with a separator between them. -/

set_option autoImplicit false

namespace ModuleBoundary.Text

variable {separator : Char} {pieces more : List (List Char)} {text : List Char}

theorem notMem_of_mem_splitOn {piece : List Char} (member : piece ∈ text.splitOn separator) :
    separator ∉ piece := by
  induction text generalizing piece with
  | nil =>
    rw [List.splitOn_nil, List.mem_singleton] at member
    simp [member]
  | cons char rest ih =>
    rw [List.splitOn_cons_eq_if_modifyHead] at member
    split at member
    · rcases List.mem_cons.mp member with rfl | member
      · simp
      · exact ih member
    · next plain =>
      -- The character joins the first piece of the rest, and the others stay.
      cases pieces : rest.splitOn separator with
      | nil => exact absurd pieces (List.splitOn_ne_nil _ _)
      | cons first others =>
        rw [pieces] at member ih
        rcases List.mem_cons.mp member with rfl | member
        · intro separated
          rcases List.mem_cons.mp separated with rfl | separated
          · exact plain (beq_self_eq_true _)
          · exact ih List.mem_cons_self separated
        · exact ih (List.mem_cons_of_mem _ member)

theorem splitOn_inj {other : List Char} (same : text.splitOn separator = other.splitOn separator) :
    text = other := by
  have joined : [separator].intercalate (text.splitOn separator) = text := List.intercalate_splitOn _
  rw [← joined, same, List.intercalate_splitOn]

theorem eq_of_splitOn_eq_singleton {piece : List Char} (whole : text.splitOn separator = [piece]) :
    text = piece := by
  have joined : [separator].intercalate (text.splitOn separator) = text := List.intercalate_splitOn _
  rw [← joined, whole, List.intercalate_singleton]

/-- A change of characters that leaves the separators alone changes each piece by itself. -/
theorem splitOn_map {change : Char → Char} (keeps : ∀ char, change char = separator ↔ char = separator)
    (text : List Char) :
    (text.map change).splitOn separator = (text.splitOn separator).map (·.map change) := by
  induction text with
  | nil => simp
  | cons char rest ih =>
    rw [List.map_cons, List.splitOn_cons_eq_if_modifyHead, List.splitOn_cons_eq_if_modifyHead, ih]
    simp only [beq_iff_eq, keeps]
    split
    · rfl
    · cases rest.splitOn separator <;> rfl

/-- Segments with a separator after each of them. -/
def ended (separator : Char) (pieces : List (List Char)) : List Char :=
  pieces.flatMap (· ++ [separator])

theorem ended_cons (piece : List Char) (pieces : List (List Char)) :
    ended separator (piece :: pieces) = piece ++ separator :: ended separator pieces := by
  simp [ended]

theorem ended_eq (some : pieces ≠ []) :
    ended separator pieces = [separator].intercalate pieces ++ [separator] := by
  induction pieces with
  | nil => exact absurd rfl some
  | cons first rest ih =>
    cases rest with
    | nil => simp [ended]
    | cons second rest =>
      rw [ended_cons, ih (by simp), List.intercalate_cons_cons]
      simp

theorem intercalate_append (separator : Char) (pieces : List (List Char)) (others : more ≠ []) :
    [separator].intercalate (pieces ++ more) =
      ended separator pieces ++ [separator].intercalate more := by
  induction pieces with
  | nil => rfl
  | cons first rest ih =>
    rw [List.cons_append, List.intercalate_cons_of_ne_nil (by simp [others]), ih, ended_cons]
    simp

theorem splitOn_ended_append (plain : ∀ piece ∈ pieces, separator ∉ piece) (rest : List Char) :
    (ended separator pieces ++ rest).splitOn separator = pieces ++ rest.splitOn separator := by
  induction pieces with
  | nil => rfl
  | cons first others ih =>
    obtain ⟨plainFirst, plain⟩ := List.forall_mem_cons.mp plain
    rw [ended_cons, List.append_assoc, List.cons_append,
      List.splitOn_append_cons_self_of_not_mem plainFirst, ih plain, List.cons_append]

/-- A text can be cut where some of its segments end and others begin. -/
theorem exists_of_splitOn_eq_append (parted : text.splitOn separator = pieces ++ more)
    (others : more ≠ []) :
    ∃ rest, text = ended separator pieces ++ rest ∧ rest.splitOn separator = more := by
  refine ⟨[separator].intercalate more, ?_, ?_⟩
  · rw [← intercalate_append separator pieces others, ← parted, List.intercalate_splitOn]
  · refine List.splitOn_intercalate separator (fun piece member => ?_) others
    exact notMem_of_mem_splitOn (parted ▸ List.mem_append_right pieces member)

theorem splitOn_cons_separator (separator : Char) (text : List Char) :
    (separator :: text).splitOn separator = [] :: text.splitOn separator := by
  rw [List.splitOn_cons_eq_if_modifyHead, if_pos (beq_self_eq_true _)]

/-- A segment is empty where a separator has another one or an end of the text beside it. -/
theorem nil_mem_splitOn_iff :
    [] ∈ text.splitOn separator ↔
      text = [] ∨ [separator] <+: text ∨ [separator] <:+ text ∨ [separator, separator] <:+: text := by
  constructor
  · intro member
    obtain ⟨front, back, pieces⟩ := List.append_of_mem member
    obtain ⟨rest, rfl, after⟩ := exists_of_splitOn_eq_append pieces (List.cons_ne_nil _ _)
    -- The segment has an end of the text or a separator on its right, and likewise on its left.
    cases back with
    | nil =>
      rw [eq_of_splitOn_eq_singleton after, List.append_nil]
      by_cases leading : front = []
      · exact .inl (by simp [leading, ended])
      · refine .inr (.inr (.inl ?_))
        rw [ended_eq leading]
        exact List.suffix_append _ _
    | cons next back =>
      have parted : rest.splitOn separator = [[]] ++ next :: back := after
      obtain ⟨more, rfl, -⟩ := exists_of_splitOn_eq_append parted (List.cons_ne_nil _ _)
      by_cases leading : front = []
      · exact .inr (.inl ⟨more, by simp [leading, ended]⟩)
      · refine .inr (.inr (.inr ⟨[separator].intercalate front, more, ?_⟩))
        rw [ended_eq leading]
        simp [ended]
  · rintro (rfl | ⟨rest, rfl⟩ | ⟨front, rfl⟩ | ⟨front, back, rfl⟩)
    · simp
    · rw [List.singleton_append, splitOn_cons_separator]
      exact List.mem_cons_self
    · rw [List.splitOn_append_cons_self]
      simp
    · rw [List.append_assoc, List.cons_append, List.splitOn_append_cons_self, List.singleton_append,
        splitOn_cons_separator]
      simp

end ModuleBoundary.Text
