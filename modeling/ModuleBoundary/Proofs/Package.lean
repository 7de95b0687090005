import ModuleBoundary.Package
import ModuleBoundary.Proofs.Text.Segments

/-! Packages read as their segments.

Containment is decided on the characters of two names. Read as segments, a package contains
another exactly when its segments are the first segments of the other.
-/

set_option autoImplicit false

namespace ModuleBoundary.Package

theorem below?_eq_some {package name : String} {rest : List Char} :
    below? package name = some rest ↔ name.toList = package.toList ++ '.' :: rest := by
  unfold below?
  constructor
  · intro found
    split at found
    · next selected =>
      cases found
      rw [← List.isPrefixOf?_eq_some_iff_append_eq.mp selected]
    · cases found
  · intro split
    simp only [List.isPrefixOf?_eq_some_iff_append_eq.mpr split.symm]

@[simp] theorem ofSegments_segments (package : String) : ofSegments (segments package) = package := by
  simp [ofSegments, segments]

theorem segments_inj {first second : String} : segments first = segments second ↔ first = second := by
  constructor
  · intro same
    rw [← ofSegments_segments first, same, ofSegments_segments]
  · exact congrArg segments

theorem segments_ne_nil (package : String) : segments package ≠ [] := List.splitOn_ne_nil _ _

theorem contains_iff_segments {package candidate : String} :
    contains package candidate = true ↔ segments package <+: segments candidate := by
  simp only [contains, Bool.or_eq_true, beq_iff_eq, Option.isSome_iff_exists, below?_eq_some]
  constructor
  · rintro (rfl | ⟨rest, split⟩)
    · exact List.prefix_refl _
    · unfold segments
      rw [split, List.splitOn_append_cons_self]
      exact List.prefix_append _ _
  · rintro ⟨more, split⟩
    cases more with
    | nil =>
      rw [List.append_nil] at split
      exact .inl (segments_inj.mp split.symm)
    | cons next more =>
      refine .inr ⟨['.'].intercalate (next :: more), ?_⟩
      have joined := Text.intercalate_append '.' (segments package) (List.cons_ne_nil next more)
      rw [split, Text.ended_eq (segments_ne_nil package)] at joined
      simpa [segments] using joined

theorem contains_trans {outer middle inner : String}
    (within : contains outer middle = true) (deeper : contains middle inner = true) :
    contains outer inner = true := by
  rw [contains_iff_segments] at within deeper ⊢
  exact within.trans deeper

/-- The package that a class name tells: what stands before its last dot, and nothing without one. -/
def IsToldBy (package className : String) : Prop :=
  (∃ simple, '.' ∉ simple ∧ className.toList = package.toList ++ '.' :: simple) ∨
    '.' ∉ className.toList ∧ package = ""

theorem isToldBy_ofClass (className : String) : IsToldBy (ofClass className) className := by
  obtain ⟨front, simple, pieces⟩ :=
    (List.eq_nil_or_concat' (segments className)).resolve_left (segments_ne_nil className)
  have plain : '.' ∉ simple := by
    apply Text.notMem_of_mem_splitOn
    rw [← segments, pieces]
    exact List.mem_append_right _ List.mem_cons_self
  rw [ofClass, pieces, List.dropLast_concat]
  by_cases some : front = []
  · subst some
    refine .inr ⟨?_, rfl⟩
    rwa [Text.eq_of_splitOn_eq_singleton pieces]
  · refine .inl ⟨simple, plain, ?_⟩
    obtain ⟨rest, split, last⟩ := Text.exists_of_splitOn_eq_append pieces (List.cons_ne_nil _ _)
    rw [split, Text.ended_eq some, Text.eq_of_splitOn_eq_singleton last]
    simp [ofSegments]

theorem ofClass_eq_iff {className package : String} :
    ofClass className = package ↔ IsToldBy package className := by
  constructor
  · rintro rfl
    exact isToldBy_ofClass className
  · rintro (⟨simple, plain, split⟩ | ⟨plain, rfl⟩)
    · have pieces : segments className = segments package ++ [simple] := by
        unfold segments
        rw [split, List.splitOn_append_cons_self, List.splitOn_eq_singleton plain]
      rw [ofClass, pieces, List.dropLast_concat, ofSegments_segments]
    · have pieces : segments className = [className.toList] := List.splitOn_eq_singleton plain
      rw [ofClass, pieces]
      rfl

theorem length_lt_of_contains {package candidate : String}
    (inside : contains package candidate = true) (different : package ≠ candidate) :
    package.length < candidate.length := by
  simp only [contains, Bool.or_eq_true, beq_iff_eq, Option.isSome_iff_exists, below?_eq_some] at inside
  obtain same | ⟨rest, split⟩ := inside
  · exact absurd same.symm different
  · rw [← String.length_toList, ← String.length_toList, split]
    simp

/-- A package strictly below another: one of its sub-packages, and not the package itself. -/
def isStrictlyBelow (package candidate : String) : Bool :=
  contains package candidate && candidate != package

/-- The segment that follows those of a package in a candidate below it. -/
def IsNextSegment (package : String) (segment : List Char) (candidate : String) : Prop :=
  segments package ++ [segment] <+: segments candidate

theorem IsNextSegment.isStrictlyBelow {package candidate : String} {segment : List Char}
    (next : IsNextSegment package segment candidate) : isStrictlyBelow package candidate = true := by
  have inside : contains package candidate = true :=
    contains_iff_segments.mpr ((List.prefix_append _ _).trans next)
  have different : candidate ≠ package := by
    rintro rfl
    have longer := next.length_le
    simp only [List.length_append, List.length_singleton] at longer
    omega
  simp [Package.isStrictlyBelow, inside, different]

theorem segments_of_below? {package candidate : String} {rest : List Char}
    (found : below? package candidate = some rest) :
    segments candidate = segments package ++ rest.splitOn '.' := by
  unfold segments
  rw [below?_eq_some.mp found, List.splitOn_append_cons_self]

/-- A package and one more segment make a package with that segment at its end. -/
theorem segments_append_segment {package candidate : String} {segment : List Char}
    (next : IsNextSegment package segment candidate) :
    segments (package ++ "." ++ String.ofList segment) = segments package ++ [segment] := by
  have plain : '.' ∉ segment :=
    Text.notMem_of_mem_splitOn (next.subset (List.mem_append_right _ List.mem_cons_self))
  have joined : (package ++ "." ++ String.ofList segment).toList =
      package.toList ++ '.' :: segment := by simp
  unfold segments
  rw [joined, List.splitOn_append_cons_self, List.splitOn_eq_singleton plain]

theorem isValid_iff {package : String} : isValid package = true ↔ [] ∉ segments package := by
  simp only [isValid, List.all_eq_true, Bool.not_eq_true', List.isEmpty_eq_false_iff]
  constructor
  · intro sound broken
    exact sound [] broken rfl
  · rintro sound segment member rfl
    exact sound member

/-- One more segment leaves a package well formed unless the segment is empty. -/
theorem isValid_append_segment {package candidate : String} {segment : List Char}
    (next : IsNextSegment package segment candidate) (sound : isValid package = true) :
    isValid (package ++ "." ++ String.ofList segment) = true ↔ segment ≠ [] := by
  rw [isValid_iff] at sound ⊢
  rw [segments_append_segment next, List.mem_append, List.mem_singleton]
  constructor
  · rintro outside rfl
    exact outside (.inr rfl)
  · rintro filled (inside | same)
    · exact sound inside
    · exact filled same.symm

theorem lastSegment_append_segment {package candidate : String} {segment : List Char}
    (next : IsNextSegment package segment candidate) :
    lastSegment (package ++ "." ++ String.ofList segment) = String.ofList segment := by
  rw [lastSegment, segments_append_segment next, List.getLastD_concat]

theorem segments_ofList {segment : List Char} (plain : '.' ∉ segment) :
    segments (String.ofList segment) = [segment] := by
  rw [segments, String.toList_ofList, List.splitOn_eq_singleton plain]

/-- A last segment has no dots, so it is its own last segment. -/
theorem lastSegment_lastSegment (package : String) :
    lastSegment (lastSegment package) = lastSegment package := by
  have last : (segments package).getLastD [] ∈ segments package := by
    rw [List.getLastD_eq_getLast?, List.getLast?_eq_some_getLast (segments_ne_nil package)]
    exact List.getLast_mem _
  rw [lastSegment, lastSegment, segments_ofList (Text.notMem_of_mem_splitOn last)]
  rfl

/-- Among the direct sub-packages the one with an empty segment comes first. -/
theorem append_dot_le (package : String) (segment : List Char) :
    package ++ "." ≤ package ++ "." ++ String.ofList segment := by
  have inside : (package ++ ".").toList <+: (package ++ "." ++ String.ofList segment).toList := by
    rw [String.toList_append, String.toList_append, String.toList_append]
    exact List.prefix_append _ _
  exact List.IsPrefix.le inside

theorem isSome_below? {package candidate : String} :
    (below? package candidate).isSome = isStrictlyBelow package candidate := by
  unfold isStrictlyBelow contains
  cases found : below? package candidate with
  | none => cases same : candidate == package <;> simp [same, bne]
  | some rest =>
    -- A package is not below itself: what is below it is longer.
    have longer := congrArg List.length (below?_eq_some.mp found)
    have different : candidate ≠ package := by
      rintro rfl
      simp at longer
    simp [different]

theorem isNextSegment_iff {package candidate : String} {segment : List Char} :
    IsNextSegment package segment candidate ↔
      ∃ rest, below? package candidate = some rest ∧ (rest.splitOn '.').headD [] = segment := by
  constructor
  · intro next
    have below := next.isStrictlyBelow
    rw [← isSome_below?] at below
    obtain ⟨rest, found⟩ := Option.isSome_iff_exists.mp below
    rw [IsNextSegment, segments_of_below? found, List.prefix_append_right_inj] at next
    obtain ⟨more, pieces⟩ := next
    exact ⟨rest, found, by simp [← pieces]⟩
  · rintro ⟨rest, found, rfl⟩
    rw [IsNextSegment, segments_of_below? found, List.prefix_append_right_inj]
    cases pieces : rest.splitOn '.' with
    | nil => exact absurd pieces (List.splitOn_ne_nil _ _)
    | cons first others => exact ⟨others, rfl⟩

theorem child?_eq_some {package candidate child : String} :
    child? package candidate = some child ↔
      ∃ segment, IsNextSegment package segment candidate ∧
        child = package ++ "." ++ String.ofList segment := by
  simp only [child?, Option.map_eq_some_iff, isNextSegment_iff]
  constructor
  · rintro ⟨rest, found, rfl⟩
    exact ⟨_, ⟨rest, found, rfl⟩, rfl⟩
  · rintro ⟨_, ⟨rest, found, rfl⟩, rfl⟩
    exact ⟨rest, found, rfl⟩

theorem isSome_child? {package candidate : String} :
    (child? package candidate).isSome = isStrictlyBelow package candidate := by
  rw [child?, Option.isSome_map, isSome_below?]

/-- A direct sub-package contains just the packages that are reached through it. -/
theorem contains_child_iff {package other candidate child : String}
    (found : child? package other = some child) :
    contains child candidate = true ↔ child? package candidate = some child := by
  obtain ⟨segment, next, rfl⟩ := child?_eq_some.mp found
  rw [contains_iff_segments, segments_append_segment next, child?_eq_some]
  constructor
  · intro within
    exact ⟨segment, within, rfl⟩
  · rintro ⟨otherSegment, within, same⟩
    -- The child has the segments of the package and one more, whichever class it was found by.
    unfold IsNextSegment at within
    rwa [← segments_append_segment within, ← same, segments_append_segment next] at within

end ModuleBoundary.Package
