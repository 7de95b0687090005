import Mathlib.Order.Preorder.Chain
import ModuleBoundary.Proofs.Package

/-! Packages around and below each other.

Containment is decided on the characters of two names, and yet it is the order of their segments by
prefixes. So the packages around a class lie around each other, and among those that are bases of
modules there is an innermost one.
-/

set_option autoImplicit false

namespace ModuleBoundary.Package

/-- How a name is cut at its dots: into at least one piece, none of them with a dot in it, that make
the name again when they are put together with a dot between any two. -/
structure IsCutInto (package : String) (pieces : List (List Char)) : Prop where
  nonempty : pieces ≠ []
  plain : ∀ piece ∈ pieces, '.' ∉ piece
  joined : ['.'].intercalate pieces = package.toList

theorem segments_eq_iff {package : String} {pieces : List (List Char)} :
    segments package = pieces ↔ IsCutInto package pieces := by
  constructor
  · rintro rfl
    exact ⟨segments_ne_nil package, fun _ => Text.notMem_of_mem_splitOn, List.intercalate_splitOn _⟩
  · rintro ⟨nonempty, plain, joined⟩
    rw [segments, ← joined]
    exact List.splitOn_intercalate '.' plain nonempty

theorem contains_self (package : String) : contains package package = true := by
  simp [contains]

theorem contains_antisymm {first second : String} (below : contains first second = true)
    (around : contains second first = true) : first = second := by
  rw [contains_iff_segments] at below around
  exact segments_inj.mp (below.eq_of_length_le around.length_le)

/-- Of two packages around a third one, one is around the other. -/
theorem contains_or_contains {first second candidate : String}
    (within : contains first candidate = true) (withinToo : contains second candidate = true) :
    contains second first = true ∨ contains first second = true := by
  rw [contains_iff_segments] at within withinToo
  simp only [contains_iff_segments]
  exact List.prefix_or_prefix_of_prefix withinToo within

/-- What is in a package, with every package in itself. -/
instance : IsPartialOrder String (fun candidate package => contains package candidate = true) where
  refl := contains_self
  trans _ _ _ within around := contains_trans around within
  antisymm _ _ within around := contains_antisymm around within

theorem isChain_around (candidate : String) :
    IsChain (fun inner outer => contains outer inner = true)
      {package | contains package candidate = true} := by
  intro first within second withinToo _
  exact contains_or_contains within withinToo

/-- The dots of a well-formed name stand apart from each other and from both of its ends. -/
theorem isValid_iff_dots {package : String} :
    isValid package = true ↔ package ≠ "" ∧ ¬ ['.'] <+: package.toList ∧
      ¬ ['.'] <:+ package.toList ∧ ¬ ['.', '.'] <:+: package.toList := by
  rw [isValid_iff, segments, Text.nil_mem_splitOn_iff, String.toList_eq_nil_iff]
  tauto

/-- Containment of any two names is the order of their segments by prefixes, whatever dots they
have, and so the packages around one of them form a chain. A name is well formed where none of its
segments is empty. -/
theorem contains_orders_by_segments :
    (∀ package candidate, contains package candidate = true ↔
      segments package <+: segments candidate) ∧
    (∀ package pieces, segments package = pieces ↔ IsCutInto package pieces) ∧
    IsPartialOrder String (fun candidate package => contains package candidate = true) ∧
    (∀ candidate, IsChain (fun inner outer => contains outer inner = true)
      {package | contains package candidate = true}) ∧
    ∀ package, (isValid package = true ↔ [] ∉ segments package) ∧
      (isValid package = true ↔ package ≠ "" ∧ ¬ ['.'] <+: package.toList ∧
        ¬ ['.'] <:+ package.toList ∧ ¬ ['.', '.'] <:+: package.toList) := by
  refine ⟨?_, ?_, inferInstance, isChain_around, ?_⟩
  · intro package candidate
    exact contains_iff_segments
  · intro package pieces
    exact segments_eq_iff
  · intro package
    exact ⟨isValid_iff, isValid_iff_dots⟩

end ModuleBoundary.Package
