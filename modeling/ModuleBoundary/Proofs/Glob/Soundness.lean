import ModuleBoundary.Proofs.Glob.Completeness
import ModuleBoundary.Rules

/-! Patterns match nothing but what they describe.

A star that is taken literally describes a star alone, which is one of the runs that it describes
as a wildcard. The names that the literal reading of a pattern describes are therefore among those
that the pattern describes with every star a wildcard, and no other name is matched.
-/

set_option autoImplicit false

namespace ModuleBoundary.Glob

theorem fits_of_letters {segment text : List Char} (fits : Fits (segment.map .letter) text) :
    Fits (segment.map Sign.ofChar) text := by
  have same : ∀ char ≠ '*', id char = char := fun _ _ => rfl
  rw [fits_letters_iff.mp fits]
  simpa using fits_map same (by decide) segment

theorem describes_of_literal {segments names : List (List Char)}
    (described : Describes (literalReading segments) names) :
    Describes (reading segments) names := by
  -- Double stars are read alike on both sides, single ones only differ in the segment they are in.
  induction segments generalizing names with
  | nil => exact described
  | cons segment rest ih =>
    rw [reading, List.map_cons]
    rw [literalReading] at described
    by_cases double : segment = doubleStar
    · subst double
      rw [Segment.read_doubleStar, Segment.read_doubleStar, ite_self] at described
      rw [Segment.read_doubleStar]
      by_cases final : rest = []
      · subst final
        exact described
      · obtain ⟨skipped, others, rfl, later⟩ :=
          (describes_skip_iff (literalReading_eq_nil_iff.not.mpr final)).mp described
        exact .skip skipped (List.map_eq_nil_iff.not.mpr final) (ih later)
    · rw [Segment.read_of_ne _ double]
      rw [Segment.read_of_ne _ double, Segment.read_of_ne _ double] at described
      split at described
      · obtain ⟨name, others, rfl, fits, later⟩ := describes_name_iff.mp described
        exact .name (fits_of_letters fits) (ih later)
      · obtain ⟨name, others, rfl, fits, later⟩ := describes_name_iff.mp described
        exact .name fits (ih later)

theorem describes_of_isMatch {pattern name : String} (formed : IsWellFormed (segments pattern))
    (matched : isMatch pattern name = true) :
    Describes (reading (segments pattern)) (segments name) :=
  describes_of_literal ((isMatch_iff formed).mp matched)

/-- A pattern matches only names that it describes, and among extension points, wherever it stands
there, it exempts no type other than these. -/
theorem exempts_only_described {pattern : String} (formed : IsWellFormed (segments pattern)) :
    (∀ name, isMatch pattern name = true →
      Describes (reading (segments pattern)) (segments name)) ∧
    ∀ (before after : List String) (marker : Marker) (classes : ClassGraph) (name : String),
      ¬ Describes (reading (segments pattern)) (segments name) →
        ExtensionPoints.include ⟨before ++ pattern :: after, marker⟩ classes name =
          ExtensionPoints.include ⟨before ++ after, marker⟩ classes name := by
  refine ⟨fun _ => describes_of_isMatch formed, ?_⟩
  intro before after marker classes name undescribed
  have unmatched : isMatch pattern name = false :=
    Bool.eq_false_iff.mpr fun matched => undescribed (describes_of_isMatch formed matched)
  simp only [ExtensionPoints.include, List.any_append, List.any_cons, unmatched, Bool.false_or]

/-- A double star stands for whole segments only. -/
theorem hooks_exempted_by_segment :
    IsWellFormed (segments "**.spi.*") ∧
      isMatch "**.spi.*" "com.acme.order.spi.Hook" = true ∧
      Describes (reading (segments "**.spi.*")) (segments "com.acme.order.spi.Hook") ∧
      ¬ Describes (reading (segments "**.spi.*")) (segments "com.acme.order.nospi.Hook") ∧
      ∀ classes : ClassGraph, ExtensionPoints.include ⟨["**.spi.*"], {}⟩ classes
        "com.acme.order.nospi.Hook" =
          ExtensionPoints.include ⟨[], {}⟩ classes "com.acme.order.nospi.Hook" := by
  have formed : IsWellFormed (segments "**.spi.*") := by decide +kernel
  have stars : StarsLast (segments "**.spi.*") := by decide +kernel
  have matched : isMatch "**.spi.*" "com.acme.order.spi.Hook" = true := by cbv
  have unmatched : isMatch "**.spi.*" "com.acme.order.nospi.Hook" = false := by cbv
  have undescribed :
      ¬ Describes (reading (segments "**.spi.*")) (segments "com.acme.order.nospi.Hook") := by
    rw [← reading_of_starsLast stars, ← isMatch_iff formed, unmatched]
    exact Bool.false_ne_true
  obtain ⟨described, exempted⟩ := exempts_only_described formed
  exact ⟨formed, matched, described _ matched, undescribed,
    fun classes => exempted [] [] {} classes _ undescribed⟩

end ModuleBoundary.Glob
