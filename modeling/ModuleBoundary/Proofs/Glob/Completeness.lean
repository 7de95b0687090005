import ModuleBoundary.Proofs.Glob.Matching

/-! Which patterns match every name they describe.

Read with every star a wildcard, a pattern describes the name that it becomes when its stars are
filled in by a letter. That name has no star, so a single star that is taken literally misses it,
and a pattern is complete exactly when it has no single star in front of a double star.
-/

set_option autoImplicit false

namespace ModuleBoundary.Glob

/-- A star filled in by a letter. -/
def filledIn (char : Char) : Char :=
  if char = '*' then 'x' else char

theorem fits_filledIn (segment : List Char) :
    Fits (segment.map Sign.ofChar) (segment.map filledIn) :=
  fits_map (fun _ other => if_neg other) (by decide) segment

theorem describes_filledIn (segments : List (List Char)) :
    Describes (reading segments) (segments.map (·.map filledIn)) := by
  induction segments with
  | nil => exact .nil
  | cons segment rest ih =>
    by_cases double : segment = doubleStar
    · subst double
      rw [reading, List.map_cons, Segment.read_doubleStar]
      cases rest with
      | nil => exact .last (List.cons_ne_nil _ _)
      | cons next rest => exact .skip [_] (List.cons_ne_nil _ _) ih
    · rw [reading, List.map_cons, Segment.read_of_ne _ double]
      exact .name (fits_filledIn segment) ih

theorem segments_filledIn (pattern : String) :
    segments (String.ofList ((slashed pattern).map filledIn)) =
      (segments pattern).map (·.map filledIn) := by
  have slashes : slashed (String.ofList ((slashed pattern).map filledIn)) =
      (slashed pattern).map filledIn := by
    simp only [slashed, String.toList_ofList, List.map_map]
    refine List.map_congr_left fun char _ => ?_
    simp only [Function.comp_apply, filledIn]
    split <;> split <;> simp_all
  rw [segments, slashes, Text.splitOn_map]
  · rfl
  · intro char
    unfold filledIn
    split <;> simp_all

theorem star_notMem_map_filledIn (segment : List Char) : '*' ∉ segment.map filledIn := by
  intro member
  obtain ⟨char, _, star⟩ := List.mem_map.mp member
  unfold filledIn at star
  split at star
  · exact absurd star (by decide)
  · contradiction

theorem reading_of_starsLast {segments : List (List Char)} (stars : StarsLast segments) :
    literalReading segments = reading segments := by
  induction segments with
  | nil => rfl
  | cons segment rest ih =>
    obtain ⟨first, stars⟩ := List.pairwise_cons.mp stars
    rw [literalReading, ih stars]
    split
    · next double =>
      rw [Segment.read_letter (first _ double rfl)]
      rfl
    · rfl

/-- Only a star can stand for a star that is taken literally. -/
theorem starsLast_of_describes {segments names : List (List Char)}
    (described : Describes (literalReading segments) names) (plain : ∀ name ∈ names, '*' ∉ name) :
    StarsLast segments := by
  induction segments generalizing names with
  | nil => exact .nil
  | cons segment rest ih =>
    rw [literalReading] at described
    refine .cons (fun later member double => or_iff_not_imp_left.mpr fun other => ?_) ?_
    · subst double
      -- With a double star behind it, the segment describes itself alone.
      rw [if_pos member, Segment.read_of_ne _ other, describes_name_iff] at described
      obtain ⟨name, others, rfl, fits, _⟩ := described
      rw [← fits_letters_iff.mp fits]
      exact plain name List.mem_cons_self
    · by_cases final : rest = []
      · exact final ▸ .nil
      · obtain ⟨others, last, described⟩ :=
          exists_suffix_of_describes_cons described (literalReading_eq_nil_iff.not.mpr final)
        exact ih described fun name member => plain name (last.subset member)

/-- A pattern matches every name it describes exactly when no single star in it stands in front of
a double star. -/
theorem complete_iff_starsLast {pattern : String} (formed : IsWellFormed (segments pattern)) :
    (∀ name, Describes (reading (segments pattern)) (segments name) → isMatch pattern name = true) ↔
      StarsLast (segments pattern) := by
  constructor
  · intro complete
    have described := complete (String.ofList ((slashed pattern).map filledIn))
    rw [isMatch_iff formed, segments_filledIn] at described
    refine starsLast_of_describes (described (describes_filledIn _)) fun name member => ?_
    obtain ⟨segment, _, rfl⟩ := List.mem_map.mp member
    exact star_notMem_map_filledIn segment
  · intro stars name described
    rwa [isMatch_iff formed, reading_of_starsLast stars]

/-- A double star in front of single stars leaves them wildcards. -/
theorem complete_of_double_first :
    IsWellFormed (segments "**.spi.*Hook") ∧ StarsLast (segments "**.spi.*Hook") ∧
      ∀ name, Describes (reading (segments "**.spi.*Hook")) (segments name) →
        isMatch "**.spi.*Hook" name = true := by
  have formed : IsWellFormed (segments "**.spi.*Hook") := by decide +kernel
  have stars : StarsLast (segments "**.spi.*Hook") := by decide +kernel
  exact ⟨formed, stars, (complete_iff_starsLast formed).mpr stars⟩

/-- A single star in front of a double star is no wildcard. -/
theorem described_unmatched :
    IsWellFormed (segments "com.*.spi.**") ∧
      Describes (reading (segments "com.*.spi.**")) (segments "com.acme.spi.Hook") ∧
      isMatch "com.*.spi.**" "com.acme.spi.Hook" = false := by
  have formed : IsWellFormed (segments "com.*.spi.**") := by decide +kernel
  have signs : reading (segments "com.*.spi.**") =
      [.name ("com".toList.map .letter), .name [.run], .name ("spi".toList.map .letter), .names] := by
    decide +kernel
  have names : segments "com.acme.spi.Hook" =
      ["com".toList, "acme".toList ++ [], "spi".toList, "Hook".toList] := by
    decide +kernel
  refine ⟨formed, ?_, ?_⟩
  · rw [signs, names]
    refine .name (fits_letters_iff.mpr rfl) (.name (.run _ ?_ .nil) (.name (fits_letters_iff.mpr rfl) ?_))
    · decide +kernel
    · exact .last (List.cons_ne_nil _ _)
  · have cut : cutDouble? (slashed "com.*.spi.**") = some ("com/*/spi/".toList, []) := by
      decide +kernel
    have apart : ¬ "com/*/spi/".toList <+: slashed "com.acme.spi.Hook" := by decide +kernel
    refine Bool.eq_false_iff.mpr fun found => ?_
    obtain ⟨rest, same, _⟩ := (matchesText_of_cutDouble? cut).mp found
    exact apart ⟨rest, same.symm⟩

end ModuleBoundary.Glob
