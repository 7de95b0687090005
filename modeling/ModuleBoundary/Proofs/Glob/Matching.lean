import ModuleBoundary.Proofs.Glob.Reading

/-! Matching finds what a pattern describes.

A pattern is cut at its first double star, and without one at its first star. Each cut is met by
one lemma, and by recursion on the segments a well-formed pattern matches exactly the names that
its literal reading describes: single stars in front of a double star stand for themselves.
-/

set_option autoImplicit false

namespace ModuleBoundary.Glob

section Cutting

variable {pattern before after segment text rest : List Char} {segments : List (List Char)}

theorem cutDouble?_eq_none (plain : ¬ doubleStar <:+: pattern) : cutDouble? pattern = none := by
  cases cut : cutDouble? pattern with
  | none => rfl
  | some parts =>
    refine absurd ⟨parts.1, parts.2, ?_⟩ plain
    simp [doubleStar, cutDouble?_eq_some cut]

theorem not_infix_of_cutDouble? (uncut : cutDouble? pattern = none) : ¬ doubleStar <:+: pattern := by
  fun_induction cutDouble? pattern with
  | case1 rest => cases uncut
  | case2 char rest other ih =>
    have within := ih (Option.map_eq_none_iff.mp uncut)
    rw [List.infix_cons_iff]
    rintro (⟨more, starred⟩ | inside)
    · obtain ⟨rfl, rfl⟩ := List.cons.inj starred
      exact other more rfl rfl
    · exact within inside
  | case3 => simp [doubleStar]

/-- Segments without a double star are no place to cut. -/
theorem cutDouble?_append_separator (plain : ¬ doubleStar <:+: segment) :
    cutDouble? (segment ++ '/' :: rest) =
      (cutDouble? rest).map fun (before, after) => (segment ++ '/' :: before, after) := by
  induction segment with
  | nil => simp [cutDouble?]
  | cons char others ih =>
    have within : ¬ doubleStar <:+: others := fun inside => plain (List.infix_cons inside)
    rw [List.cons_append, cutDouble?, ih within, Option.map_map]
    · rfl
    · rintro more rfl starred
      cases others with
      | nil => cases starred
      | cons next others =>
        obtain ⟨rfl, _⟩ := List.cons.inj starred
        exact plain (List.prefix_append doubleStar others).isInfix

theorem cutDouble?_ended_append (plain : ∀ segment ∈ segments, ¬ doubleStar <:+: segment) :
    cutDouble? (Text.ended '/' segments ++ '*' :: '*' :: rest) =
      some (Text.ended '/' segments, rest) := by
  induction segments with
  | nil => rfl
  | cons segment others ih =>
    obtain ⟨first, plain⟩ := List.forall_mem_cons.mp plain
    rw [Text.ended_cons, List.append_assoc, List.cons_append, cutDouble?_append_separator first,
      ih plain]
    rfl

theorem cutDouble?_intercalate (plain : ∀ segment ∈ segments, ¬ doubleStar <:+: segment) :
    cutDouble? (['/'].intercalate segments) = none := by
  induction segments with
  | nil => rfl
  | cons segment others ih =>
    obtain ⟨first, plain⟩ := List.forall_mem_cons.mp plain
    cases others with
    | nil => simpa using cutDouble?_eq_none first
    | cons next others =>
      rw [List.intercalate_cons_cons, List.append_assoc, List.singleton_append,
        cutDouble?_append_separator first, ih plain]
      rfl

theorem star_notMem_of_cutSingle? (cut : cutSingle? pattern = some (before, after)) :
    '*' ∉ before := by
  fun_induction cutSingle? pattern generalizing before after with
  | case1 rest => simp_all
  | case2 char rest other ih =>
    obtain ⟨⟨head, tail⟩, found, same⟩ := Option.map_eq_some_iff.mp cut
    obtain ⟨rfl, rfl⟩ := Prod.mk.inj same
    exact List.not_mem_cons_of_ne_of_not_mem (Ne.symm other) (ih found)
  | case3 => cases cut

theorem star_notMem_of_uncut (uncut : cutSingle? pattern = none) : '*' ∉ pattern := by
  fun_induction cutSingle? pattern with
  | case1 rest => cases uncut
  | case2 char rest other ih =>
    have absent := ih (Option.map_eq_none_iff.mp uncut)
    exact List.not_mem_cons_of_ne_of_not_mem (Ne.symm other) absent
  | case3 => simp

theorem mem_restsAfterSeparator_iff : rest ∈ restsAfterSeparator text ↔
    rest ≠ [] ∧ ∃ skipped, text = skipped ++ '/' :: rest := by
  induction text with
  | nil => simp [restsAfterSeparator]
  | cons char others ih =>
    have later : (∃ skipped, char :: others = skipped ++ '/' :: rest) ↔
        (char = '/' ∧ others = rest) ∨ ∃ skipped, others = skipped ++ '/' :: rest := by
      constructor
      · rintro ⟨_ | ⟨_, skipped⟩, same⟩
        · exact .inl (List.cons.inj same)
        · exact .inr ⟨skipped, (List.cons.inj same).2⟩
      · rintro (⟨rfl, rfl⟩ | ⟨skipped, rfl⟩)
        · exact ⟨[], rfl⟩
        · exact ⟨char :: skipped, rfl⟩
    rw [later, restsAfterSeparator]
    split
    · next starts =>
      rw [List.mem_cons, ih]
      constructor
      · rintro (rfl | ⟨some, found⟩)
        · exact ⟨starts.2, .inl ⟨starts.1, rfl⟩⟩
        · exact ⟨some, .inr found⟩
      · rintro ⟨some, ⟨_, rfl⟩ | found⟩
        · exact .inl rfl
        · exact .inr ⟨some, found⟩
    · next within =>
      rw [ih]
      refine and_congr_right fun some => ⟨.inr, ?_⟩
      rintro (⟨separator, rfl⟩ | found)
      · exact absurd ⟨separator, some⟩ within
      · exact found

theorem mem_restsInSegment_iff : rest ∈ restsInSegment text ↔
    ∃ part, '/' ∉ part ∧ text = part ++ rest := by
  induction text with
  | nil => simp [restsInSegment, eq_comm]
  | cons char others ih =>
    rw [restsInSegment, List.mem_cons]
    constructor
    · rintro (rfl | found)
      · exact ⟨[], by simp, rfl⟩
      · split at found
        · cases found
        · next letter =>
          obtain ⟨part, plain, rfl⟩ := ih.mp found
          exact ⟨char :: part, by simp [plain, Ne.symm letter], rfl⟩
    · rintro ⟨_ | ⟨_, part⟩, plain, same⟩
      · exact .inl same.symm
      · obtain ⟨rfl, rfl⟩ := List.cons.inj same
        rw [if_neg (List.ne_of_not_mem_cons plain).symm]
        exact .inr (ih.mpr ⟨part, List.not_mem_of_not_mem_cons plain, rfl⟩)

end Cutting

section Matching

variable {pattern before after text : List Char}

/-- Matching that goes on behind a literal start of the text. -/
theorem goesOn_iff {matching : List Char → Bool} :
    (match before.isPrefixOf? text with
      | none => false
      | some rest => matching rest) = true ↔
      ∃ rest, text = before ++ rest ∧ matching rest = true := by
  cases selected : before.isPrefixOf? text with
  | none =>
    refine iff_of_false Bool.false_ne_true ?_
    rintro ⟨rest, rfl, _⟩
    cases selected.symm.trans (List.isPrefixOf?_eq_some_iff_append_eq.mpr rfl)
  | some rest =>
    obtain rfl := List.isPrefixOf?_eq_some_iff_append_eq.mp selected
    simp

theorem matchesText_of_cutDouble? (cut : cutDouble? pattern = some (before, after)) :
    matchesText pattern text = true ↔ ∃ rest, text = before ++ rest ∧
      (dropSeparator after = [] ∨
        ∃ resumed ∈ segmentStarts rest, matchesText (dropSeparator after) resumed = true) := by
  rw [matchesText]
  split
  · next found =>
    obtain ⟨rfl, rfl⟩ := Prod.mk.inj (Option.some.inj (cut.symm.trans found))
    refine goesOn_iff.trans ?_
    simp only [Bool.or_eq_true, List.isEmpty_iff, List.any_eq_true]
  · next found => cases cut.symm.trans found

theorem matchesText_of_cutSingle? (whole : cutDouble? pattern = none)
    (cut : cutSingle? pattern = some (before, after)) :
    matchesText pattern text = true ↔ ∃ rest, text = before ++ rest ∧
      ∃ resumed ∈ restsInSegment rest, matchesText after resumed = true := by
  rw [matchesText]
  split
  · next found => cases whole.symm.trans found
  · split
    · next found =>
      obtain ⟨rfl, rfl⟩ := Prod.mk.inj (Option.some.inj (cut.symm.trans found))
      refine goesOn_iff.trans ?_
      simp only [List.any_eq_true]
    · next found => cases cut.symm.trans found

theorem matchesText_of_uncut (whole : cutDouble? pattern = none)
    (uncut : cutSingle? pattern = none) : matchesText pattern text = true ↔ pattern = text := by
  rw [matchesText]
  split
  · next found => cases whole.symm.trans found
  · split
    · next found => cases uncut.symm.trans found
    · exact beq_iff_eq

/-- Without a double star, a text matches what its signs describe. -/
theorem matchesText_iff_fits (whole : cutDouble? pattern = none) :
    matchesText pattern text = true ↔ Fits (pattern.map Sign.ofChar) text := by
  induction size : pattern.length using Nat.strong_induction_on generalizing pattern text with
  | _ length ih =>
    cases cut : cutSingle? pattern with
    | none =>
      rw [matchesText_of_uncut whole cut, map_ofChar_of_notMem (star_notMem_of_uncut cut),
        fits_letters_iff, eq_comm]
    | some parts =>
      obtain ⟨before, after⟩ := parts
      have parted := cutSingle?_eq_some cut
      have within : cutDouble? after = none :=
        cutDouble?_eq_none fun inside => not_infix_of_cutDouble? whole
          (parted ▸ inside.trans ⟨before ++ ['*'], [], by simp⟩)
      have shorter : after.length < length := by
        rw [← size, parted]
        simp
        omega
      rw [matchesText_of_cutSingle? whole cut, parted, List.map_append, List.map_cons,
        map_ofChar_of_notMem (star_notMem_of_cutSingle? cut), fits_letters_append_iff]
      refine exists_congr fun rest => and_congr_right fun _ => ?_
      rw [show Sign.ofChar '*' = .run from rfl, fits_run_iff]
      simp only [mem_restsInSegment_iff, ih _ shorter within rfl]
      constructor
      · rintro ⟨resumed, ⟨part, plain, same⟩, fits⟩
        exact ⟨part, resumed, plain, same, fits⟩
      · rintro ⟨part, resumed, plain, same, fits⟩
        exact ⟨resumed, ⟨part, plain, same⟩, fits⟩

end Matching

section Segments

variable {segments : List (List Char)} {text rest : List Char}

/-- Signs with separators between them describe a text segment by segment. -/
theorem fits_intercalate_iff (some : segments ≠ []) (plain : ∀ segment ∈ segments, '/' ∉ segment)
    (single : doubleStar ∉ segments) :
    Fits ((['/'].intercalate segments).map Sign.ofChar) text ↔
      Describes (reading segments) (text.splitOn '/') := by
  induction segments generalizing text with
  | nil => exact absurd rfl some
  | cons segment others ih =>
    obtain ⟨plainFirst, plain⟩ := List.forall_mem_cons.mp plain
    have other := List.ne_of_not_mem_cons single
    have single := List.not_mem_of_not_mem_cons single
    rw [reading, List.map_cons, Segment.read_of_ne _ other.symm, describes_name_iff]
    cases others with
    | nil =>
      rw [List.intercalate_singleton]
      constructor
      · intro fits
        have whole := List.splitOn_eq_singleton (separator_notMem_of_fits fits plainFirst)
        exact ⟨text, [], whole, fits, .nil⟩
      · rintro ⟨name, names, parted, fits, described⟩
        cases described
        rwa [Text.eq_of_splitOn_eq_singleton parted]
    | cons next others =>
      rw [List.intercalate_cons_cons, List.append_assoc, List.map_append, fits_append_iff]
      constructor
      · rintro ⟨name, _, rfl, fits, _ | ⟨_, after⟩⟩
        have separated := separator_notMem_of_fits fits plainFirst
        refine ⟨name, _, List.splitOn_append_cons_self_of_not_mem separated _, fits, ?_⟩
        exact (ih (List.cons_ne_nil _ _) plain single).mp after
      · rintro ⟨name, names, parted, fits, described⟩
        have more := names_ne_nil_of_describes described (List.cons_ne_nil _ _)
        have front : text.splitOn '/' = [name] ++ names := parted
        obtain ⟨rest, rfl, rfl⟩ := Text.exists_of_splitOn_eq_append front more
        have after := (ih (List.cons_ne_nil _ _) plain single).mpr described
        exact ⟨name, '/' :: rest, by simp [Text.ended], fits, .letter '/' after⟩

/-- Matching resumes where a segment starts, or with nothing left. -/
theorem mem_segmentStarts_iff : rest ∈ segmentStarts text ↔
    rest = [] ∨ ∃ skipped, text.splitOn '/' = skipped ++ rest.splitOn '/' := by
  rw [segmentStarts, List.mem_append, List.mem_cons, List.mem_singleton, mem_restsAfterSeparator_iff]
  constructor
  · rintro ((rfl | ⟨_, skipped, rfl⟩) | rfl)
    · exact .inr ⟨[], rfl⟩
    · exact .inr ⟨_, List.splitOn_append_cons_self _ _⟩
    · exact .inl rfl
  · rintro (rfl | ⟨skipped, parted⟩)
    · exact .inr rfl
    · obtain ⟨other, rfl, same⟩ :=
        Text.exists_of_splitOn_eq_append parted (List.splitOn_ne_nil _ _)
      obtain rfl := Text.splitOn_inj same
      by_cases finished : other = []
      · exact .inr finished
      · refine .inl ?_
        cases skipped with
        | nil => exact .inl rfl
        | cons first others =>
          refine .inr ⟨finished, ['/'].intercalate (first :: others), ?_⟩
          rw [Text.ended_eq (List.cons_ne_nil _ _), List.append_assoc, List.singleton_append]

/-- The names behind a double star are found by resuming at each segment. -/
theorem describes_skip_splitOn_iff {pattern : List Segment} (more : pattern ≠ [])
    (filled : Segment.name [] ∉ pattern) :
    Describes (.names :: pattern) (text.splitOn '/') ↔
      ∃ resumed ∈ segmentStarts text, Describes pattern (resumed.splitOn '/') := by
  rw [describes_skip_iff more]
  simp only [mem_segmentStarts_iff]
  constructor
  · rintro ⟨skipped, others, parted, described⟩
    have some := names_ne_nil_of_describes described more
    obtain ⟨rest, _, rfl⟩ := Text.exists_of_splitOn_eq_append parted some
    exact ⟨rest, .inr ⟨skipped, parted⟩, described⟩
  · rintro ⟨resumed, rfl | ⟨skipped, parted⟩, described⟩
    · -- With nothing left, the last name is one of those that the pattern describes.
      obtain ⟨skipped, last, parted⟩ := List.eq_nil_or_concat' (text.splitOn '/') |>.resolve_left
        (List.splitOn_ne_nil _ _)
      have member : last ∈ text.splitOn '/' := by simp [parted]
      have plain := Text.notMem_of_mem_splitOn member
      refine ⟨skipped, [last], parted, ?_⟩
      exact describes_singleton_of_empty (by simpa using described) filled plain
    · exact ⟨skipped, _, parted, described⟩

/-- What stands behind a double star is matched without the separator in front of it. -/
theorem exists_cutDouble?_intercalate {front : List (List Char)} (back : List (List Char))
    (plain : ∀ segment ∈ front, ¬ doubleStar <:+: segment) :
    ∃ after, cutDouble? (['/'].intercalate (front ++ doubleStar :: back)) =
        some (Text.ended '/' front, after) ∧
      dropSeparator after = ['/'].intercalate back := by
  rw [Text.intercalate_append '/' front (List.cons_ne_nil _ _)]
  cases back with
  | nil => exact ⟨[], cutDouble?_ended_append plain, rfl⟩
  | cons next back =>
    refine ⟨'/' :: ['/'].intercalate (next :: back), ?_, rfl⟩
    rw [List.intercalate_cons_cons]
    exact cutDouble?_ended_append plain

/-- Literal segments in front of a pattern describe what stands in front of the text. -/
theorem describes_front_iff {front : List (List Char)} {pattern : List Segment}
    (plain : ∀ segment ∈ front, '/' ∉ segment) (single : doubleStar ∉ front) (some : pattern ≠ []) :
    Describes (front.map (Segment.read .letter) ++ pattern) (text.splitOn '/') ↔
      ∃ rest, text = Text.ended '/' front ++ rest ∧ Describes pattern (rest.splitOn '/') := by
  rw [describes_literal_append_iff single]
  constructor
  · rintro ⟨others, parted, described⟩
    obtain ⟨rest, split, rfl⟩ :=
      Text.exists_of_splitOn_eq_append parted (names_ne_nil_of_describes described some)
    exact ⟨rest, split, described⟩
  · rintro ⟨rest, rfl, described⟩
    exact ⟨_, Text.splitOn_ended_append plain rest, described⟩

theorem IsWellFormed.not_infix (formed : IsWellFormed segments) (single : doubleStar ∉ segments) :
    ∀ segment ∈ segments, ¬ doubleStar <:+: segment := fun segment member inside =>
  single ((formed segment member).2 inside ▸ member)

theorem IsWellFormed.intercalate_ne_nil (formed : IsWellFormed segments)
    (plain : ∀ segment ∈ segments, '/' ∉ segment) (some : segments ≠ []) :
    ['/'].intercalate segments ≠ [] := by
  intro empty
  have parted := List.splitOn_intercalate '/' plain some
  rw [empty, List.splitOn_nil] at parted
  exact (formed [] (parted ▸ List.mem_singleton_self _)).1 rfl

/-- A pattern matches the texts whose names its literal reading describes. -/
theorem matchesText_intercalate_iff (some : segments ≠ [])
    (formed : IsWellFormed segments)
    (plain : ∀ segment ∈ segments, '/' ∉ segment) :
    matchesText (['/'].intercalate segments) text = true ↔
      Describes (literalReading segments) (text.splitOn '/') := by
  -- The segments behind the first double star are fewer: matching resumes with them.
  induction size : segments.length using Nat.strong_induction_on generalizing segments text with
  | _ length ih =>
    by_cases double : doubleStar ∈ segments
    · obtain ⟨front, back, rfl, single⟩ := List.eq_append_cons_of_mem double
      obtain ⟨formedFront, formedBack⟩ := List.forall_mem_append.mp formed
      obtain ⟨plainFront, plainBack⟩ := List.forall_mem_append.mp plain
      have formedBack := (List.forall_mem_cons.mp formedBack).2
      have plainBack := (List.forall_mem_cons.mp plainBack).2
      obtain ⟨after, cut, dropped⟩ :=
        exists_cutDouble?_intercalate back (IsWellFormed.not_infix formedFront single)
      rw [matchesText_of_cutDouble? cut, dropped, literalReading_append,
        describes_front_iff plainFront single (List.cons_ne_nil _ _)]
      refine exists_congr fun rest => and_congr_right fun _ => ?_
      by_cases final : back = []
      · subst final
        exact iff_of_true (.inl rfl) (.last (List.splitOn_ne_nil _ _))
      · have filled := IsWellFormed.intercalate_ne_nil formedBack plainBack final
        have shorter : back.length < length := by
          rw [← size, List.length_append, List.length_cons]
          omega
        rw [or_iff_right filled, describes_skip_splitOn_iff (literalReading_eq_nil_iff.not.mpr final)
          (name_nil_notMem_literalReading fun segment member => (formedBack segment member).1)]
        simp only [ih _ shorter final formedBack plainBack rfl]
    · have whole := cutDouble?_intercalate (formed.not_infix double)
      rw [matchesText_iff_fits whole, literalReading_of_single double,
        fits_intercalate_iff some plain double]

end Segments

theorem segments_ne_nil (text : String) : segments text ≠ [] :=
  List.splitOn_ne_nil _ _

/-- A pattern matches the names that its literal reading describes. -/
theorem isMatch_iff {pattern name : String} (formed : IsWellFormed (segments pattern)) :
    isMatch pattern name = true ↔ Describes (literalReading (segments pattern)) (segments name) := by
  have joined : ['/'].intercalate (segments pattern) = slashed pattern := List.intercalate_splitOn _
  rw [isMatch, ← joined, matchesText_intercalate_iff (segments_ne_nil pattern) formed
    fun segment member => Text.notMem_of_mem_splitOn member]
  rfl

end ModuleBoundary.Glob
