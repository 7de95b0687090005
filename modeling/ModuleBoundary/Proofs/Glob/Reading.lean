import Mathlib.Data.List.Forall2
import Mathlib.Data.List.Infix
import ModuleBoundary.Glob
import ModuleBoundary.Proofs.Text.Segments

/-! What a pattern describes.

Pattern and name are read as segments. A double star stands for any number of whole names, but for
at least one where it ends the pattern; every other segment describes one name, sign by sign. A
pattern can be read with every single star standing for a run of characters, or with those that
a double star follows standing for themselves.
-/

set_option autoImplicit false

namespace ModuleBoundary.Glob

/-- A letter of a segment stands for itself, a star for a run of characters. -/
inductive Sign where
  | letter (char : Char)
  | run
  deriving DecidableEq

def Sign.ofChar (char : Char) : Sign :=
  if char = '*' then .run else .letter char

inductive Segment where
  | names
  | name (signs : List Sign)
  deriving DecidableEq

/-- A text that the signs describe in order. No run crosses a separator. -/
inductive Fits : List Sign → List Char → Prop where
  | nil : Fits [] []
  | letter {signs : List Sign} {rest : List Char} (char : Char) :
      Fits signs rest → Fits (.letter char :: signs) (char :: rest)
  | run {signs : List Sign} {rest : List Char} (part : List Char) :
      '/' ∉ part → Fits signs rest → Fits (.run :: signs) (part ++ rest)

/-- Names that the segments of a pattern describe in order. -/
inductive Describes : List Segment → List (List Char) → Prop where
  | nil : Describes [] []
  | name {signs : List Sign} {name : List Char} {pattern : List Segment} {names : List (List Char)} :
      Fits signs name → Describes pattern names → Describes (.name signs :: pattern) (name :: names)
  | skip {pattern : List Segment} {names : List (List Char)} (skipped : List (List Char)) :
      pattern ≠ [] → Describes pattern names → Describes (.names :: pattern) (skipped ++ names)
  | last {names : List (List Char)} : names ≠ [] → Describes [.names] names

def doubleStar : List Char := ['*', '*']

/-- The segments of a name or pattern, parted by dots and slashes alike. -/
def segments (text : String) : List (List Char) :=
  (slashed text).splitOn '/'

def Segment.read (sign : Char → Sign) (segment : List Char) : Segment :=
  if segment = doubleStar then .names else .name (segment.map sign)

/-- The pattern as its segments say it: a star is a wildcard wherever it stands. -/
def reading (pattern : List (List Char)) : List Segment :=
  pattern.map (Segment.read Sign.ofChar)

/-- The pattern with the single stars in front of a double star taken literally. -/
def literalReading : List (List Char) → List Segment
  | [] => []
  | segment :: rest =>
    (if doubleStar ∈ rest then Segment.read Sign.letter segment
      else Segment.read Sign.ofChar segment) :: literalReading rest

/-- A segment with a double star in it is that double star. -/
def IsSegment (segment : List Char) : Prop :=
  segment ≠ [] ∧ (doubleStar <:+: segment → segment = doubleStar)

instance : DecidablePred IsSegment := fun segment =>
  inferInstanceAs (Decidable (segment ≠ [] ∧ (doubleStar <:+: segment → segment = doubleStar)))

def IsWellFormed (pattern : List (List Char)) : Prop :=
  ∀ segment ∈ pattern, IsSegment segment

instance : DecidablePred IsWellFormed := fun pattern =>
  inferInstanceAs (Decidable (∀ segment ∈ pattern, IsSegment segment))

/-- No single star stands in front of a double star. -/
def StarsLast (pattern : List (List Char)) : Prop :=
  pattern.Pairwise fun earlier later => later = doubleStar → earlier = doubleStar ∨ '*' ∉ earlier

instance : DecidablePred StarsLast := fun pattern =>
  inferInstanceAs (Decidable (pattern.Pairwise fun earlier later =>
    later = doubleStar → earlier = doubleStar ∨ '*' ∉ earlier))

section Fits

variable {signs more : List Sign} {segment text name : List Char}

theorem fits_nil_iff : Fits [] text ↔ text = [] := by
  constructor
  · intro fits
    cases fits
    rfl
  · rintro rfl
    exact .nil

theorem fits_run_iff : Fits (.run :: signs) text ↔
    ∃ part rest, '/' ∉ part ∧ text = part ++ rest ∧ Fits signs rest := by
  constructor
  · rintro (_ | _ | ⟨part, plain, fits⟩)
    exact ⟨part, _, plain, rfl, fits⟩
  · rintro ⟨part, rest, plain, rfl, fits⟩
    exact .run part plain fits

/-- Letters in front of the signs are a text in front of what the signs describe. -/
theorem fits_letters_append_iff :
    Fits (segment.map .letter ++ signs) text ↔ ∃ rest, text = segment ++ rest ∧ Fits signs rest := by
  induction segment generalizing text with
  | nil => simp
  | cons char others ih =>
    constructor
    · rintro (_ | ⟨_, fits⟩)
      obtain ⟨rest, rfl, after⟩ := ih.mp fits
      exact ⟨rest, rfl, after⟩
    · rintro ⟨rest, rfl, fits⟩
      exact .letter char (ih.mpr ⟨rest, rfl, fits⟩)

theorem fits_letters_iff : Fits (segment.map .letter) text ↔ text = segment := by
  have described : Fits (segment.map .letter ++ []) text ↔ _ := fits_letters_append_iff
  simpa [fits_nil_iff] using described

theorem fits_append_iff : Fits (signs ++ more) text ↔
    ∃ before after, text = before ++ after ∧ Fits signs before ∧ Fits more after := by
  constructor
  · intro fits
    induction signs generalizing text with
    | nil => exact ⟨[], text, rfl, .nil, fits⟩
    | cons sign signs ih =>
      cases fits with
      | letter char fits =>
        obtain ⟨before, after, rfl, front, back⟩ := ih fits
        exact ⟨char :: before, after, rfl, .letter char front, back⟩
      | run part plain fits =>
        obtain ⟨before, after, rfl, front, back⟩ := ih fits
        exact ⟨part ++ before, after, by simp, .run part plain front, back⟩
  · rintro ⟨before, after, rfl, front, back⟩
    induction front with
    | nil => exact back
    | letter char _ ih => exact .letter char ih
    | run part plain _ ih =>
      rw [List.append_assoc]
      exact .run part plain ih

theorem Sign.ofChar_eq_letter {char : Char} (plain : char ≠ '*') : Sign.ofChar char = .letter char :=
  if_neg plain

theorem map_ofChar_of_notMem (plain : '*' ∉ segment) : segment.map Sign.ofChar = segment.map .letter :=
  List.map_congr_left fun _ member =>
    Sign.ofChar_eq_letter fun star => plain (star ▸ member)

theorem separator_notMem_of_fits (fits : Fits (segment.map Sign.ofChar) name)
    (plain : '/' ∉ segment) : '/' ∉ name := by
  induction segment generalizing name with
  | nil => simp [fits_nil_iff.mp fits]
  | cons char rest ih =>
    have others := List.not_mem_of_not_mem_cons plain
    by_cases star : char = '*'
    · subst star
      obtain ⟨part, back, within, rfl, after⟩ := fits_run_iff.mp fits
      exact List.not_mem_append within (ih after others)
    · rw [List.map_cons, Sign.ofChar_eq_letter star] at fits
      obtain _ | ⟨_, fits⟩ := fits
      exact List.not_mem_cons_of_ne_of_not_mem (List.ne_of_not_mem_cons plain) (ih fits others)

/-- A star may stand for any one character of a segment, and other characters stand for
themselves. -/
theorem fits_map {filled : Char → Char} (same : ∀ char ≠ '*', filled char = char)
    (plain : filled '*' ≠ '/') (segment : List Char) :
    Fits (segment.map Sign.ofChar) (segment.map filled) := by
  induction segment with
  | nil => exact .nil
  | cons char rest ih =>
    rw [List.map_cons, List.map_cons]
    by_cases star : char = '*'
    · subst star
      exact .run [filled '*'] (by simpa using plain.symm) ih
    · rw [Sign.ofChar_eq_letter star, same char star]
      exact .letter char ih

/-- What describes an empty name is runs only, and they describe any name. -/
theorem fits_of_fits_nil (fits : Fits signs []) (some : signs ≠ []) (plain : '/' ∉ name) :
    Fits signs name := by
  generalize empty : ([] : List Char) = described at fits
  cases fits with
  | nil => exact absurd rfl some
  | letter char fits => cases empty
  | run part _ fits =>
    obtain ⟨rfl, rfl⟩ := List.append_eq_nil_iff.mp empty.symm
    simpa using Fits.run name plain fits

end Fits

section Describes

variable {pattern : List Segment} {names : List (List Char)} {segments : List (List Char)}

theorem Segment.read_doubleStar (sign : Char → Sign) : Segment.read sign doubleStar = .names :=
  if_pos rfl

theorem Segment.read_of_ne (sign : Char → Sign) {segment : List Char} (other : segment ≠ doubleStar) :
    Segment.read sign segment = .name (segment.map sign) :=
  if_neg other

theorem Segment.read_letter {segment : List Char} (plain : segment = doubleStar ∨ '*' ∉ segment) :
    Segment.read .letter segment = Segment.read Sign.ofChar segment := by
  unfold Segment.read
  split
  · rfl
  · next other => rw [map_ofChar_of_notMem (plain.resolve_left other)]

theorem Segment.read_ne_name_nil (sign : Char → Sign) {segment : List Char} (some : segment ≠ []) :
    Segment.read sign segment ≠ .name [] := by
  unfold Segment.read
  split <;> simp [some]

theorem describes_name_iff {signs : List Sign} : Describes (.name signs :: pattern) names ↔
    ∃ name others, names = name :: others ∧ Fits signs name ∧ Describes pattern others := by
  constructor
  · rintro (_ | ⟨fits, described⟩)
    exact ⟨_, _, rfl, fits, described⟩
  · rintro ⟨name, others, rfl, fits, described⟩
    exact .name fits described

theorem describes_skip_iff (more : pattern ≠ []) : Describes (.names :: pattern) names ↔
    ∃ skipped others, names = skipped ++ others ∧ Describes pattern others := by
  constructor
  · rintro (_ | _ | ⟨skipped, _, described⟩ | _)
    · exact ⟨skipped, _, rfl, described⟩
    · exact absurd rfl more
  · rintro ⟨skipped, others, rfl, described⟩
    exact .skip skipped more described

theorem names_ne_nil_of_describes (described : Describes pattern names) (some : pattern ≠ []) :
    names ≠ [] := by
  induction described with
  | nil => exact absurd rfl some
  | name => exact List.cons_ne_nil _ _
  | skip skipped more _ ih => exact List.append_ne_nil_of_right_ne_nil _ (ih more)
  | last present => exact present

/-- What follows the first segment of a pattern describes the last of the names. -/
theorem exists_suffix_of_describes_cons {segment : Segment}
    (described : Describes (segment :: pattern) names) (more : pattern ≠ []) :
    ∃ others, others <:+ names ∧ Describes pattern others := by
  cases described with
  | name _ described => exact ⟨_, List.suffix_cons _ _, described⟩
  | skip skipped _ described => exact ⟨_, List.suffix_append _ _, described⟩
  | last => exact absurd rfl more

/-- A pattern that describes the empty name alone is runs only, and describes every name. -/
theorem describes_singleton_of_empty {name : List Char} (described : Describes pattern [[]])
    (filled : Segment.name [] ∉ pattern) (plain : '/' ∉ name) : Describes pattern [name] := by
  generalize alone : [([] : List Char)] = names at described
  induction described with
  | nil => cases alone
  | name fits described =>
    obtain ⟨rfl, rfl⟩ := List.cons.inj alone
    have signs : _ ≠ [] := fun empty => filled (empty ▸ List.mem_cons_self)
    have finished : _ = [] := by_contra fun more => names_ne_nil_of_describes described more rfl
    subst finished
    exact .name (fits_of_fits_nil fits signs plain) .nil
  | skip skipped more described ih =>
    have some := names_ne_nil_of_describes described more
    obtain ⟨rfl, same⟩ | ⟨_, absent⟩ := List.append_eq_singleton_iff.mp alone.symm
    · exact .skip [] more (ih (fun empty => filled (List.mem_cons_of_mem _ empty)) same.symm)
    · exact absurd absent some
  | last => exact .last (List.cons_ne_nil _ _)

/-- Literal segments in front of a pattern are names in front of what the pattern describes. -/
theorem describes_literal_append_iff (single : doubleStar ∉ segments) :
    Describes (segments.map (Segment.read .letter) ++ pattern) names ↔
      ∃ others, names = segments ++ others ∧ Describes pattern others := by
  induction segments generalizing names with
  | nil => simp
  | cons segment rest ih =>
    have other := List.ne_of_not_mem_cons single
    have single := List.not_mem_of_not_mem_cons single
    rw [List.map_cons, List.cons_append, Segment.read_of_ne _ other.symm, describes_name_iff]
    simp only [fits_letters_iff, ih single]
    constructor
    · rintro ⟨_, _, rfl, rfl, others, rfl, described⟩
      exact ⟨others, rfl, described⟩
    · rintro ⟨others, rfl, described⟩
      exact ⟨segment, rest ++ others, rfl, rfl, others, rfl, described⟩

theorem literalReading_of_single (single : doubleStar ∉ segments) :
    literalReading segments = reading segments := by
  induction segments with
  | nil => rfl
  | cons segment rest ih =>
    have tail : doubleStar ∉ rest := fun member => single (List.mem_cons_of_mem _ member)
    rw [literalReading, if_neg tail, ih tail]
    rfl

theorem literalReading_append (rest : List (List Char)) :
    literalReading (segments ++ doubleStar :: rest) =
      segments.map (Segment.read .letter) ++ .names :: literalReading rest := by
  induction segments with
  | nil => simp [literalReading, Segment.read_doubleStar]
  | cons segment others ih => simp [literalReading, ih]

theorem literalReading_eq_nil_iff : literalReading segments = [] ↔ segments = [] := by
  cases segments <;> simp [literalReading]

theorem name_nil_notMem_literalReading (filled : ∀ segment ∈ segments, segment ≠ []) :
    Segment.name [] ∉ literalReading segments := by
  induction segments with
  | nil => simp [literalReading]
  | cons segment rest ih =>
    obtain ⟨some, filled⟩ := List.forall_mem_cons.mp filled
    refine List.not_mem_cons_of_ne_of_not_mem ?_ (ih filled)
    split <;> exact (Segment.read_ne_name_nil _ some).symm

end Describes

end ModuleBoundary.Glob
