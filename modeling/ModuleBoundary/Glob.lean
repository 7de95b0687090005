/-! Wildcard patterns over type names.

A dot and a slash both separate segments. One star stands for a run of characters
inside a segment, two stars for any run of segments. The text before the first
double star is taken literally, and matching resumes after it only where a segment
starts.
-/

set_option autoImplicit false

namespace ModuleBoundary.Glob

/-- Cut a pattern at its first double star. -/
def cutDouble? : List Char → Option (List Char × List Char)
  | '*' :: '*' :: rest => some ([], rest)
  | c :: rest => (cutDouble? rest).map fun (before, after) => (c :: before, after)
  | [] => none

/-- Cut a pattern at its first star. -/
def cutSingle? : List Char → Option (List Char × List Char)
  | '*' :: rest => some ([], rest)
  | c :: rest => (cutSingle? rest).map fun (before, after) => (c :: before, after)
  | [] => none

theorem cutDouble?_eq_some {pattern before after : List Char}
    (cut : cutDouble? pattern = some (before, after)) : pattern = before ++ '*' :: '*' :: after := by
  fun_induction cutDouble? pattern generalizing before after with
  | case1 rest => simp_all
  | case2 c rest _ ih =>
    obtain ⟨⟨head, tail⟩, found, same⟩ := Option.map_eq_some_iff.mp cut
    obtain ⟨rfl, rfl⟩ := Prod.mk.inj same
    simp [ih found]
  | case3 => simp at cut

theorem cutSingle?_eq_some {pattern before after : List Char}
    (cut : cutSingle? pattern = some (before, after)) : pattern = before ++ '*' :: after := by
  fun_induction cutSingle? pattern generalizing before after with
  | case1 rest => simp_all
  | case2 c rest _ ih =>
    obtain ⟨⟨head, tail⟩, found, same⟩ := Option.map_eq_some_iff.mp cut
    obtain ⟨rfl, rfl⟩ := Prod.mk.inj same
    simp [ih found]
  | case3 => simp at cut

/-- A separator right after a double star belongs to it. -/
def dropSeparator : List Char → List Char
  | '/' :: rest => rest
  | rest => rest

theorem length_dropSeparator_le (text : List Char) : (dropSeparator text).length ≤ text.length := by
  unfold dropSeparator
  split <;> simp

/-- The rests of a text that begin right after a separator. -/
def restsAfterSeparator : List Char → List (List Char)
  | [] => []
  | c :: rest =>
    if c = '/' ∧ rest ≠ [] then rest :: restsAfterSeparator rest else restsAfterSeparator rest

/-- Where matching may resume after a double star: at the start, after each
separator that more text follows, and with nothing left. -/
def segmentStarts (text : List Char) : List (List Char) :=
  text :: restsAfterSeparator text ++ [[]]

/-- Where matching may resume after a single star: anywhere up to the next separator. -/
def restsInSegment : List Char → List (List Char)
  | [] => [[]]
  | c :: rest => (c :: rest) :: if c = '/' then [] else restsInSegment rest

/-- Matching on texts whose separators are all slashes. -/
def matchesText (pattern text : List Char) : Bool :=
  match _double : cutDouble? pattern with
  | some (before, after) =>
    match before.isPrefixOf? text with
    | none => false
    | some rest =>
      (dropSeparator after).isEmpty ||
        (segmentStarts rest).any fun resumed => matchesText (dropSeparator after) resumed
  | none =>
    match _single : cutSingle? pattern with
    | some (before, after) =>
      match before.isPrefixOf? text with
      | none => false
      | some rest => (restsInSegment rest).any fun resumed => matchesText after resumed
    | none => pattern == text
termination_by pattern.length
decreasing_by
  · have := length_dropSeparator_le after
    simp [cutDouble?_eq_some _double]; omega
  · simp [cutSingle?_eq_some _single]; omega

/-- A name or pattern with its dots read as slashes. -/
def slashed (text : String) : List Char :=
  text.toList.map fun c => if c = '.' then '/' else c

def isMatch (pattern typeName : String) : Bool :=
  matchesText (slashed pattern) (slashed typeName)

end ModuleBoundary.Glob
