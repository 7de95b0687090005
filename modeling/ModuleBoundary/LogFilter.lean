import ModuleBoundary.Text.Characters

/-! Filters of log messages, as texts of directives with commas between them.

A directive is a level, a target, or a target with a level after `=`. A target may be
followed by a span in brackets, whose fields stand in braces.
-/

set_option autoImplicit false

namespace ModuleBoundary.LogFilter

def levelNames : List String := ["off", "error", "warn", "info", "debug", "trace"]

/-- A level is written as its name in letters of either case, or as its number. -/
def isLevel (text : List Char) : Bool :=
  let digits := match text with
    | '+' :: rest => rest
    | _ => text
  levelNames.contains (String.ofList (text.map Char.toLower)) ||
    (!digits.isEmpty && digits.all Char.isDigit &&
      digits.foldl (fun number digit => number * 10 + (digit.toNat - '0'.toNat)) 0 ≤ 5)

/-- Where in a directive the reading is: before it, in the word it begins with, in a span,
in a field of one, after its fields, after the span, or in the level. -/
inductive Position where
  | start
  | word
  | span
  | field
  | fields
  | afterSpan
  | level

/-- The level that a directive ends with is cut from the text as it was given, blanks in
front included, at the place where it stands without them. -/
def isDirectiveFrom (given : List Char) : Position → Nat → Nat → List Char → Bool
  | .start, _, _, [] => false
  | .word, _, _, [] => true
  | .span, _, _, [] => false
  | .field, _, _, [] => false
  | .fields, _, _, [] => false
  | .afterSpan, _, _, [] => true
  | .level, since, _, [] =>
    let level := given.drop since
    level.isEmpty || isLevel level
  | position, since, place, letter :: rest =>
    let go (next : Position) (since : Nat) : Bool :=
      isDirectiveFrom given next since (place + 1) rest
    match position, letter with
    | .start, '[' => go .span (place + 1)
    | .start, letter =>
      (letter = '-' || letter = ':' || letter = '_' || letter.isAlphanum || 127 < letter.toNat) &&
        go .word place
    | .word, '=' => go .level (place + 1)
    | .word, '[' => go .span (place + 1)
    | .word, _ => go .word since
    | .span, ']' => go .afterSpan since
    | .span, '\x7b' => go .field (place + 1)
    | .span, _ => go .span since
    | .field, '\x7d' => since < place && go .fields since
    | .field, _ => go .field since
    | .fields, ']' => go .afterSpan since
    | .fields, _ => false
    | .afterSpan, '=' => go .level (place + 1)
    | .afterSpan, _ => false
    | .level, _ => go .level since

def isDirective (text : List Char) : Bool := isDirectiveFrom text .start 0 0 (Text.trim text)

/-- Empty directives are passed over. -/
def isValid (text : String) : Bool :=
  ((text.toList.splitOn ',').filter (!·.isEmpty)).all isDirective

end ModuleBoundary.LogFilter
