import ModuleBoundary.Json.Value
import ModuleBoundary.Text.Utf8

/-! The tokens of a JSON text.

Blanks separate tokens and mean nothing else. A string literal is read in two
steps: its units, which may be lone surrogates, and then the characters they form.
-/

set_option autoImplicit false

namespace ModuleBoundary.Json

open Text (Letter)

inductive Token where
  | openList
  | closeList
  | openObject
  | closeObject
  | comma
  | colon
  | leaf (value : Leaf)
  deriving DecidableEq, Repr

/-- What a string literal holds between its quotes. -/
inductive StringUnit where
  | char (value : Char)
  | surrogate (code : Nat)
  | illFormed

def hexDigit? (c : Char) : Option Nat :=
  if '0' ≤ c ∧ c ≤ '9' then some (c.toNat - '0'.toNat)
  else if 'a' ≤ c ∧ c ≤ 'f' then some (c.toNat - 'a'.toNat + 10)
  else if 'A' ≤ c ∧ c ≤ 'F' then some (c.toNat - 'A'.toNat + 10)
  else none

/-- The unit of an escape with four hexadecimal digits. -/
def escapedUnit? (a b c d : Letter) : Option StringUnit := do
  let code := (← hexDigit? (← a)) * 4096 + (← hexDigit? (← b)) * 256
    + (← hexDigit? (← c)) * 16 + (← hexDigit? (← d))
  return if 0xD800 ≤ code ∧ code < 0xE000 then .surrogate code else .char (Char.ofNat code)

/-- The character of a one-letter escape. -/
def shortEscape? : Char → Option Char
  | '"' => some '"'
  | '\\' => some '\\'
  | '/' => some '/'
  | 'b' => some '\x08'
  | 'f' => some '\x0C'
  | 'n' => some '\n'
  | 'r' => some '\r'
  | 't' => some '\t'
  | _ => none

/-- Units up to the closing quote and the text after it. `done` is in reverse order. -/
def unitsFrom (done : List StringUnit) : List Letter → Option (List StringUnit × List Letter)
  | some '"' :: rest => some (done.reverse, rest)
  | some '\\' :: some 'u' :: a :: b :: c :: d :: rest =>
    match escapedUnit? a b c d with
    | some unit => unitsFrom (unit :: done) rest
    | none => none
  | some '\\' :: some c :: rest =>
    match shortEscape? c with
    | some escaped => unitsFrom (.char escaped :: done) rest
    | none => none
  | some c :: rest => if c < ' ' ∨ c = '\\' then none else unitsFrom (.char c :: done) rest
  | none :: rest => unitsFrom (.illFormed :: done) rest
  | [] => none

/-- The characters of the units; surrogates must come in pairs. -/
def charsOfUnits? : List StringUnit → Option (List Char)
  | [] => some []
  | .char c :: rest => (charsOfUnits? rest).map (c :: ·)
  | .surrogate high :: .surrogate low :: rest =>
    if high < 0xDC00 ∧ 0xDC00 ≤ low then
      (charsOfUnits? rest).map
        (Char.ofNat (0x10000 + (high - 0xD800) * 1024 + (low - 0xDC00)) :: ·)
    else none
  | .surrogate _ :: _ => none
  | .illFormed :: _ => none

def Leaf.ofUnits (units : List StringUnit) : Leaf :=
  match charsOfUnits? units with
  | some chars => .text (String.ofList chars)
  | none => .unreadable

theorem unitsFrom_length_lt {done units : List StringUnit} {text rest : List Letter}
    (read : unitsFrom done text = some (units, rest)) : rest.length < text.length := by
  fun_induction unitsFrom done text with
  | case1 => simp_all
  | case2 _ _ _ _ _ _ _ _ ih => have := ih read; simp only [List.length_cons]; omega
  | case3 => simp at read
  | case4 _ _ _ _ _ _ ih => have := ih read; simp only [List.length_cons]; omega
  | case5 => simp at read
  | case6 => simp at read
  | case7 _ _ _ _ _ _ _ ih => have := ih read; simp only [List.length_cons]; omega
  | case8 _ _ ih => have := ih read; simp only [List.length_cons]; omega
  | case9 => simp at read

/-- The digits at the start of a text, and the rest. -/
def spanDigits : List Letter → List Char × List Letter
  | some c :: rest =>
    if c.isDigit then
      let (digits, after) := spanDigits rest
      (c :: digits, after)
    else ([], some c :: rest)
  | text => ([], text)

theorem spanDigits_length (text : List Letter) :
    (spanDigits text).1.length + (spanDigits text).2.length = text.length := by
  fun_induction spanDigits text with
  | case1 c rest _ digits after split ih =>
    rw [split] at ih; simp only [List.length_cons] at *; omega
  | case2 => simp
  | case3 => simp

def natOfDigits (digits : List Char) : Nat :=
  digits.foldl (fun value digit => value * 10 + (digit.toNat - '0'.toNat)) 0

/-- Digits that must be there, and the rest. -/
def someDigits? (text : List Letter) : Option (List Char × List Letter) :=
  match spanDigits text with
  | ([], _) => none
  | found => some found

/-- The rest after a fraction; a text without one is its own rest. -/
def afterFraction? : List Letter → Option (List Letter)
  | some '.' :: text => (someDigits? text).map (·.2)
  | text => some text

def dropSign : List Letter → List Letter
  | some '+' :: text | some '-' :: text => text
  | text => text

theorem length_dropSign_le (text : List Letter) : (dropSign text).length ≤ text.length := by
  unfold dropSign
  split <;> simp

def isExponentMark (letter : Letter) : Bool := letter = some 'e' ∨ letter = some 'E'

/-- The rest after an exponent; a text without one is its own rest. -/
def afterExponent? : List Letter → Option (List Letter)
  | [] => some []
  | letter :: text =>
    if isExponentMark letter then (someDigits? (dropSign text)).map (·.2)
    else some (letter :: text)

theorem someDigits?_length_lt {text rest : List Letter} {digits : List Char}
    (read : someDigits? text = some (digits, rest)) : rest.length < text.length := by
  have lengths := spanDigits_length text
  unfold someDigits? at read
  split at read
  · simp at read
  · next nonempty =>
    rw [Option.some.inj read] at lengths nonempty
    cases digits with
    | nil => exact absurd rfl (nonempty rest)
    | cons => simp only [List.length_cons] at lengths; omega

theorem afterFraction?_length_le {text rest : List Letter}
    (read : afterFraction? text = some rest) : rest.length ≤ text.length := by
  unfold afterFraction? at read
  split at read
  · obtain ⟨⟨_, _⟩, found, rfl⟩ := Option.map_eq_some_iff.mp read
    have := someDigits?_length_lt found
    simp only [List.length_cons]; omega
  · simp_all

theorem afterExponent?_length_le {text rest : List Letter}
    (read : afterExponent? text = some rest) : rest.length ≤ text.length := by
  unfold afterExponent? at read
  split at read
  · simp_all
  · next letter text =>
    split at read
    · obtain ⟨⟨_, _⟩, found, rfl⟩ := Option.map_eq_some_iff.mp read
      have := someDigits?_length_lt found
      have := length_dropSign_le text
      simp only [List.length_cons]; omega
    · simp_all

/-- Whether a fraction or an exponent begins here. -/
def isNumberTail : List Letter → Bool
  | [] => false
  | letter :: _ => letter = some '.' ∨ isExponentMark letter

/-- An unsigned number: a natural, unless a fraction or an exponent follows the digits.
A leading zero is the only digit of its integer part. -/
def unsigned? (text : List Letter) : Option (Leaf × List Letter) := do
  let (digits, whole) ← someDigits? text
  if 1 < digits.length ∧ digits.head? = some '0' then none
  else
    let rest ← afterExponent? (← afterFraction? whole)
    return (if isNumberTail whole then .otherNumber else .nat (natOfDigits digits), rest)

theorem unsigned?_length_lt {text rest : List Letter} {leaf : Leaf}
    (read : unsigned? text = some (leaf, rest)) : rest.length < text.length := by
  simp only [unsigned?, Option.bind_eq_bind, Option.bind_eq_some_iff] at read
  obtain ⟨⟨digits, whole⟩, first, read⟩ := read
  have := someDigits?_length_lt first
  split at read
  · simp at read
  · simp only [Option.bind_eq_some_iff, Option.pure_def, Option.some.injEq, Prod.mk.injEq] at read
    obtain ⟨fraction, second, last, third, _, rfl⟩ := read
    have := afterFraction?_length_le second
    have := afterExponent?_length_le third
    omega

/-- The leaf at the start of a text. -/
def leaf? : List Letter → Option (Leaf × List Letter)
  | some '"' :: text => (unitsFrom [] text).map fun (units, rest) => (.ofUnits units, rest)
  | some 'n' :: some 'u' :: some 'l' :: some 'l' :: rest => some (.null, rest)
  | some 't' :: some 'r' :: some 'u' :: some 'e' :: rest => some (.bool true, rest)
  | some 'f' :: some 'a' :: some 'l' :: some 's' :: some 'e' :: rest => some (.bool false, rest)
  | some '-' :: text => (unsigned? text).map fun (_, rest) => (.otherNumber, rest)
  | text => unsigned? text

theorem leaf?_length_lt {text rest : List Letter} {leaf : Leaf}
    (read : leaf? text = some (leaf, rest)) : rest.length < text.length := by
  unfold leaf? at read
  split at read
  · obtain ⟨⟨units, after⟩, found, same⟩ := Option.map_eq_some_iff.mp read
    obtain ⟨_, rfl⟩ := Prod.mk.inj same
    have := unitsFrom_length_lt found
    simp only [List.length_cons]; omega
  · simp_all; omega
  · simp_all; omega
  · simp_all; omega
  · obtain ⟨⟨number, after⟩, found, same⟩ := Option.map_eq_some_iff.mp read
    obtain ⟨_, rfl⟩ := Prod.mk.inj same
    have := unsigned?_length_lt found
    simp only [List.length_cons]; omega
  · exact unsigned?_length_lt read

/-- The blanks between tokens. -/
def isBlank (c : Char) : Bool := c = ' ' ∨ c = '\t' ∨ c = '\n' ∨ c = '\r'

def Token.ofChar? : Char → Option Token
  | '[' => some .openList
  | ']' => some .closeList
  | '{' => some .openObject
  | '}' => some .closeObject
  | ',' => some .comma
  | ':' => some .colon
  | _ => none

/-- The tokens of a text after `done`, which is in reverse order. Two leaves with
nothing between them are two tokens; that no document allows them is not decided here. -/
def tokensFrom (done : List Token) (text : List Letter) : Option (List Token) :=
  match text with
  | [] => some done.reverse
  | none :: _ => none
  | some c :: rest =>
    if isBlank c then tokensFrom done rest
    else
      match Token.ofChar? c with
      | some token => tokensFrom (token :: done) rest
      | none =>
        match _read : leaf? (some c :: rest) with
        | some (value, after) => tokensFrom (.leaf value :: done) after
        | none => none
termination_by text.length
decreasing_by
  · simp
  · simp
  · exact leaf?_length_lt _read

def tokens? (text : List Letter) : Option (List Token) := tokensFrom [] text

end ModuleBoundary.Json
