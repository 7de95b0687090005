import ModuleBoundary.Toml.Node
import ModuleBoundary.Toml.Quoted

/-! Scalars without quotes: truth values, numbers, dates and times.

Each `after…?` function gives the rest of a text after what it is named for.
-/

set_option autoImplicit false

namespace ModuleBoundary.Toml

/-- The rest after further digits. An underscore may stand between two digits. -/
def afterMoreDigits (isDigit : Char → Bool) : List Char → List Char
  | '_' :: c :: rest => if isDigit c then afterMoreDigits isDigit rest else '_' :: c :: rest
  | c :: rest => if isDigit c then afterMoreDigits isDigit rest else c :: rest
  | [] => []

def afterDigits? (isDigit : Char → Bool) : List Char → Option (List Char)
  | c :: rest => if isDigit c then some (afterMoreDigits isDigit rest) else none
  | [] => none

/-- Digits that do not begin with a superfluous zero. -/
def afterInteger? : List Char → Option (List Char)
  | '0' :: rest =>
    if rest.head?.any fun c => c.isDigit || c == '_' then none else some rest
  | text => afterDigits? Char.isDigit text

def afterFraction? : List Char → Option (List Char)
  | '.' :: rest => afterDigits? Char.isDigit rest
  | text => some text

def dropSign : List Char → List Char
  | '+' :: rest | '-' :: rest => rest
  | text => text

def afterExponent? : List Char → Option (List Char)
  | 'e' :: rest | 'E' :: rest => afterDigits? Char.isDigit (dropSign rest)
  | text => some text

def isDecimal (text : List Char) : Bool :=
  ((afterInteger? text).bind afterFraction?).bind afterExponent? == some []

/-- The number that digits spell. Underscores and a point among them are skipped. -/
def spelled (base : Nat) (text : List Char) : Nat :=
  (text.filterMap hexValue?).foldl (fun number digit => number * base + digit) 0

/-- An integer has to fit into 128 bits: with a sign if it is negative, else without. -/
def isIntegerInRange (negative : Bool) (magnitude : Nat) : Bool :=
  if negative then magnitude ≤ Nat.pow 2 127 else magnitude < Nat.pow 2 128

/-- Half a step above the largest finite binary floating-point number of 64 bits. From
here on a number would round to infinity. -/
def infinityBound : Nat := Nat.pow 2 1024 - Nat.pow 2 970

/-- Whether `mantissa * 10 ^ exponent` rounds to a finite number. The number of its
digits settles this unless it is near the bound, which has 309 of them. -/
def isFiniteDecimal (mantissa : Nat) (exponent : Int) : Bool :=
  let digits := (Nat.toDigits 10 mantissa).length + exponent
  if mantissa = 0 ∨ digits < 300 then true
  else if 320 < digits then false
  else mantissa * Nat.pow 10 exponent.toNat < infinityBound * Nat.pow 10 (-exponent).toNat

def isExponentMark (c : Char) : Bool := c == 'e' || c == 'E'

/-- Whether a decimal number, given without its sign, is within the range of its kind. -/
def isDecimalInRange (negative : Bool) (text : List Char) : Bool :=
  let mantissa := text.takeWhile (!isExponentMark ·)
  let exponent := (text.dropWhile (!isExponentMark ·)).drop 1
  let fraction := (mantissa.dropWhile (· != '.')).filter Char.isDigit
  if exponent.isEmpty && !mantissa.contains '.' then
    isIntegerInRange negative (spelled 10 mantissa)
  else
    let size : Int := spelled 10 exponent
    isFiniteDecimal (spelled 10 mantissa)
      ((if exponent.head? = some '-' then -size else size) - fraction.length)

def isRadixInteger (base : Nat) (isDigit : Char → Bool) (digits : List Char) : Bool :=
  afterDigits? isDigit digits == some [] && isIntegerInRange false (spelled base digits)

def isNumber : List Char → Bool
  | '0' :: 'x' :: digits => isRadixInteger 16 (hexValue? · |>.isSome) digits
  | '0' :: 'o' :: digits => isRadixInteger 8 (fun c => '0' ≤ c && c ≤ '7') digits
  | '0' :: 'b' :: digits => isRadixInteger 2 (fun c => c == '0' || c == '1') digits
  | text =>
    let unsigned := dropSign text
    unsigned == ['i', 'n', 'f'] || unsigned == ['n', 'a', 'n'] ||
      isDecimal unsigned && isDecimalInRange (text.head? == some '-') unsigned

def twoDigits? : List Char → Option (Nat × List Char)
  | a :: b :: rest =>
    if a.isDigit && b.isDigit then
      some ((a.toNat - '0'.toNat) * 10 + (b.toNat - '0'.toNat), rest)
    else none
  | _ => none

def after? (mark : Char) : List Char → Option (List Char)
  | c :: rest => if c = mark then some rest else none
  | [] => none

def daysOfMonth (year month : Nat) : Nat :=
  if month = 2 then
    if year % 4 = 0 ∧ (year % 100 ≠ 0 ∨ year % 400 = 0) then 29 else 28
  else if month = 4 ∨ month = 6 ∨ month = 9 ∨ month = 11 then 30
  else 31

def afterDate? (text : List Char) : Option (List Char) := do
  let (century, text) ← twoDigits? text
  let (years, text) ← twoDigits? text
  let (month, text) ← twoDigits? (← after? '-' text)
  let (day, text) ← twoDigits? (← after? '-' text)
  if 1 ≤ month ∧ month ≤ 12 ∧ 1 ≤ day ∧ day ≤ daysOfMonth (century * 100 + years) month then
    some text
  else none

/-- Seconds with a fraction, which a time may leave out. -/
def afterSeconds? : List Char → Option (List Char)
  | ':' :: text => do
    let (second, text) ← twoDigits? text
    if 60 < second then none
    else match text with
      | '.' :: c :: rest => if c.isDigit then some (rest.dropWhile Char.isDigit) else none
      | '.' :: [] => none
      | rest => some rest
  | text => some text

def afterTime? (text : List Char) : Option (List Char) := do
  let (hour, text) ← twoDigits? text
  let (minute, text) ← twoDigits? (← after? ':' text)
  if hour ≤ 23 ∧ minute ≤ 59 then afterSeconds? text else none

def isOffset : List Char → Bool
  | [] | ['Z'] | ['z'] => true
  | '+' :: text | '-' :: text =>
    match twoDigits? text with
    | some (hours, ':' :: text) =>
      match twoDigits? text with
      | some (minutes, []) => decide (hours ≤ 23 ∧ minutes ≤ 59)
      | _ => false
    | _ => false
  | _ => false

def isDateTimeMark (c : Char) : Bool := c == 'T' || c == 't' || c == ' '

def isDateOrTime (text : List Char) : Bool :=
  match afterDate? text with
  | some [] => true
  | some (mark :: rest) => isDateTimeMark mark && (afterTime? rest).any isOffset
  | none => afterTime? text == some []

/-- The characters of scalars without quotes. -/
def isBareScalarChar (c : Char) : Bool :=
  c.isAlphanum || c == '+' || c == '-' || c == '_' || c == '.' || c == ':'

def bareScalar? (text : List Char) : Option Node :=
  if text = ['t', 'r', 'u', 'e'] then some (.bool true)
  else if text = ['f', 'a', 'l', 's', 'e'] then some (.bool false)
  else if isNumber text then some .number
  else if isDateOrTime text then some .moment
  else none

/-- A scalar without quotes and the text after it. One blank may part a date from a time. -/
def spanBareScalar? (text : List Char) : Option (Node × List Char) :=
  let scalar := text.takeWhile isBareScalarChar
  let rest := text.dropWhile isBareScalarChar
  match afterDate? scalar, rest with
  | some [], ' ' :: c :: more =>
    if c.isDigit then
      let time := (c :: more).takeWhile isBareScalarChar
      (bareScalar? (scalar ++ ' ' :: time)).map (·, (c :: more).dropWhile isBareScalarChar)
    else (bareScalar? scalar).map (·, rest)
  | _, _ => (bareScalar? scalar).map (·, rest)

end ModuleBoundary.Toml
