import ModuleBoundary.Instant
import ModuleBoundary.Text.Characters

/-! Instants as texts: a date, a time of day and an offset from universal time.

One form is written. Reading is more lenient: numbers may be short, blanks may stand
around most parts, and years beyond four digits have a sign.
-/

set_option autoImplicit false

namespace ModuleBoundary.Instant

/-- Years that can be told. -/
def isWithinRange (instant : Instant) : Bool :=
  let year := (CalendarDate.ofDayNumber (instant.seconds / 86400)).year
  year ≤ 262142 && -262143 ≤ year

/-- Digits of a number, with zeros in front up to a width. -/
def padded (width number : Nat) : String :=
  let digits := toString number
  String.ofList (List.replicate (width - digits.length) '0') ++ digits

def yearText (year : Int) : String :=
  if 0 ≤ year ∧ year ≤ 9999 then padded 4 year.toNat
  else (if year < 0 then "-" else "+") ++ padded 4 year.natAbs

/-- The fewest of 0, 3, 6 and 9 digits that are exact. -/
def fractionText (nanoseconds : Nat) : String :=
  if nanoseconds = 0 then ""
  else if nanoseconds % 1000000 = 0 then "." ++ padded 3 (nanoseconds / 1000000)
  else if nanoseconds % 1000 = 0 then "." ++ padded 6 (nanoseconds / 1000)
  else "." ++ padded 9 nanoseconds

/-- The instant in universal time. A leap second is written as such. -/
def text (instant : Instant) : String :=
  let date := CalendarDate.ofDayNumber (instant.seconds / 86400)
  let second := (instant.seconds % 86400).toNat
  let leap := instant.nanoseconds / 1000000000
  s!"{yearText date.year}-{padded 2 date.month}-{padded 2 date.day}T" ++
    s!"{padded 2 (second / 3600)}:{padded 2 (second / 60 % 60)}:{padded 2 (second % 60 + leap)}" ++
    fractionText (instant.nanoseconds % 1000000000) ++ "Z"

/-- Reading from the front of some letters. -/
abbrev Reading := StateT (List Char) Option

namespace Reading

def skipBlanks : Reading Unit := modify Text.trimStart

def literal (letter : Char) : Reading Unit := do
  match ← get with
  | first :: rest => if first = letter then set rest else failure
  | [] => failure

def optional (letters : List Char) : Reading Bool := do
  match ← get with
  | first :: rest =>
    if letters.contains first then
      set rest
      return true
    else return false
  | [] => return false

def numeral (digits : List Char) : Nat :=
  digits.foldl (fun number digit => number * 10 + (digit.toNat - '0'.toNat)) 0

/-- The digits in front, which are at least one. -/
def digits : Reading (List Char) := do
  let letters ← get
  let found := letters.takeWhile Char.isDigit
  if found.isEmpty then failure
  set (letters.drop found.length)
  return found

/-- As many of the digits in front as a width allows. -/
def digitsUpTo (width : Nat) : Reading (List Char) := do
  let letters ← get
  let found := (letters.take width).takeWhile Char.isDigit
  if found.isEmpty then failure
  set (letters.drop found.length)
  return found

/-- A number of one or two digits, not above a limit. -/
def twoDigits (limit : Nat) : Reading Nat := do
  skipBlanks
  let number := numeral (← digitsUpTo 2)
  if limit < number then failure
  return number

def year : Reading Int := do
  skipBlanks
  if ← optional ['-'] then return -(numeral (← digits) : Int)
  else if ← optional ['+'] then return numeral (← digits)
  else return numeral (← digitsUpTo 4)

/-- A sign between two numbers, with blanks around it. -/
def separator (letter : Char) : Reading Unit := do
  skipBlanks
  literal letter

def date : Reading CalendarDate := do
  let year ← year
  separator '-'
  let month ← twoDigits 12
  separator '-'
  let day ← twoDigits 31
  let date : CalendarDate := ⟨year, month, day⟩
  if date.isValid then return date else failure

/-- Nanoseconds: the digits are filled up to nine, and those beyond the ninth are dropped. -/
def fraction : Reading Nat := do
  if ← optional ['.'] then
    let found ← digits
    return numeral ((found.rightpad 9 '0').take 9)
  else return 0

/-- Seconds of the day and nanoseconds. A sixtieth second is a leap second. -/
def timeOfDay : Reading (Nat × Nat) := do
  let hour ← twoDigits 23
  separator ':'
  let minute ← twoDigits 59
  separator ':'
  let second ← twoDigits 60
  let nanoseconds ← fraction
  let whole := hour * 3600 + minute * 60
  if second = 60 then return (whole + 59, nanoseconds + 1000000000)
  else return (whole + second, nanoseconds)

def exactlyTwoDigits (limit : Nat) : Reading Nat := do
  let found ← digitsUpTo 2
  if found.length ≠ 2 ∨ limit < numeral found then failure
  return numeral found

/-- Seconds that local time is ahead of universal time, less than a day. -/
def offset : Reading Int := do
  skipBlanks
  let letters ← get
  if (letters.take 3).map Char.toUpper = ['U', 'T', 'C'] then
    set (letters.drop 3)
    return 0
  if ← optional ['Z', 'z'] then return 0
  let ahead ← optional ['+']
  unless ahead do
    unless ← optional ['-', '−'] do failure
  let hours ← exactlyTwoDigits 23
  modify fun letters => letters.dropWhile fun letter => letter = ':' || Text.isBlank letter
  let minutes ← exactlyTwoDigits 59
  let seconds : Int := hours * 3600 + minutes * 60
  return if ahead then seconds else -seconds

def instant : Reading Instant := do
  let date ← date
  unless ← optional ['T', 't', ' '] do failure
  let (second, nanoseconds) ← timeOfDay
  let offset ← offset
  skipBlanks
  return ⟨date.dayNumber * 86400 + second - offset, nanoseconds⟩

end Reading

def ofText? (text : String) : Option Instant :=
  match Reading.instant.run text.toList with
  | some (instant, []) => if instant.isWithinRange then some instant else none
  | _ => none

end ModuleBoundary.Instant
