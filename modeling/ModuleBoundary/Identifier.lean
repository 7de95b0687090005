/-! Identifiers of 128 bits, and their texts: 32 hexadecimal digits in five groups. -/

set_option autoImplicit false

namespace ModuleBoundary

structure Identifier where
  bits : BitVec 128
  deriving DecidableEq

namespace Identifier

def zero : Identifier := ⟨0⟩

/-- All bits set. -/
def ones : Identifier := ⟨BitVec.allOnes 128⟩

/-- The four bits at a place, counted from the highest. -/
def digitAt (id : Identifier) (place : Nat) : Char :=
  Nat.digitChar (id.bits.extractLsb' (4 * (31 - place)) 4).toNat

def groupLengths : List Nat := [8, 4, 4, 4, 12]

/-- Cut a list into groups of given lengths. -/
def groups {α : Type} : List Nat → List α → List (List α)
  | [], _ => []
  | length :: lengths, items => items.take length :: groups lengths (items.drop length)

/-- Lower case digits, with hyphens between the groups. -/
def text (id : Identifier) : String :=
  String.ofList (['-'].intercalate (groups groupLengths ((List.range 32).map id.digitAt)))

def valueOfDigit? (letter : Char) : Option Nat :=
  if letter.isDigit then some (letter.toNat - '0'.toNat)
  else if 'a' ≤ letter ∧ letter ≤ 'f' then some (letter.toNat - 'a'.toNat + 10)
  else if 'A' ≤ letter ∧ letter ≤ 'F' then some (letter.toNat - 'A'.toNat + 10)
  else none

def ofDigits? (letters : List Char) : Option Identifier := do
  let digits ← letters.mapM valueOfDigit?
  if digits.length ≠ 32 then none
  return ⟨BitVec.ofNat 128 (digits.foldl (fun number digit => number * 16 + digit) 0)⟩

/-- The digits of the hyphenated form, which has its hyphens where they are written. -/
def ofGroups? (letters : List Char) : Option Identifier :=
  let pieces := letters.splitOn '-'
  if pieces.map List.length = groupLengths then ofDigits? pieces.flatten else none

/-- The digits may stand without hyphens; with hyphens they may stand in braces or after
`urn:uuid:`. Digits may be of either case. -/
def ofText? (text : String) : Option Identifier :=
  let letters := text.toList
  match letters with
  | '\x7b' :: rest =>
    if rest.getLast? = some '\x7d' then ofGroups? rest.dropLast else none
  | _ =>
    if "urn:uuid:".toList.isPrefixOf letters then ofGroups? (letters.drop 9)
    else if letters.length = 32 then ofDigits? letters
    else ofGroups? letters

end Identifier

end ModuleBoundary
