/-! Octets read as text.

A letter is a character, or `none` for octets that belong to no character. One
`none` stands for one longest piece that could have begun a character, so that a
replacement character for each `none` gives the customary lossy reading.
-/

set_option autoImplicit false

namespace ModuleBoundary.Text

abbrev Letter := Option Char

/-- Between characters, or inside one whose remaining octets are still owed. -/
inductive Utf8State where
  | between
  | owing (code owed low high : Nat)

/-- The first octet of a character: what it completes, and what is owed after it. -/
def Utf8State.first (octet : Nat) : List Letter × Utf8State :=
  if octet < 0x80 then ([some (Char.ofNat octet)], .between)
  else if octet < 0xC2 then ([none], .between)
  else if octet < 0xE0 then ([], .owing (octet - 0xC0) 1 0x80 0xBF)
  else if octet = 0xE0 then ([], .owing 0 2 0xA0 0xBF)
  else if octet = 0xED then ([], .owing 0xD 2 0x80 0x9F)
  else if octet < 0xF0 then ([], .owing (octet - 0xE0) 2 0x80 0xBF)
  else if octet = 0xF0 then ([], .owing 0 3 0x90 0xBF)
  else if octet < 0xF4 then ([], .owing (octet - 0xF0) 3 0x80 0xBF)
  else if octet = 0xF4 then ([], .owing 4 3 0x80 0x8F)
  else ([none], .between)

def Utf8State.step : Utf8State → Nat → List Letter × Utf8State
  | .between, octet => first octet
  | .owing code owed low high, octet =>
    if low ≤ octet ∧ octet ≤ high then
      let code := code * 64 + (octet - 0x80)
      if owed = 1 then ([some (Char.ofNat code)], .between)
      else ([], .owing code (owed - 1) 0x80 0xBF)
    else
      let (letters, next) := first octet
      (none :: letters, next)

/-- Letters of the octets, after `done` which is in reverse order. -/
def lettersFrom (done : List Letter) : Utf8State → List UInt8 → List Letter
  | .between, [] => done.reverse
  | .owing .., [] => (none :: done).reverse
  | state, octet :: rest =>
    let (letters, next) := state.step octet.toNat
    lettersFrom (letters.reverse ++ done) next rest

def lettersOfUtf8 (octets : List UInt8) : List Letter := lettersFrom [] .between octets

/-- The text of well-formed octets. -/
def ofUtf8? (octets : List UInt8) : Option String :=
  ((lettersOfUtf8 octets).mapM id).map String.ofList

/-- Every ill-formed piece becomes one replacement character. -/
def ofUtf8Lossy (octets : List UInt8) : String :=
  String.ofList ((lettersOfUtf8 octets).map (·.getD '\uFFFD'))

def toUtf8 (text : String) : List UInt8 := text.toUTF8.toList

end ModuleBoundary.Text
