import Mathlib.Data.List.Basic
import ModuleBoundary.Json.Printer
import ModuleBoundary.Json.Token

/-! Leaves read back from their written form.

A string stands between quotes, and whatever may not stand there is escaped, one escape for a
character. A number has no end of its own, so what follows it must not go on with it.
-/

set_option autoImplicit false

namespace ModuleBoundary.Json

open Text (Letter)

variable {done : List StringUnit} {rest : List Letter}

/-! Strings. -/

theorem hexDigit?_hexDigit : ∀ value < 16, hexDigit? (hexDigit value) = some value := by decide

/-- Characters below the blank are escaped by their codes, which have two digits. -/
theorem escapedUnit?_hexDigit {code : Nat} (small : code < 32) :
    escapedUnit? (some '0') (some '0') (some (hexDigit (code / 16))) (some (hexDigit (code % 16))) =
      some (.char (Char.ofNat code)) := by
  have high := hexDigit?_hexDigit (code / 16) (by omega)
  have low := hexDigit?_hexDigit (code % 16) (by omega)
  have zero : hexDigit? '0' = some 0 := by decide
  have whole : code / 16 * 16 + code % 16 = code := Nat.div_add_mod' code 16
  have noSurrogate : ¬0xD800 ≤ code := by omega
  simp [escapedUnit?, high, low, zero, whole, noSurrogate]

theorem unitsFrom_plain {c : Char} (quote : c ≠ '"') (slash : c ≠ '\\') (printed : ¬c < ' ') :
    unitsFrom done (some c :: rest) = unitsFrom (.char c :: done) rest := by
  rw [unitsFrom]
  · simp [printed, slash]
  · simpa using quote
  · simp [slash]
  · simp [slash]

theorem unitsFrom_escape (c : Char) :
    unitsFrom done ((escape c).map some ++ rest) = unitsFrom (.char c :: done) rest := by
  fun_cases escape c
  case case8 quote slash _ _ _ _ _ control =>
    have small : c.toNat < 32 := control
    have unit := escapedUnit?_hexDigit small
    rw [Char.ofNat_toNat] at unit
    simp [unitsFrom, unit]
  case case9 quote slash _ _ _ _ _ printed =>
    exact unitsFrom_plain quote slash printed
  all_goals simp [unitsFrom, shortEscape?]

theorem unitsFrom_quoted (chars : List Char) :
    unitsFrom done ((chars.flatMap escape).map some ++ some '"' :: rest) =
      some (done.reverse ++ chars.map .char, rest) := by
  induction chars generalizing done with
  | nil => simp [unitsFrom]
  | cons c chars ih =>
    rw [List.flatMap_cons, List.map_append, List.append_assoc, unitsFrom_escape, ih]
    simp

theorem charsOfUnits?_map_char (chars : List Char) :
    charsOfUnits? (chars.map .char) = some chars := by
  induction chars with
  | nil => rfl
  | cons c chars ih => rw [List.map_cons, charsOfUnits?, ih, Option.map_some]

theorem leaf?_quoted (text : String) :
    leaf? ((quoted text).map some ++ rest) = some (.text text, rest) := by
  have units : unitsFrom [] ((text.toList.flatMap escape).map some ++ some '"' :: rest) =
      some (text.toList.map .char, rest) := unitsFrom_quoted text.toList
  have read : Leaf.ofUnits (text.toList.map .char) = .text text := by
    simp [Leaf.ofUnits, charsOfUnits?_map_char]
  simp [quoted, leaf?, units, read]

/-! Numbers. -/

/-- The text is at its end, or goes on with a blank or a mark. -/
def Delimited (text : List Char) : Prop :=
  ∀ c ∈ text.head?, isBlank c = true ∨ (Token.ofChar? c).isSome = true

theorem Delimited.nil : Delimited [] := by simp [Delimited]

theorem delimited_of_blank {c : Char} {text : List Char} (blank : isBlank c = true) :
    Delimited (c :: text) := by
  simp [Delimited, blank]

theorem delimited_of_mark {c : Char} {text : List Char} (mark : (Token.ofChar? c).isSome = true) :
    Delimited (c :: text) := by
  simp [Delimited, mark]

/-- None of the characters that may follow a number belongs to it. -/
theorem not_in_number {c : Char} (ends : isBlank c = true ∨ (Token.ofChar? c).isSome = true) :
    c.isDigit = false ∧ c ≠ '.' ∧ isExponentMark (some c) = false := by
  rcases ends with blank | mark
  · simp only [isBlank, decide_eq_true_eq] at blank
    rcases blank with rfl | rfl | rfl | rfl <;> decide
  · unfold Token.ofChar? at mark
    split at mark
    case h_7 => cases mark
    all_goals decide

theorem spanDigits_append {digits rest : List Char} (all : ∀ digit ∈ digits, digit.isDigit = true)
    (delimited : Delimited rest) :
    spanDigits ((digits ++ rest).map some) = (digits, rest.map some) := by
  induction digits with
  | nil =>
    cases rest with
    | nil => rfl
    | cons c rest => simp [spanDigits, (not_in_number (delimited c rfl)).1]
  | cons digit digits ih =>
    obtain ⟨first, all⟩ := List.forall_mem_cons.mp all
    simp only [List.cons_append, List.map_cons, spanDigits, first, if_true, ih all]

theorem someDigits?_append {digits rest : List Char} (some : digits ≠ [])
    (all : ∀ digit ∈ digits, digit.isDigit = true) (delimited : Delimited rest) :
    someDigits? ((digits ++ rest).map .some) = .some (digits, rest.map .some) := by
  rw [someDigits?, spanDigits_append all delimited]
  cases digits with
  | nil => exact absurd rfl some
  | cons digit digits => rfl

theorem natOfDigits_toDigits (value : Nat) : natOfDigits (Nat.toDigits 10 value) = value := by
  calc natOfDigits (Nat.toDigits 10 value)
    _ = Nat.ofDigitChars 10 (Nat.toDigits 10 value) 0 := by
      simp only [natOfDigits, Nat.ofDigitChars_eq_foldl, Nat.mul_comm _ 10]
    _ = value := Nat.ofDigitChars_ten_toDigits

theorem exists_toDigits_eq_cons (value : Nat) :
    ∃ digit more, Nat.toDigits 10 value = digit :: more ∧ digit.isDigit = true := by
  cases digits : Nat.toDigits 10 value with
  | nil => exact absurd digits Nat.toDigits_ne_nil
  | cons digit more =>
    refine ⟨digit, more, rfl, ?_⟩
    apply Nat.isDigit_of_mem_toDigits (b := 10) (n := value) (by decide) (by decide)
    rw [digits]
    exact List.mem_cons_self

theorem head_toDigits_ne_zero (value : Nat) (positive : 0 < value) :
    (Nat.toDigits 10 value).head? ≠ some '0' := by
  induction value using Nat.strongRecOn with
  | ind value ih =>
    rw [Nat.toDigits_eq_if (by decide)]
    split
    · next small =>
      have digit : ∀ value < 10, 0 < value → [Nat.digitChar value].head? ≠ some '0' := by decide
      exact digit value small positive
    · have smaller := ih (value / 10) (by omega) (by omega)
      rwa [List.head?_append_of_ne_nil _ Nat.toDigits_ne_nil]

theorem afterFraction?_delimited {rest : List Char} (delimited : Delimited rest) :
    afterFraction? (rest.map some) = some (rest.map some) := by
  cases rest with
  | nil => rfl
  | cons c rest =>
    have noPoint := (not_in_number (delimited c rfl)).2.1
    unfold afterFraction?
    split
    · simp_all
    · rfl

theorem afterExponent?_delimited {rest : List Char} (delimited : Delimited rest) :
    afterExponent? (rest.map some) = some (rest.map some) := by
  cases rest with
  | nil => rfl
  | cons c rest => simp [afterExponent?, (not_in_number (delimited c rfl)).2.2]

theorem isNumberTail_delimited {rest : List Char} (delimited : Delimited rest) :
    isNumberTail (rest.map some) = false := by
  cases rest with
  | nil => rfl
  | cons c rest =>
    obtain ⟨-, noPoint, noExponent⟩ := not_in_number (delimited c rfl)
    simp [isNumberTail, noPoint, noExponent]

theorem unsigned?_toDigits (value : Nat) {rest : List Char} (delimited : Delimited rest) :
    unsigned? ((Nat.toDigits 10 value ++ rest).map some) = some (.nat value, rest.map some) := by
  have all : ∀ digit ∈ Nat.toDigits 10 value, digit.isDigit = true :=
    fun _ => Nat.isDigit_of_mem_toDigits (by decide) (by decide)
  have digits := someDigits?_append Nat.toDigits_ne_nil all delimited
  have noLeadingZero :
      ¬(1 < (Nat.toDigits 10 value).length ∧ (Nat.toDigits 10 value).head? = some '0') := by
    rintro ⟨long, zero⟩
    cases value with
    | zero => simp at long
    | succ value => exact head_toDigits_ne_zero _ (Nat.succ_pos value) zero
  simp only [unsigned?, digits, Option.bind_eq_bind, Option.bind_some, if_neg noLeadingZero,
    afterFraction?_delimited delimited, afterExponent?_delimited delimited,
    isNumberTail_delimited delimited, natOfDigits_toDigits]
  rfl

theorem leaf?_of_isDigit {digit : Char} (isDigit : digit.isDigit = true) :
    leaf? (some digit :: rest) = unsigned? (some digit :: rest) := by
  unfold leaf?
  split
  case h_6 => rfl
  all_goals
    next same =>
    obtain ⟨rfl, -⟩ := by simpa using same
    cases isDigit

/-- Whatever a leaf is, its written form reads back as it, up to where the rest begins. -/
theorem leaf?_write (leaf : Leaf) {rest : List Char} (delimited : Delimited rest) :
    leaf? ((leaf.write ++ rest).map some) = some (leaf, rest.map some) := by
  cases leaf with
  | null => rfl
  | bool value => cases value <;> rfl
  | nat value =>
    have read := unsigned?_toDigits value delimited
    obtain ⟨digit, more, digits, isDigit⟩ := exists_toDigits_eq_cons value
    rw [digits] at read
    rw [Leaf.write, digits]
    exact (leaf?_of_isDigit isDigit).trans read
  | otherNumber =>
    have zero : unsigned? (('0' :: rest).map some) = some (.nat 0, rest.map some) :=
      unsigned?_toDigits 0 delimited
    simp only [List.map_cons] at zero
    simp [Leaf.write, leaf?, zero]
  | text value => rw [Leaf.write, List.map_append, leaf?_quoted]
  | unreadable =>
    have lone : escapedUnit? (some 'd') (some '8') (some '0') (some '0') =
        some (.surrogate 0xD800) := by
      have high : hexDigit? 'd' = some 13 := hexDigit?_hexDigit 13 (by decide)
      have low : hexDigit? '8' = some 8 := hexDigit?_hexDigit 8 (by decide)
      have zero : hexDigit? '0' = some 0 := hexDigit?_hexDigit 0 (by decide)
      simp only [escapedUnit?, Option.bind_eq_bind, Option.bind_some, high, low, zero]
      rfl
    simp [Leaf.write, leaf?, unitsFrom, lone, Leaf.ofUnits, charsOfUnits?]

end ModuleBoundary.Json
