import Mathlib.Tactic.SplitIfs
import ModuleBoundary.Text.Utf8

/-! Octets of a text are read as it, and the order of texts is the order of their octets. -/

set_option autoImplicit false

namespace ModuleBoundary.Text

theorem toList_loop (octets : ByteArray) (place : Nat) (done : List UInt8) :
    ByteArray.toList.loop octets place done = done.reverse ++ octets.data.toList.drop place := by
  induction left : octets.size - place generalizing place done with
  | zero =>
    unfold ByteArray.toList.loop
    have ended : octets.data.toList.length ≤ place := by
      change octets.size ≤ place
      omega
    rw [if_neg (by omega), List.drop_of_length_le ended, List.append_nil]
  | succ count ih =>
    unfold ByteArray.toList.loop
    have inside : place < octets.size := by omega
    have octet : octets.get! place = octets.data.toList[place] := by
      simp [ByteArray.get!, inside]
    rw [if_pos inside, ih (place + 1) _ (by omega), octet, List.drop_eq_getElem_cons inside]
    simp

theorem toUtf8_eq (text : String) : toUtf8 text = text.toList.flatMap String.utf8EncodeChar := by
  unfold toUtf8 ByteArray.toList
  rw [toList_loop, String.toUTF8_eq_toByteArray, ← String.utf8Encode_toList, List.utf8Encode]
  simp

theorem utf8EncodeChar_lt {first second : Char} (before : first < second)
    (rest other : List UInt8) :
    String.utf8EncodeChar first ++ rest < String.utf8EncodeChar second ++ other := by
  have codes : first.val.toNat < second.val.toNat := before
  have bound : second.val.toNat < 0x110000 := by
    have valid := second.valid
    simp only [UInt32.isValidChar, Nat.isValidChar] at valid
    omega
  unfold String.utf8EncodeChar
  generalize first.val.toNat = low at codes
  generalize second.val.toNat = high at codes bound
  dsimp only
  by_cases short : low ≤ 0xffff
  · split_ifs <;>
      simp only [List.cons_append, List.cons_lt_cons_iff, UInt8.lt_iff_toNat_lt, ← UInt8.toNat_inj,
        UInt8.toNat_ofNat'] <;>
      omega
  · -- Both have four octets, so the first digit that differs decides.
    rw [if_neg (by omega), if_neg (by omega), if_neg short, if_neg (by omega), if_neg (by omega),
      if_neg (by omega)]
    simp only [List.cons_append, List.cons_lt_cons_iff, UInt8.lt_iff_toNat_lt, ← UInt8.toNat_inj,
      UInt8.toNat_ofNat']
    have leading : low / 262144 < high / 262144 ∨
        low / 262144 = high / 262144 ∧ low % 262144 < high % 262144 := by omega
    rcases leading with leading | ⟨leading, codes⟩
    · omega
    · have next : low / 4096 % 64 < high / 4096 % 64 ∨
          low / 4096 % 64 = high / 4096 % 64 ∧ low % 4096 < high % 4096 := by omega
      rcases next with next | ⟨next, codes⟩ <;> omega

theorem flatMap_utf8EncodeChar_lt {first second : List Char} (before : first < second) :
    first.flatMap String.utf8EncodeChar < second.flatMap String.utf8EncodeChar := by
  induction first generalizing second with
  | nil =>
    cases second with
    | nil => exact absurd before (List.lt_irrefl [])
    | cons letter rest =>
      obtain ⟨octet, octets, coded⟩ := List.exists_cons_of_ne_nil
        (String.utf8EncodeChar_ne_nil : String.utf8EncodeChar letter ≠ [])
      rw [List.flatMap_nil, List.flatMap_cons, coded]
      exact List.nil_lt_cons ..
  | cons letter rest ih =>
    cases second with
    | nil => exact absurd before (List.not_lt_nil _)
    | cons other later =>
      rcases List.cons_lt_cons_iff.mp before with smaller | ⟨rfl, smaller⟩
      · exact utf8EncodeChar_lt smaller _ _
      · rw [List.flatMap_cons, List.flatMap_cons]
        exact List.append_left_lt (ih smaller)

theorem toUtf8_lt_iff {first second : String} : toUtf8 first < toUtf8 second ↔ first < second := by
  rw [toUtf8_eq, toUtf8_eq]
  refine ⟨fun before => ?_, flatMap_utf8EncodeChar_lt⟩
  refine Decidable.byContradiction fun missed => ?_
  have after : second ≤ first := String.not_lt.mp missed
  by_cases same : first = second
  · exact List.lt_irrefl _ (same ▸ before)
  · have greater : second < first := by
      refine String.not_le.mp fun other => same ?_
      exact String.le_antisymm other after
    exact List.lt_asymm before (flatMap_utf8EncodeChar_lt greater)

/-- Texts are ordered as their octets are. -/
theorem toUtf8_le_iff {first second : String} : toUtf8 first ≤ toUtf8 second ↔ first ≤ second := by
  rw [← List.not_lt, toUtf8_lt_iff, String.not_lt]

namespace Utf8State

theorem step_owing_one {code digit low high : Nat} (above : low ≤ digit + 0x80)
    (below : digit + 0x80 ≤ high) :
    step (.owing code 1 low high) (digit + 0x80) = ([some (Char.ofNat (code * 64 + digit))], .between) := by
  simp [step, above, below]

theorem step_owing_more {code owed digit low high : Nat} (above : low ≤ digit + 0x80)
    (below : digit + 0x80 ≤ high) :
    step (.owing code (owed + 2) low high) (digit + 0x80) =
      ([], .owing (code * 64 + digit) (owed + 1) 0x80 0xBF) := by
  simp [step, above, below]

/-- What the first of two octets owes. -/
theorem first_of_two {code : Nat} (least : 0x80 ≤ code) (most : code < 0x800) :
    first (code / 64 + 0xC0) = ([], .owing (code / 64) 1 0x80 0xBF) := by
  unfold first
  rw [if_neg (by omega), if_neg (by omega), if_pos (by omega), Nat.add_sub_cancel]

/-- What the first of three octets owes, with bounds that the second keeps to. -/
theorem exists_first_of_three {code : Nat} (least : 0x800 ≤ code) (most : code < 0x10000)
    (valid : code < 0xD800 ∨ 0xDFFF < code) :
    ∃ low high, first (code / 4096 + 0xE0) = ([], .owing (code / 4096) 2 low high) ∧
      low ≤ code / 64 % 64 + 0x80 ∧ code / 64 % 64 + 0x80 ≤ high := by
  unfold first
  rw [if_neg (by omega), if_neg (by omega), if_neg (by omega), Nat.add_sub_cancel]
  split_ifs with least greatest
  · have zero : code / 4096 = 0 := by omega
    exact ⟨0xA0, 0xBF, by rw [zero], by omega, by omega⟩
  · have leading : code / 4096 = 0xD := by omega
    exact ⟨0x80, 0x9F, by rw [leading], by omega, by omega⟩
  · exact ⟨0x80, 0xBF, rfl, by omega, by omega⟩
  all_goals omega

theorem exists_first_of_four {code : Nat} (least : 0x10000 ≤ code) (most : code < 0x110000) :
    ∃ low high, first (code / 262144 + 0xF0) = ([], .owing (code / 262144) 3 low high) ∧
      low ≤ code / 4096 % 64 + 0x80 ∧ code / 4096 % 64 + 0x80 ≤ high := by
  unfold first
  rw [if_neg (by omega), if_neg (by omega), if_neg (by omega), if_neg (by omega),
    if_neg (by omega), if_neg (by omega), Nat.add_sub_cancel]
  split_ifs
  · have zero : code / 262144 = 0 := by omega
    exact ⟨0x90, 0xBF, by rw [zero], by omega, by omega⟩
  · exact ⟨0x80, 0xBF, rfl, by omega, by omega⟩
  · have leading : code / 262144 = 4 := by omega
    exact ⟨0x80, 0x8F, by rw [leading], by omega, by omega⟩
  all_goals omega

end Utf8State

theorem lettersFrom_cons (done : List Letter) (state : Utf8State) (octet : UInt8) (rest : List UInt8) :
    lettersFrom done state (octet :: rest) =
      lettersFrom ((state.step octet.toNat).1.reverse ++ done) (state.step octet.toNat).2 rest := by
  cases state <;> rfl

open Utf8State in
/-- The octets of a character are read as it. -/
theorem lettersFrom_utf8EncodeChar (letter : Char) (done : List Letter) (rest : List UInt8) :
    lettersFrom done .between (String.utf8EncodeChar letter ++ rest) =
      lettersFrom (some letter :: done) .between rest := by
  have valid := letter.valid
  simp only [UInt32.isValidChar, Nat.isValidChar] at valid
  have read : Char.ofNat letter.val.toNat = letter := Char.ofNat_toNat letter
  unfold String.utf8EncodeChar
  generalize letter.val.toNat = code at *
  rw [← read]
  have octet {value : Nat} (small : value < 256) : (UInt8.ofNat value).toNat = value := by
    simpa using small
  have between (value : Nat) : step .between value = first value := rfl
  dsimp only
  split_ifs with one two three <;>
    simp only [List.cons_append, List.nil_append, lettersFrom_cons, between]
  · have first : first code = ([some (Char.ofNat code)], .between) := if_pos (by omega)
    rw [octet (by omega), first]
    rfl
  · have leading : code / 64 % 32 + 192 = code / 64 + 0xC0 := by omega
    have whole : code / 64 * 64 + code % 64 = code := by omega
    rw [octet (by omega), octet (by omega), leading, first_of_two (by omega) (by omega),
      step_owing_one (by omega) (by omega), whole]
    rfl
  · have leading : code / 4096 % 16 + 224 = code / 4096 + 0xE0 := by omega
    have whole : (code / 4096 * 64 + code / 64 % 64) * 64 + code % 64 = code := by omega
    obtain ⟨low, high, owes, above, below⟩ : ∃ low high, _ :=
      exists_first_of_three (by omega : 0x800 ≤ code) (by omega) (by omega)
    rw [octet (by omega), octet (by omega), octet (by omega), leading, owes,
      step_owing_more above below, step_owing_one (by omega) (by omega), whole]
    rfl
  · have leading : code / 262144 % 8 + 240 = code / 262144 + 0xF0 := by omega
    have whole : ((code / 262144 * 64 + code / 4096 % 64) * 64 + code / 64 % 64) * 64 + code % 64 = code := by
      omega
    obtain ⟨low, high, owes, above, below⟩ : ∃ low high, _ :=
      exists_first_of_four (by omega : 0x10000 ≤ code) (by omega)
    rw [octet (by omega), octet (by omega), octet (by omega), octet (by omega), leading, owes,
      step_owing_more above below, step_owing_more (by omega) (by omega),
      step_owing_one (by omega) (by omega), whole]
    rfl

theorem lettersFrom_flatMap (letters : List Char) (done : List Letter) :
    lettersFrom done .between (letters.flatMap String.utf8EncodeChar) =
      done.reverse ++ letters.map some := by
  induction letters generalizing done with
  | nil => simp [lettersFrom]
  | cons letter rest ih =>
    rw [List.flatMap_cons, lettersFrom_utf8EncodeChar, ih, List.reverse_cons, List.map_cons,
      List.append_assoc, List.singleton_append]

/-- The octets of a text are read as it. -/
theorem ofUtf8?_toUtf8 (text : String) : ofUtf8? (toUtf8 text) = some text := by
  rw [ofUtf8?, lettersOfUtf8, toUtf8_eq, lettersFrom_flatMap, List.reverse_nil, List.nil_append]
  have read : (text.toList.map some).mapM id = some text.toList := by
    rw [List.mapM_map]
    exact (List.mapM_pure).trans (congrArg some (List.map_id _))
  rw [read, Option.map_some, String.ofList_toList]

end ModuleBoundary.Text
