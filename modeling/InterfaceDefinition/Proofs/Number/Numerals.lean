import InterfaceDefinition.Number.Integral
import Mathlib.Data.Nat.Digits.Defs

/-!
# Numerals

A numeral is a number as it is written down in a base: one or more digits, the most significant one
first, in letters of either case where the base has more digits than ten. Its value is the sum of
the digits by their places, so leading zeros do not matter.

Characters are digits by one table for all bases (`Number.digitValue`). The readers of decimal and
of hexadecimal digits test for ranges of characters instead, and agree with the table
(`Number.decimalDigit?_eq`, `Number.hexDigit?_eq`). So what they read is the numerals and nothing
else, each as its value (`Number.readDigits?_numeral`, `Number.exists_numeral_of_readDigits?`).
-/

namespace InterfaceDefinition.Number

/-! ### Digits -/

/-- The digits of the bases up to sixteen, in the order of their values. -/
def digitChars : List Char :=
  "0123456789abcdef".toList

/-- The value of a digit, of either case. Characters that are no digits come behind all of them. -/
def digitValue (c : Char) : Nat :=
  digitChars.idxOf c.toLower

/-- The value of a character that is a digit of the base. -/
def digitIn? (base : Nat) (c : Char) : Option Nat :=
  if digitValue c < base then some (digitValue c) else none

/-- The readers agree with the table on the characters of ASCII. -/
theorem digits_ascii : ∀ n < 128,
    decimalDigit? (Char.ofNat n) = digitIn? 10 (Char.ofNat n) ∧
      hexDigit? (Char.ofNat n) = digitIn? 16 (Char.ofNat n) := by
  decide +kernel

/-- Characters beyond ASCII are no digits. -/
theorem digitValue_of_le {c : Char} (h : 128 ≤ c.toNat) : digitValue c = 16 := by
  have hlower : c.toLower = c := by
    refine dif_neg fun hupper => Nat.not_lt.mpr h ?_
    exact Nat.lt_of_le_of_lt (UInt32.le_iff_toNat_le.mp hupper.2) (by decide)
  have hascii : digitChars.all (·.toNat < 128) = true := by decide
  rw [digitValue, hlower]
  refine List.idxOf_eq_length fun hmem => Nat.not_lt.mpr h ?_
  exact of_decide_eq_true (List.all_eq_true.mp hascii c hmem)

/-- Characters beyond ASCII are in no range that ends within it. -/
theorem not_le_of_le {c d : Char} (hc : 128 ≤ c.toNat) (hd : d.toNat < 128) : ¬ c ≤ d :=
  fun hle => Nat.not_lt.mpr (Nat.le_trans hc (UInt32.le_iff_toNat_le.mp hle)) hd

theorem decimalDigit?_eq : decimalDigit? = digitIn? 10 := by
  funext c
  by_cases h : c.toNat < 128
  · simpa using (digits_ascii c.toNat h).1
  · have hge := Nat.le_of_not_lt h
    rw [decimalDigit?, if_neg fun hrange => not_le_of_le hge (by decide) hrange.2, digitIn?,
      digitValue_of_le hge]
    rfl

theorem hexDigit?_eq : hexDigit? = digitIn? 16 := by
  funext c
  by_cases h : c.toNat < 128
  · simpa using (digits_ascii c.toNat h).2
  · have hge := Nat.le_of_not_lt h
    rw [hexDigit?, if_neg fun hrange => not_le_of_le hge (by decide) hrange.2,
      if_neg fun hrange => not_le_of_le hge (by decide) hrange.2,
      if_neg fun hrange => not_le_of_le hge (by decide) hrange.2, digitIn?, digitValue_of_le hge]
    rfl

/-! ### Numerals -/

/-- One or more digits of a base. -/
structure Numeral (base : Nat) where
  chars : List Char
  chars_ne_nil : chars ≠ []
  digitValue_lt : ∀ c ∈ chars, digitValue c < base

variable {base : Nat} {cs : List Char}

namespace Numeral

/-- The number that a numeral writes, the most significant digit first. -/
def value (digits : Numeral base) : Nat :=
  Nat.ofDigits base (digits.chars.map digitValue).reverse

/-- A character that is no digit does not occur. -/
theorem not_mem_chars (digits : Numeral base) {c : Char} (h : base ≤ digitValue c) :
    c ∉ digits.chars := fun hmem => Nat.not_lt.mpr h (digits.digitValue_lt c hmem)

end Numeral

/-! ### Reading digits -/

/-- Digits are read from the front, and Mathlib has the least significant one first. -/
theorem ofDigits_eq (base : Nat) (ds : List Nat) :
    ofDigits base ds = Nat.ofDigits base ds.reverse := by
  rw [ofDigits, Nat.ofDigits_eq_foldr, List.foldr_reverse]
  simp only [Nat.cast_id, Nat.add_comm]

/-- A text whose characters are digits of the base is read digit by digit. -/
theorem mapM_digitIn? (h : ∀ c ∈ cs, digitValue c < base) :
    cs.mapM (digitIn? base) = some (cs.map digitValue) := by
  induction cs with
  | nil => rfl
  | cons c cs ih =>
    obtain ⟨hc, hcs⟩ := List.forall_mem_cons.mp h
    rw [List.mapM_cons, ih hcs, digitIn?, if_pos hc]
    rfl

/-- A text that is read has digits of the base only. -/
theorem forall_digitValue_lt_of_mapM {ds : List Nat} (h : cs.mapM (digitIn? base) = some ds) :
    ∀ c ∈ cs, digitValue c < base := by
  induction cs generalizing ds with
  | nil => simp
  | cons c cs ih =>
    rw [List.mapM_cons] at h
    obtain ⟨d, hd, h⟩ := Option.bind_eq_some_iff.mp h
    obtain ⟨ds', hds, -⟩ := Option.bind_eq_some_iff.mp h
    refine List.forall_mem_cons.mpr ⟨?_, ih hds⟩
    by_contra hc
    rw [digitIn?, if_neg hc] at hd
    cases hd

/-- A numeral is read as its value. -/
theorem readDigits?_numeral (digits : Numeral base) :
    readDigits? base (digitIn? base) digits.chars = some digits.value := by
  rw [readDigits?, if_neg (by simpa using digits.chars_ne_nil),
    mapM_digitIn? digits.digitValue_lt, Option.map_some, ofDigits_eq]
  rfl

/-- What is read is a numeral. -/
theorem exists_numeral_of_readDigits? {n : Nat}
    (h : readDigits? base (digitIn? base) cs = some n) :
    ∃ digits : Numeral base, digits.chars = cs := by
  rw [readDigits?] at h
  split at h
  · cases h
  · next hne =>
    obtain ⟨ds, hds, -⟩ := Option.map_eq_some_iff.mp h
    exact ⟨⟨cs, by simpa using hne, forall_digitValue_lt_of_mapM hds⟩, rfl⟩

/-! ### Decimal texts -/

theorem decimalDigit?_of_isDigit {c : Char} (h : c.isDigit = true) :
    decimalDigit? c = some (c.toNat - '0'.toNat) := by
  rw [Char.isDigit, Bool.and_eq_true, decide_eq_true_iff, decide_eq_true_iff] at h
  exact if_pos h

theorem digitValue_of_isDigit {c : Char} (h : c.isDigit = true) :
    digitValue c < 10 ∧ digitValue c = c.toNat - '0'.toNat := by
  have hdigit := decimalDigit?_of_isDigit h
  rw [decimalDigit?_eq, digitIn?] at hdigit
  split at hdigit
  · next hlt => exact ⟨hlt, Option.some.inj hdigit⟩
  · cases hdigit

theorem isDigit_of_mem_toDigits {n : Nat} : ∀ c ∈ Nat.toDigits 10 n, c.isDigit = true :=
  fun _ hc => Nat.isDigit_of_mem_toDigits (by decide) (by decide) hc

theorem toString_negSucc (n : Nat) :
    toString (Int.negSucc n) = "-" ++ String.ofList (Nat.toDigits 10 (n + 1)) :=
  rfl

namespace Numeral

/-- The decimal numeral of a number. -/
def ofNat (n : Nat) : Numeral 10 where
  chars := Nat.toDigits 10 n
  chars_ne_nil := Nat.toDigits_ne_nil
  digitValue_lt c hc := (digitValue_of_isDigit (isDigit_of_mem_toDigits c hc)).1

/-- The digits that are written for a number are read as this number. -/
theorem value_ofNat (n : Nat) : (ofNat n).value = n := by
  have hdigits : (Nat.toDigits 10 n).map digitValue =
      (Nat.toDigits 10 n).map fun c => c.toNat - '0'.toNat :=
    List.map_congr_left fun c hc => (digitValue_of_isDigit (isDigit_of_mem_toDigits c hc)).2
  rw [value, ofNat, hdigits, ← ofDigits_eq, ofDigits, List.foldl_map, ← Nat.ofDigitChars_eq_foldl,
    Nat.ofDigitChars_toDigits (by decide) (by decide)]

end Numeral

end InterfaceDefinition.Number
