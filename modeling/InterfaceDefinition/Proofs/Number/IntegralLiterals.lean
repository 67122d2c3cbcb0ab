import InterfaceDefinition.Proofs.Number.Numerals
import InterfaceDefinition.Proofs.Number.Words
import Mathlib.Data.List.Basic

/-!
# Integral literals

An integral literal is a decimal numeral, which may have a sign in front, or a hexadecimal one
behind `0x`; either may end in the suffix `l`. Prefix and suffix are letters of either case
(`Number.IntegralLiteral`).

A decimal literal stands for the number with its sign, if that is a word. A hexadecimal one writes
down the bits of a word, of 32 bits if these are enough and there is no suffix, else of 64 bits, and
stands for what they are in two's complement (`Number.IntegralLiteral.value?`). The text of every
literal is read as that (`Number.IntegralLiteral.toInt_integral?_text`).

Conversely, whatever is read as an integer is the spelling of a literal
(`Number.IntegralLiteral.integral?_eq_some_iff`). A spelling is the text or, for a hexadecimal
literal, the text with a plus between prefix and digits, which is ignored. These other spellings are
the ones with a plus behind the first character (`Number.IntegralLiteral.eq_text_of_mem_spellings`).
-/

namespace InterfaceDefinition.Number

/-! ### Literals -/

/-- The signs that a decimal literal may have. -/
inductive Sign where
  | plus
  | minus

/-- A sign as it is written. -/
def Sign.char : Sign → Char
  | plus => '+'
  | minus => '-'

/-- The cases that the letters of a literal may have. -/
inductive LetterCase where
  | lower
  | upper

/-- A letter, given in lower case, in one of the cases. -/
def LetterCase.letter (c : Char) : LetterCase → Char
  | lower => c
  | upper => c.toUpper

/-- The integral literals: their parts, as far as these can be chosen. -/
inductive IntegralLiteral where
  | decimal (sign : Option Sign) (digits : Numeral 10) (suffix : Option LetterCase)
  | hexadecimal (letter : LetterCase) (digits : Numeral 16) (suffix : Option LetterCase)

/-- An optional sign as it is written. -/
def signChars (sign : Option Sign) : List Char :=
  (sign.map Sign.char).toList

/-- The prefix of hexadecimal literals as it is written. -/
def prefixChars (letter : LetterCase) : List Char :=
  ['0', letter.letter 'x']

/-- An optional suffix as it is written. -/
def suffixChars (suffix : Option LetterCase) : List Char :=
  (suffix.map (LetterCase.letter 'l')).toList

/-- A number with an optional sign in front. -/
def signed : Option Sign → Nat → Int
  | some .minus, n => -n
  | some .plus, n => n
  | none, n => n

/-- What the bits of a number stand for in two's complement, if it has no more than some width. -/
def twosComplement (width n : Nat) : Int :=
  if n < 2 ^ (width - 1) then n else n - 2 ^ width

/-- What hexadecimal digits stand for, by their number: a word of 32 bits if that is enough and no
suffix asks for more, else a word of 64 bits. -/
def hexadecimalValue? (hasSuffix : Bool) (n : Nat) : Option Int :=
  if n < 2 ^ 32 ∧ hasSuffix = false then some (twosComplement 32 n)
  else if n < 2 ^ 64 then some (twosComplement 64 n)
  else none

namespace IntegralLiteral

/-- The text of a literal. -/
def text : IntegralLiteral → String
  | decimal sign digits suffix =>
    String.ofList (signChars sign ++ digits.chars ++ suffixChars suffix)
  | hexadecimal letter digits suffix =>
    String.ofList (prefixChars letter ++ digits.chars ++ suffixChars suffix)

/-- The integer that a literal stands for, if there is a word for it. -/
def value? : IntegralLiteral → Option Int
  | decimal sign digits _ =>
    if -2 ^ 63 ≤ signed sign digits.value ∧ signed sign digits.value < 2 ^ 63 then
      some (signed sign digits.value)
    else none
  | hexadecimal _ digits suffix => hexadecimalValue? suffix.isSome digits.value

/-- The texts that a literal is read from: its own one, and for a hexadecimal literal also the one
with a plus between prefix and digits. -/
def spellings : IntegralLiteral → List String
  | decimal sign digits suffix => [(decimal sign digits suffix).text]
  | hexadecimal letter digits suffix =>
    [(hexadecimal letter digits suffix).text,
      String.ofList (prefixChars letter ++ '+' :: digits.chars ++ suffixChars suffix)]

end IntegralLiteral

/-! ### Suffixes -/

/-- What is dropped is nothing, or a last character that is a suffix. -/
theorem exists_dropSuffix (isSuffix : Char → Bool) (cs : List Char) : ∃ dropped : Option Char,
    (∀ c ∈ dropped, isSuffix c = true) ∧
      cs = (dropSuffix isSuffix cs).1 ++ dropped.toList ∧
      (dropSuffix isSuffix cs).2 = dropped.isSome := by
  unfold dropSuffix
  split
  · next c hlast =>
    split
    · next hc =>
      exact ⟨some c, fun d hd => Option.mem_some_iff.mp hd ▸ hc,
        (List.dropLast_append_getLast? c hlast).symm, rfl⟩
    · exact ⟨none, by simp, by simp, rfl⟩
  · exact ⟨none, by simp, by simp, rfl⟩

/-- Whether a character is a suffix of integral literals. -/
def isIntegralSuffix (c : Char) : Bool :=
  c == 'l' || c == 'L'

/-- What is read as an integer when the suffix is dropped, if `long` says whether there was one. -/
def readBody? (long : Bool) (body : List Char) : Option Int64 :=
  match body with
  | '0' :: 'x' :: rest => readHex? long rest
  | '0' :: 'X' :: rest => readHex? long rest
  | _ => readDecimal? body

theorem integral?_eq (text : String) :
    integral? text = readBody? (dropSuffix isIntegralSuffix text.toList).2
      (dropSuffix isIntegralSuffix text.toList).1 :=
  rfl

/-- The suffix of a long literal is an `l` of either case. -/
theorem isIntegralSuffix_iff {c : Char} :
    isIntegralSuffix c = true ↔ ∃ letter : LetterCase, c = letter.letter 'l' := by
  rw [isIntegralSuffix, Bool.or_eq_true, beq_iff_eq, beq_iff_eq]
  constructor
  · rintro (rfl | rfl)
    · exact ⟨.lower, rfl⟩
    · exact ⟨.upper, rfl⟩
  · rintro ⟨letter, rfl⟩
    cases letter
    · exact .inl rfl
    · exact .inr rfl

/-- No digit up to base 16 is taken for a suffix. -/
theorem Numeral.not_isIntegralSuffix {base : Nat} (hbase : base ≤ 16) (digits : Numeral base)
    {c : Char} (hc : c ∈ digits.chars) : isIntegralSuffix c = false := by
  refine Bool.eq_false_iff.mpr fun hsuffix => ?_
  obtain ⟨letter, rfl⟩ := isIntegralSuffix_iff.mp hsuffix
  refine digits.not_mem_chars (Nat.le_trans hbase ?_) hc
  cases letter <;> decide

/-- Behind digits the suffix is dropped and nothing else, since no digit is one. -/
theorem integral?_append_suffixChars {base : Nat} (hbase : base ≤ 16) (front : List Char)
    (digits : Numeral base) (suffix : Option LetterCase) :
    integral? (String.ofList (front ++ digits.chars ++ suffixChars suffix)) =
      readBody? suffix.isSome (front ++ digits.chars) := by
  have hdrop : dropSuffix isIntegralSuffix (front ++ digits.chars ++ suffixChars suffix) =
      (front ++ digits.chars, suffix.isSome) := by
    cases suffix with
    | none =>
      have hlast := List.getLast?_eq_some_getLast digits.chars_ne_nil
      have hdigit := digits.not_isIntegralSuffix hbase (List.getLast_mem digits.chars_ne_nil)
      simp [suffixChars, dropSuffix, List.getLast?_append, hlast, hdigit]
    | some letter =>
      have hletter := isIntegralSuffix_iff.mpr ⟨letter, rfl⟩
      simp [suffixChars, dropSuffix, hletter]
  rw [integral?_eq, String.toList_ofList, hdrop]

/-- Every text is an optional suffix and what is read in front of it. -/
theorem exists_suffixChars (text : String) : ∃ body suffix,
    text = String.ofList (body ++ suffixChars suffix) ∧
      integral? text = readBody? suffix.isSome body := by
  obtain ⟨dropped, hdropped, htext, hlong⟩ := exists_dropSuffix isIntegralSuffix text.toList
  obtain ⟨suffix, rfl⟩ : ∃ suffix : Option LetterCase,
      dropped = suffix.map (LetterCase.letter 'l') := by
    cases dropped with
    | none => exact ⟨none, rfl⟩
    | some c =>
      obtain ⟨letter, rfl⟩ := isIntegralSuffix_iff.mp (hdropped c rfl)
      exact ⟨some letter, rfl⟩
  refine ⟨(dropSuffix isIntegralSuffix text.toList).1, suffix, ?_, ?_⟩
  · rw [suffixChars, ← htext, String.ofList_toList]
  · rw [integral?_eq, hlong, Option.isSome_map]

/-! ### Decimal literals -/

/-- Decimal digits with an optional sign are read as the number with the sign, if that is a word. -/
theorem readDecimal?_numeral (sign : Option Sign) (digits : Numeral 10) :
    readDecimal? (signChars sign ++ digits.chars) = word? (signed sign digits.value) := by
  have hread : readDigits? 10 decimalDigit? digits.chars = some digits.value := by
    rw [decimalDigit?_eq, readDigits?_numeral]
  match sign with
  | some .minus => exact congrArg (Option.bind · fun n : Nat => word? (-n)) hread
  | some .plus => exact congrArg (Option.bind · fun n : Nat => word? n) hread
  | none =>
    rw [signChars, Option.map_none, Option.toList_none, List.nil_append]
    unfold readDecimal?
    split
    · next hchars => exact absurd (hchars ▸ List.mem_cons_self) (digits.not_mem_chars (by decide))
    · next hchars => exact absurd (hchars ▸ List.mem_cons_self) (digits.not_mem_chars (by decide))
    · exact congrArg (Option.bind · fun n : Nat => word? n) hread

/-- What is read as a decimal number is an optional sign and decimal digits. -/
theorem exists_numeral_of_readDecimal? {cs : List Char} {w : Int64}
    (h : readDecimal? cs = some w) : ∃ sign, ∃ digits : Numeral 10,
      cs = signChars sign ++ digits.chars := by
  have hnumeral : ∀ {digits : List Char} {f : Nat → Option Int64},
      (readDigits? 10 decimalDigit? digits).bind f = some w →
        ∃ numeral : Numeral 10, numeral.chars = digits := by
    intro digits f hread
    obtain ⟨n, hn, -⟩ := Option.bind_eq_some_iff.mp hread
    exact exists_numeral_of_readDigits? (decimalDigit?_eq ▸ hn)
  unfold readDecimal? at h
  split at h
  · obtain ⟨digits, rfl⟩ := hnumeral h
    exact ⟨some .minus, digits, rfl⟩
  · obtain ⟨digits, rfl⟩ := hnumeral h
    exact ⟨some .plus, digits, rfl⟩
  · obtain ⟨digits, rfl⟩ := hnumeral h
    exact ⟨none, digits, rfl⟩

/-! ### Hexadecimal literals -/

/-- The number that is the word of a natural number of 64 bits. -/
theorem toInt_ofNat_eq_twosComplement {n : Nat} (h : n < 2 ^ 64) :
    (Int64.ofNat n).toInt = twosComplement 64 n := by
  rw [Int64.toInt_ofNat', Int.bmod_def, twosComplement]
  simp only [Int64.size, Nat.reduceSub]
  split <;> split <;> omega

/-- The word that hexadecimal digits give, by their number. -/
def hexadecimalWord? (long : Bool) (n : Nat) : Option Int64 :=
  if n ≤ Int32.maxValue.toInt then some (Int64.ofNat n)
  else if n < UInt32.size ∧ !long then some (Int64.ofInt (n - UInt32.size))
  else if n < UInt64.size then some (Int64.ofNat n)
  else none

/-- The two tests of the magnitude are the three ranges of what the digits stand for. -/
theorem toInt_hexadecimalWord? (long : Bool) (n : Nat) :
    (hexadecimalWord? long n).map Int64.toInt = hexadecimalValue? long n := by
  have hmax : Int32.maxValue.toInt = 2 ^ 31 - 1 := by decide
  have h32 : UInt32.size = 2 ^ 32 := rfl
  have h64 : UInt64.size = 2 ^ 64 := rfl
  unfold hexadecimalWord? hexadecimalValue?
  rw [hmax, h32, h64]
  -- below the sign bit of the shorter width, both widths give the number itself
  by_cases hshort : n < 2 ^ 31
  · have hword : (Int64.ofNat n).toInt = n := Int64.toInt_ofNat_of_lt (by omega)
    rw [if_pos (by omega), Option.map_some, hword]
    cases long with
    | false => rw [if_pos ⟨by omega, rfl⟩, twosComplement, if_pos hshort]
    | true => rw [if_neg (by simp), if_pos (by omega), twosComplement, if_pos (by omega)]
  · rw [if_neg (by omega)]
    by_cases hint : n < 2 ^ 32 ∧ long = false
    · have hfits : Fits ((n : Int) - (2 ^ 32 : Nat)) := by
        rw [Fits]
        omega
      rw [if_pos (by simpa using hint), if_pos hint, Option.map_some, toInt_ofInt hfits,
        twosComplement, if_neg hshort]
      rfl
    · rw [if_neg (by simpa using hint), if_neg hint]
      split
      · next hlong => rw [Option.map_some, toInt_ofNat_eq_twosComplement hlong]
      · rfl

/-- Digits without the plus in front. -/
def dropPlus (cs : List Char) : List Char :=
  match cs with
  | '+' :: rest => rest
  | _ => cs

theorem readHex?_eq (long : Bool) (cs : List Char) :
    readHex? long cs = (readDigits? 16 hexDigit? (dropPlus cs)).bind (hexadecimalWord? long) := by
  unfold readHex?
  extract_lets digits
  have hdigits : dropPlus cs = digits := rfl
  rw [hdigits]
  cases readDigits? 16 hexDigit? digits <;> rfl

/-- Digits have no plus in front of them to drop. -/
theorem dropPlus_numeral (digits : Numeral 16) : dropPlus digits.chars = digits.chars := by
  unfold dropPlus
  split
  · next hchars => exact absurd (hchars ▸ List.mem_cons_self) (digits.not_mem_chars (by decide))
  · rfl

/-- Hexadecimal digits are read as the word that they give, with or without the plus. -/
theorem toInt_readHex?_of_dropPlus {digits : Numeral 16} {cs : List Char} (long : Bool)
    (h : dropPlus cs = digits.chars) :
    (readHex? long cs).map Int64.toInt = hexadecimalValue? long digits.value := by
  rw [readHex?_eq, h, hexDigit?_eq, readDigits?_numeral, Option.bind_some, toInt_hexadecimalWord?]

/-- What is read as a hexadecimal number is hexadecimal digits, with or without the plus. -/
theorem exists_numeral_of_readHex? {long : Bool} {cs : List Char} {w : Int64}
    (h : readHex? long cs = some w) : ∃ digits : Numeral 16,
      cs = digits.chars ∨ cs = '+' :: digits.chars := by
  rw [readHex?_eq, hexDigit?_eq] at h
  obtain ⟨n, hn, -⟩ := Option.bind_eq_some_iff.mp h
  obtain ⟨digits, hdigits⟩ := exists_numeral_of_readDigits? hn
  refine ⟨digits, ?_⟩
  unfold dropPlus at hdigits
  split at hdigits
  · exact .inr (congrArg _ hdigits.symm)
  · exact .inl hdigits.symm

/-! ### Prefixes -/

/-- A prefix of either case makes the rest hexadecimal. -/
theorem readBody?_prefixChars (long : Bool) (letter : LetterCase) (cs : List Char) :
    readBody? long (prefixChars letter ++ cs) = readHex? long cs := by
  cases letter <;> rfl

/-- What does not begin with the prefix is read as a decimal number. -/
theorem readBody?_of_not_prefixed {long : Bool} {body : List Char}
    (h : ∀ letter cs, body ≠ prefixChars letter ++ cs) :
    readBody? long body = readDecimal? body := by
  unfold readBody?
  split
  · exact absurd rfl (h .lower _)
  · exact absurd rfl (h .upper _)
  · rfl

/-- Decimal digits with an optional sign do not begin with the prefix. -/
theorem decimal_ne_prefixed (sign : Option Sign) (digits : Numeral 10) (letter : LetterCase)
    (cs : List Char) : signChars sign ++ digits.chars ≠ prefixChars letter ++ cs := by
  intro heq
  match sign with
  | some .plus | some .minus => cases heq
  | none =>
    -- the first character of the prefix is a digit, but the second one is not
    have hchars : digits.chars = prefixChars letter ++ cs := heq
    have hmem : letter.letter 'x' ∈ digits.chars := by
      rw [hchars]
      exact List.mem_cons_of_mem _ List.mem_cons_self
    refine digits.not_mem_chars ?_ hmem
    cases letter <;> decide

/-! ### Reading literals -/

/-- A decimal literal is read as its number with its sign, if that is a word. -/
theorem integral?_decimal (sign : Option Sign) (digits : Numeral 10)
    (suffix : Option LetterCase) :
    integral? (IntegralLiteral.decimal sign digits suffix).text =
      word? (signed sign digits.value) := by
  rw [IntegralLiteral.text, integral?_append_suffixChars (by decide),
    readBody?_of_not_prefixed (decimal_ne_prefixed sign digits), readDecimal?_numeral]

/-- A hexadecimal literal is read as the bits of a word, with or without a plus. -/
theorem toInt_integral?_hexadecimal (letter : LetterCase) (plus : List Char) {digits : Numeral 16}
    (hplus : dropPlus (plus ++ digits.chars) = digits.chars) (suffix : Option LetterCase) :
    (integral? (String.ofList
        (prefixChars letter ++ plus ++ digits.chars ++ suffixChars suffix))).map Int64.toInt =
      hexadecimalValue? suffix.isSome digits.value := by
  rw [integral?_append_suffixChars (Nat.le_refl 16), List.append_assoc, readBody?_prefixChars,
    toInt_readHex?_of_dropPlus _ hplus]

/-- A number is read as a word in the range of `long`, and not at all outside. -/
theorem toInt_word? (n : Int) :
    (word? n).map Int64.toInt = if -2 ^ 63 ≤ n ∧ n < 2 ^ 63 then some n else none := by
  by_cases h : Fits n
  · rw [word?_of_fits h, Option.map_some, toInt_ofInt h]
    exact (if_pos h).symm
  · rw [word?_of_not_fits h]
    exact (if_neg h).symm

namespace IntegralLiteral

/-- The text that a literal stands for is one of its spellings, that without a plus. -/
theorem text_mem_spellings (lit : IntegralLiteral) : lit.text ∈ lit.spellings := by
  cases lit <;> exact List.mem_cons_self

/-- All spellings of a literal are read as what it stands for. -/
theorem toInt_integral?_of_mem_spellings {lit : IntegralLiteral} {text : String}
    (h : text ∈ lit.spellings) : (integral? text).map Int64.toInt = lit.value? := by
  cases lit with
  | decimal sign digits suffix =>
    rw [List.mem_singleton.mp h, integral?_decimal, toInt_word?, value?]
  | hexadecimal letter digits suffix =>
    rcases List.mem_pair.mp h with rfl | rfl
    · have hread := toInt_integral?_hexadecimal letter [] (dropPlus_numeral digits) suffix
      rwa [List.append_nil] at hread
    · exact toInt_integral?_hexadecimal letter ['+'] rfl suffix

/-- **Integral literals have the right value.** The text of a literal is read as the word for the
integer that the literal stands for, and is not read if there is none. -/
theorem toInt_integral?_text (lit : IntegralLiteral) :
    (integral? lit.text).map Int64.toInt = lit.value? :=
  toInt_integral?_of_mem_spellings lit.text_mem_spellings

/-- Where the sign bit of a hexadecimal literal is depends on the suffix and on the magnitude. -/
example : (integral? "0x7FFFFFFF").map Int64.toInt = some (2 ^ 31 - 1) ∧
    (integral? "0x80000000").map Int64.toInt = some (-2 ^ 31) ∧
    (integral? "0x80000000L").map Int64.toInt = some (2 ^ 31) ∧
    (integral? "0x100000000").map Int64.toInt = some (2 ^ 32) ∧
    (integral? "0x8000000000000000").map Int64.toInt = some (-2 ^ 63) := by
  decide

/-- What is read as an integer is a spelling of a literal. -/
theorem exists_mem_spellings {text : String} {w : Int64} (h : integral? text = some w) :
    ∃ lit : IntegralLiteral, text ∈ lit.spellings := by
  obtain ⟨body, suffix, rfl, hbody⟩ := exists_suffixChars text
  rw [hbody] at h
  by_cases hhex : ∃ letter cs, body = prefixChars letter ++ cs
  · obtain ⟨letter, cs, rfl⟩ := hhex
    rw [readBody?_prefixChars] at h
    obtain ⟨digits, rfl | rfl⟩ := exists_numeral_of_readHex? h
    · exact ⟨hexadecimal letter digits suffix, List.mem_cons_self⟩
    · exact ⟨hexadecimal letter digits suffix, List.mem_cons_of_mem _ List.mem_cons_self⟩
  · rw [readBody?_of_not_prefixed fun letter cs heq => hhex ⟨letter, cs, heq⟩] at h
    obtain ⟨sign, digits, rfl⟩ := exists_numeral_of_readDecimal? h
    exact ⟨decimal sign digits suffix, List.mem_cons_self⟩

/-- The texts that are read as an integer are the spellings of the literals that stand for one. -/
theorem integral?_eq_some_iff {text : String} {w : Int64} :
    integral? text = some w ↔
      ∃ lit : IntegralLiteral, text ∈ lit.spellings ∧ lit.value? = some w.toInt := by
  constructor
  · intro h
    obtain ⟨lit, hlit⟩ := exists_mem_spellings h
    have hvalue := toInt_integral?_of_mem_spellings hlit
    rw [h] at hvalue
    exact ⟨lit, hlit, hvalue.symm⟩
  · rintro ⟨lit, hlit, hvalue⟩
    rw [← toInt_integral?_of_mem_spellings hlit] at hvalue
    obtain ⟨v, hv, hw⟩ := Option.map_eq_some_iff.mp hvalue
    rw [hv, Int64.toInt_inj.mp hw]

theorem plus_not_mem_suffixChars (suffix : Option LetterCase) : '+' ∉ suffixChars suffix := by
  match suffix with
  | none => exact List.not_mem_nil
  | some .lower => decide
  | some .upper => decide

theorem plus_not_mem_prefixChars (letter : LetterCase) : '+' ∉ prefixChars letter := by
  cases letter <;> decide

/-- In the text of a literal a plus can only be the sign in front. -/
theorem plus_not_mem_tail (lit : IntegralLiteral) : '+' ∉ lit.text.toList.tail := by
  have hdigits : ∀ {base : Nat}, base ≤ 16 → ∀ digits : Numeral base, '+' ∉ digits.chars :=
    fun hbase digits => digits.not_mem_chars (Nat.le_trans hbase (by decide))
  cases lit with
  | decimal sign digits suffix =>
    have hrest : '+' ∉ digits.chars ++ suffixChars suffix := by
      rw [List.mem_append, not_or]
      exact ⟨hdigits (by decide) digits, plus_not_mem_suffixChars suffix⟩
    rw [text, String.toList_ofList, List.append_assoc]
    match sign with
    | some .plus | some .minus => exact hrest
    | none => exact fun hmem => hrest (List.mem_of_mem_tail hmem)
  | hexadecimal letter digits suffix =>
    have hall : '+' ∉ prefixChars letter ++ digits.chars ++ suffixChars suffix := by
      rw [List.mem_append, List.mem_append, not_or, not_or]
      exact ⟨⟨plus_not_mem_prefixChars letter, hdigits (Nat.le_refl 16) digits⟩,
        plus_not_mem_suffixChars suffix⟩
    rw [text, String.toList_ofList]
    exact fun hmem => hall (List.mem_of_mem_tail hmem)

/-- The spellings other than the text have a plus behind the first character. -/
theorem eq_text_of_mem_spellings {lit : IntegralLiteral} {text : String} (h : text ∈ lit.spellings)
    (hplus : '+' ∉ text.toList.tail) : text = lit.text := by
  cases lit with
  | decimal sign digits suffix => exact List.mem_singleton.mp h
  | hexadecimal letter digits suffix =>
    rcases List.mem_pair.mp h with rfl | rfl
    · rfl
    · rw [String.toList_ofList] at hplus
      exact absurd (List.mem_cons_of_mem _ List.mem_cons_self) hplus

end IntegralLiteral

/-! ### Decimal texts -/

/-- The decimal text of a number is read as the number, if that is a word. -/
theorem integral?_toString (n : Nat) : integral? (toString n) = word? n := by
  have htext : (IntegralLiteral.decimal none (.ofNat n) none).text = toString n :=
    congrArg String.ofList (List.append_nil _)
  rw [← htext, integral?_decimal, Numeral.value_ofNat]
  rfl

/-- The decimal text of an integer is read as the integer, with its sign, if that is a word. -/
theorem integral?_toString_int (n : Int) : integral? (toString n) = word? n := by
  cases n with
  | ofNat n => exact integral?_toString n
  | negSucc n =>
    have htext : (IntegralLiteral.decimal (some .minus) (.ofNat (n + 1)) none).text =
        toString (Int.negSucc n) := by
      rw [toString_negSucc, ← String.toList_inj]
      simp [IntegralLiteral.text, signChars, suffixChars, Sign.char, Numeral.ofNat]
    rw [← htext, integral?_decimal, Numeral.value_ofNat]
    rfl

end InterfaceDefinition.Number
