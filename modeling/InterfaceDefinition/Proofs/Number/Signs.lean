import InterfaceDefinition.Number.Floating
import InterfaceDefinition.Proofs.Number.Numerals
import Mathlib.Data.List.TakeWhile

/-!
# Signs of numbers

A floating point number may have one sign in front. A text that begins with two is no such number
(`Number.signCount_le_one_of_floating?`), and one without a sign gets one when a minus is put before
it: the minus negates the number (`Number.floating?_minus`). The decimal text of an integer is a
floating point number, too (`Number.isSome_floating?_toString`).
-/

namespace InterfaceDefinition.Number

/-- Whether a character is a sign. -/
def isSign (c : Char) : Bool :=
  c == '-' || c == '+'

/-- The number of signs that a text begins with. -/
def signCount (text : String) : Nat :=
  (text.toList.takeWhile isSign).length

theorem isSign_iff {c : Char} : isSign c = true ↔ c = '-' ∨ c = '+' := by
  rw [isSign, Bool.or_eq_true, beq_iff_eq, beq_iff_eq]

/-- A minus before a text is one more sign. -/
theorem signCount_minus (text : String) : signCount ("-" ++ text) = signCount text + 1 := by
  simp [signCount, isSign]

/-- Negation flips one bit, so that it undoes itself, zeros and infinities included. -/
theorem Binary64.neg_neg (x : Binary64) : x.neg.neg = x := by
  rw [neg, neg, UInt64.xor_assoc, UInt64.xor_self, UInt64.xor_zero]

/-! ### Suffixes -/

section Suffix

variable {isSuffix : Char → Bool} {c : Char} {cs : List Char}

/-- Without a suffix nothing is dropped. -/
theorem dropSuffix_of_forall (h : ∀ c ∈ cs, isSuffix c = false) :
    dropSuffix isSuffix cs = (cs, false) := by
  unfold dropSuffix
  split
  · next c hlast => exact if_neg (by simp [h c (List.mem_of_getLast? hlast)])
  · rfl

/-- A first character that is no suffix is kept. -/
theorem dropSuffix_cons (h : isSuffix c = false) :
    (dropSuffix isSuffix (c :: cs)).1 = c :: (dropSuffix isSuffix cs).1 := by
  cases cs with
  | nil => simp [dropSuffix, h]
  | cons d cs =>
    rw [dropSuffix, dropSuffix, List.getLast?_cons_cons]
    cases hlast : (d :: cs).getLast? with
    | none => rfl
    | some last => cases hsuffix : isSuffix last <;> simp [hsuffix]

theorem dropSuffix_prefix (isSuffix : Char → Bool) (cs : List Char) :
    (dropSuffix isSuffix cs).1 <+: cs := by
  unfold dropSuffix
  split
  · split
    · exact List.dropLast_prefix cs
    · exact List.prefix_rfl
  · exact List.prefix_rfl

end Suffix

/-! ### Floating point numbers -/

section Floating

variable {c : Char} {cs : List Char}

theorem isFloatingSuffix_of_isSign (h : isSign c = true) : isFloatingSuffix c = false := by
  rcases isSign_iff.mp h with rfl | rfl <;> rfl

/-- The numbers that are written by name do not begin with a sign. -/
theorem named?_of_isSign (h : isSign c = true) : named? (c :: cs) = none := by
  have hlower : c.toLower = c := by
    rcases isSign_iff.mp h with rfl | rfl <;> rfl
  have hne : ∀ d ds, isSign d = false →
      String.ofList ((c :: cs).map Char.toLower) ≠ String.ofList (d :: ds) := by
    intro d ds hd heq
    have hhead := congrArg List.head? (String.ofList_injective heq)
    rw [List.map_cons, List.head?_cons, List.head?_cons, hlower] at hhead
    rw [Option.some.inj hhead, hd] at h
    exact Bool.false_ne_true h
  have hinf : String.ofList ((c :: cs).map Char.toLower) ≠ "inf" := hne 'i' ['n', 'f'] rfl
  have hinfinity : String.ofList ((c :: cs).map Char.toLower) ≠ "infinity" :=
    hne 'i' ['n', 'f', 'i', 'n', 'i', 't', 'y'] rfl
  have hnan : String.ofList ((c :: cs).map Char.toLower) ≠ "nan" := hne 'n' ['a', 'n'] rfl
  rw [named?, if_neg (not_or.mpr ⟨hinf, hinfinity⟩), if_neg hnan]

/-- Behind its sign a number has no other one. -/
theorem readMagnitude?_of_isSign (h : isSign c = true) : readMagnitude? (c :: cs) = none := by
  have hunsigned : readUnsigned? (c :: cs) = none := by
    rcases isSign_iff.mp h with rfl | rfl <;> rfl
  rw [readMagnitude?, named?_of_isSign h, hunsigned]
  rfl

theorem readSigned?_minus (cs : List Char) :
    readSigned? ('-' :: cs) = (readMagnitude? cs).map Binary64.neg :=
  rfl

theorem readSigned?_plus (cs : List Char) : readSigned? ('+' :: cs) = readMagnitude? cs :=
  rfl

/-- A number that does not begin with a sign is its magnitude. -/
theorem readSigned?_of_unsigned (h : ∀ c ∈ cs.head?, isSign c = false) :
    readSigned? cs = readMagnitude? cs := by
  unfold readSigned?
  split
  · exact absurd (h '-' rfl) (by decide)
  · exact absurd (h '+' rfl) (by decide)
  · rfl

end Floating

/-- A text has no signs when its first character is none: signs count from the front only. -/
theorem signCount_eq_zero_iff {text : String} :
    signCount text = 0 ↔ ∀ c ∈ text.toList.head?, isSign c = false := by
  rw [signCount]
  cases text.toList with
  | nil => simp
  | cons c cs => cases h : isSign c <;> simp [h]

/-- A text that begins with two signs is no number. -/
theorem signCount_le_one_of_floating? {text : String} (h : (floating? text).isSome = true) :
    signCount text ≤ 1 := by
  rw [floating?] at h
  rw [signCount]
  match htext : text.toList with
  | [] => simp
  | [c] => exact (List.takeWhile_prefix _).length_le
  | c :: d :: cs =>
    cases hc : isSign c with
    | false => simp [hc]
    | true =>
      cases hd : isSign d with
      | false => simp [hc, hd]
      | true =>
        -- neither sign is a suffix, so the second one is left for the magnitude
        rw [htext, dropSuffix_cons (isFloatingSuffix_of_isSign hc),
          dropSuffix_cons (isFloatingSuffix_of_isSign hd)] at h
        rcases isSign_iff.mp hc with rfl | rfl
        · rw [readSigned?_minus, readMagnitude?_of_isSign hd] at h
          cases h
        · rw [readSigned?_plus, readMagnitude?_of_isSign hd] at h
          cases h

/-- A minus before a text without a sign negates the number. -/
theorem floating?_minus {text : String} (h : signCount text = 0) :
    floating? ("-" ++ text) = (floating? text).map Binary64.neg := by
  have hunsigned : ∀ c ∈ (dropSuffix isFloatingSuffix text.toList).1.head?, isSign c = false := by
    intro c hc
    obtain ⟨rest, hrest⟩ := dropSuffix_prefix isFloatingSuffix text.toList
    refine signCount_eq_zero_iff.mp h c ?_
    rw [← hrest, List.head?_append, Option.mem_def.mp hc]
    rfl
  have htext : ("-" ++ text).toList = '-' :: text.toList := by simp
  rw [floating?, floating?, htext, dropSuffix_cons rfl, readSigned?_minus,
    readSigned?_of_unsigned hunsigned]

/-! ### Digits -/

section Digits

variable {cs : List Char}

theorem isSign_of_isDigit {c : Char} (h : c.isDigit = true) : isSign c = false := by
  refine Bool.eq_false_iff.mpr fun hsign => ?_
  rcases isSign_iff.mp hsign with rfl | rfl <;> cases h

theorem isFloatingSuffix_of_isDigit {c : Char} (h : c.isDigit = true) :
    isFloatingSuffix c = false := by
  refine Bool.eq_false_iff.mpr fun hsuffix => ?_
  simp only [isFloatingSuffix, Bool.or_eq_true, beq_iff_eq] at hsuffix
  rcases hsuffix with ((rfl | rfl) | rfl) | rfl <;> cases h

theorem signCount_digits (h : ∀ c ∈ cs, c.isDigit = true) : signCount (String.ofList cs) = 0 := by
  rw [signCount_eq_zero_iff, String.toList_ofList]
  exact fun c hc => isSign_of_isDigit (h c (List.mem_of_head? hc))

theorem spanDigits_digits (h : ∀ c ∈ cs, c.isDigit = true) : spanDigits cs = (cs, []) := by
  have hdecimal : ∀ c ∈ cs, isDecimalDigit c = true := by
    intro c hc
    rw [isDecimalDigit, decimalDigit?_of_isDigit (h c hc)]
    rfl
  rw [spanDigits, List.takeWhile_eq_self_iff.mpr hdecimal, List.dropWhile_eq_nil_iff.mpr hdecimal]

/-- Digits are a floating point number. -/
theorem isSome_floating?_digits (hne : cs ≠ []) (h : ∀ c ∈ cs, c.isDigit = true) :
    (floating? (String.ofList cs)).isSome = true := by
  have hunsigned : (readUnsigned? cs).isSome = true := by
    simp [readUnsigned?, spanDigits_digits h, hne, readExponent?]
  rw [floating?, String.toList_ofList,
    dropSuffix_of_forall fun c hc => isFloatingSuffix_of_isDigit (h c hc),
    readSigned?_of_unsigned fun c hc => isSign_of_isDigit (h c (List.mem_of_head? hc)),
    readMagnitude?, Option.isSome_or, hunsigned, Bool.or_true]

end Digits

/-! ### Integers -/

/-- The decimal text of an integer is a floating point number. -/
theorem isSome_floating?_toString (n : Int) : (floating? (toString n)).isSome = true := by
  cases n with
  | ofNat n => exact isSome_floating?_digits Nat.toDigits_ne_nil isDigit_of_mem_toDigits
  | negSucc n =>
    rw [toString_negSucc, floating?_minus (signCount_digits isDigit_of_mem_toDigits),
      Option.isSome_map]
    exact isSome_floating?_digits Nat.toDigits_ne_nil isDigit_of_mem_toDigits

end InterfaceDefinition.Number
